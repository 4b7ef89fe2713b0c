/-!
# Bracketed words

The form of a plant is written as a word.  An opening bracket begins a branch,
a closing one ends the branch begun last, `F` grows, six symbols turn, and every
other character only takes part in the derivation.  Words need not be balanced:
nothing here or later depends on brackets that match.

The outline lists the opening brackets of a word from left to right, each with
the text that follows it and with its place in the nesting of the brackets.  A
closing bracket closes the last bracket that is still open; where none is open
it has no meaning.  The outline determines the branches of a plant.
-/

namespace Arbor

/-- A symbol of a word.  Every character is one. -/
abbrev Symbol := Char

/-- A word, symbol by symbol. -/
abbrev Word := List Symbol

namespace Word

/-- The number of branches that a word begins. -/
def branchCount (word : Word) : Nat :=
  word.count '['

/-- Whether a symbol begins or ends a branch. -/
def isBracket (symbol : Symbol) : Bool :=
  symbol = '[' ∨ symbol = ']'

/-- The text of a word up to its first bracket of either kind. -/
def leadingText (word : Word) : Word :=
  word.takeWhile fun symbol => !isBracket symbol

/-- The word within a pair of brackets, unless it begins with an opening one. -/
def enclosed (word : Word) : Word :=
  if word.head? = some '[' then word else '[' :: word ++ [']']

@[simp] theorem branchCount_nil : branchCount [] = 0 := rfl

theorem branchCount_cons (symbol : Symbol) (rest : Word) :
    branchCount (symbol :: rest) = branchCount rest + if symbol = '[' then 1 else 0 := by
  simp [branchCount, List.count_cons]

@[simp] theorem branchCount_append (left right : Word) :
    branchCount (left ++ right) = branchCount left + branchCount right := by
  simp [branchCount]

@[simp] theorem head?_enclosed (word : Word) : (enclosed word).head? = some '[' := by
  unfold enclosed
  split <;> simp [*]

end Word

/-! ## The outline of a word -/

/-- What one opening bracket says about its branch. -/
structure Opening where
  /-- The text from the bracket up to the next one of either kind. -/
  label : Word
  /-- The number of brackets around this one. -/
  nesting : Nat
  /-- The ordinal of the innermost bracket around this one. -/
  parent : Option Nat
  deriving DecidableEq, Inhabited, Repr

namespace Word

/-- The outline of the rest of a word, given the ordinals of the brackets that
are still open, innermost first, and the ordinal of the next one. -/
def outlineFrom (unclosed : List Nat) (ordinal : Nat) : Word → List Opening
  | [] => []
  | symbol :: rest =>
      if symbol = '[' then
        ⟨leadingText rest, unclosed.length, unclosed.head?⟩ ::
          outlineFrom (ordinal :: unclosed) (ordinal + 1) rest
      else if symbol = ']' then
        outlineFrom unclosed.tail ordinal rest
      else
        outlineFrom unclosed ordinal rest

/-- The opening brackets of a word, from left to right. -/
def outline (word : Word) : List Opening :=
  outlineFrom [] 0 word

@[simp] theorem length_outlineFrom (unclosed : List Nat) (ordinal : Nat) (word : Word) :
    (outlineFrom unclosed ordinal word).length = branchCount word := by
  induction word generalizing unclosed ordinal with
  | nil => rfl
  | cons symbol rest ih =>
      by_cases opening : symbol = '['
      · simp [outlineFrom, opening, branchCount_cons, ih]
      · by_cases closing : symbol = ']' <;>
          simp [outlineFrom, opening, closing, branchCount_cons, ih]

@[simp] theorem length_outline (word : Word) : (outline word).length = branchCount word :=
  length_outlineFrom [] 0 word

end Word

end Arbor
