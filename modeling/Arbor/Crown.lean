import Arbor.Branch

/-!
# The crown of a plant

The crown holds one branch for each opening bracket of the word, in the order of
the brackets.  When a generation has changed the word, buds are inserted where
the new branches begin, and then every branch is given the text and the place of
its bracket.  Branches that are already there keep their identity and their
geometry throughout.
-/

namespace Arbor

/-- The branches of a plant, in the order of their brackets. -/
structure Crown where
  branches : List Branch
  /-- The identifier that the next new branch gets. -/
  nextId : UInt32
  deriving DecidableEq, Inhabited, Repr

namespace Crown

/-- The crown without branches, from which no identifier has been given away. -/
def empty : Crown := ⟨[], 0⟩

/-- Fresh branches with consecutive identifiers, which wrap around. -/
def buds (crown : Crown) (count creationDepth : Nat) : List Branch :=
  (List.range count).map fun offset =>
    Branch.bud (crown.nextId + UInt32.ofNat offset) creationDepth

/-- Insert fresh branches so that the first one has the index `position`; beyond
the end of the crown they are appended. -/
def insertBuds (crown : Crown) (count position creationDepth : Nat) : Crown where
  branches :=
    crown.branches.take position ++ crown.buds count creationDepth ++
      crown.branches.drop position
  nextId := crown.nextId + UInt32.ofNat count

/-- Bring the crown in step with a word.  The branches take the entries of the
outline in order; where there are too few, fresh ones are appended, and surplus
ones are dropped. -/
def align (crown : Crown) (word : Word) (creationDepth : Nat) : Crown :=
  let missing := word.branchCount - crown.branches.length
  { branches :=
      List.zipWith Branch.place (crown.branches ++ crown.buds missing creationDepth) word.outline
    nextId := crown.nextId + UInt32.ofNat missing }

/-- The crown that a word begins with.  All its branches are buds of one generation. -/
def ofWord (word : Word) (creationDepth : Nat) : Crown :=
  empty.align word creationDepth

/-- The word that the rest of the branches stand for while `unclosed` brackets
are open: before each branch, brackets are closed down to its nesting. -/
def wordFrom (unclosed : Nat) : List Branch → Word
  | [] => List.replicate unclosed ']'
  | branch :: rest =>
      List.replicate (unclosed - branch.nesting) ']' ++ '[' :: branch.label ++
        wordFrom (min unclosed branch.nesting + 1) rest

/-- The word that the branches stand for.  Text that belongs to no branch, such
as that after a closing bracket, is not in it. -/
def toWord (crown : Crown) : Word :=
  wordFrom 0 crown.branches

@[simp] theorem length_buds (crown : Crown) (count creationDepth : Nat) :
    (crown.buds count creationDepth).length = count := by
  simp [buds]

@[simp] theorem length_align (crown : Crown) (word : Word) (creationDepth : Nat) :
    (crown.align word creationDepth).branches.length = word.branchCount := by
  simp [align]
  omega

/-- An aligned crown stands for the outline of the word. -/
@[simp] theorem map_opening_align (crown : Crown) (word : Word) (creationDepth : Nat) :
    (crown.align word creationDepth).branches.map Branch.opening = word.outline := by
  apply List.ext_getElem
  · simp
  · intro index _ _
    simp [align]

/-- A crown that stands for the outline of a word already is not changed by it. -/
theorem align_of_map_opening {crown : Crown} {word : Word}
    (aligned : crown.branches.map Branch.opening = word.outline) (creationDepth : Nat) :
    crown.align word creationDepth = crown := by
  have noneMissing : word.branchCount - crown.branches.length = 0 := by
    rw [← Word.length_outline, ← aligned, List.length_map, Nat.sub_self]
  rw [align, noneMissing, ← aligned]
  simp [buds, List.zipWith_map_right, List.zipWith_self]

end Crown

end Arbor
