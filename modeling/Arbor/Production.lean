import Arbor.Random
import Arbor.Text.Numeral
import Arbor.Text.Quoted
import Arbor.Word

/-!
# Productions

A production replaces its predecessor by its successor with some probability.
Productions are tried in the order of their list, and only the first one that
applies to a place of a word has a chance there: when it does not fire, no later
one is tried.

A production is written on one line as `predecessor=successor`, with an optional
probability after a comma.  Blank characters are ignored, also within the parts.
The line is cut at its first equals sign, and what follows at its first comma;
only then are the parts examined, in a fixed order that decides which of several
faults is reported.
-/

namespace Arbor

/-- A stochastic rule that replaces one word by another. -/
structure Production where
  predecessor : Word
  successor : Word
  probability : Float32
  deriving DecidableEq, Inhabited, Repr

namespace Production

/-- A number moved into the unit interval.  The undefined number becomes zero. -/
def clampProbability (probability : Float32) : Float32 :=
  if probability.isNaN then 0
  else if probability < 0 then 0
  else if probability > 1 then 1
  else probability

/-- The production whose probability is the given number, clamped. -/
def clamped (predecessor successor : Word) (probability : Float32) : Production :=
  ⟨predecessor, successor, clampProbability probability⟩

/-- The production that always fires. -/
def certain (predecessor successor : Word) : Production :=
  clamped predecessor successor 1

/-- The number of branches that the successor begins. -/
def branchCount (production : Production) : Nat :=
  production.successor.branchCount

/-- Whether the predecessor stands at the beginning of a word.  An empty
predecessor stands nowhere. -/
def applies (word : Word) (production : Production) : Bool :=
  production.predecessor ≠ [] && production.predecessor.isPrefixOf word

/-- Decide whether the production fires.  A certain production draws nothing;
every other one draws one number. -/
def fires (production : Production) : Drawing Bool :=
  if production.probability ≥ 1 then
    pure true
  else do
    let drawn ← Drawing.unit
    pure (decide (drawn < production.probability))

/-- The production that has the chance to fire at the beginning of a word. -/
def candidate? (productions : List Production) (word : Word) : Option Production :=
  productions.find? (applies word)

end Production

/-! ## Reading productions -/

/-- A side of the equals sign. -/
inductive Side where
  | predecessor
  | successor
  deriving DecidableEq, Inhabited, Repr

/-- Why a line is not a production. -/
inductive RuleError where
  | missingSeparator
  /-- Nothing precedes the equals sign. -/
  | emptyPredecessor
  /-- Nothing stands between the equals sign and the comma or the end. -/
  | emptySuccessor
  /-- A side has a character that no production may have. -/
  | invalidSymbol (symbol : Symbol) (side : Side)
  | invalidProbability (text : Text)
  deriving DecidableEq, Inhabited, Repr

/-- The side as messages call it. -/
def Side.name : Side → String
  | predecessor => "predecessor"
  | successor => "successor"

/-- The text of an error.  What the line has in the wrong place is quoted. -/
def RuleError.message : RuleError → String
  | missingSeparator => "missing '=' between predecessor and successor"
  | emptyPredecessor => "empty predecessor"
  | emptySuccessor => "empty successor"
  | invalidSymbol symbol side =>
      "invalid symbol " ++ String.ofList (Text.quoteChar symbol) ++ " in " ++ side.name
  | invalidProbability text =>
      "invalid probability " ++ String.ofList (Text.quote text)

namespace Production

/-- The symbols that turn the heading. -/
def turningSymbols : List Symbol := ['+', '-', '/', '\\', '&', '^']

/-- Whether a symbol may occur in a production: the capital letters of ASCII,
the turning symbols and the brackets. -/
def isAdmissible (symbol : Symbol) : Bool :=
  symbol.isUpper || turningSymbols.contains symbol || Word.isBracket symbol

/-- Complain about the first symbol of a side that no production may have. -/
def checkSide (side : Side) (word : Word) : Except RuleError Unit :=
  match word.find? fun symbol => !isAdmissible symbol with
  | some symbol => throw (.invalidSymbol symbol side)
  | none => pure ()

/-- Read the text after the comma; without a comma the production is certain. -/
def readProbability : Option Text → Except RuleError Float32
  | none => pure 1
  | some text =>
      match Text.Numeral.read? text with
      | none => throw (.invalidProbability text)
      | some numeral => pure numeral.value

/-- Read one line.  Of several faults, the one examined first is reported. -/
def read (line : Text) : Except RuleError Production := do
  let some (predecessor, rest) := Text.splitFirst? '=' (Text.compact line)
    | throw .missingSeparator
  let (successor, probabilityText) :=
    match Text.splitFirst? ',' rest with
    | some (successor, text) => (successor, some text)
    | none => (rest, none)
  if predecessor = [] then
    throw .emptyPredecessor
  if successor = [] then
    throw .emptySuccessor
  checkSide .predecessor predecessor
  checkSide .successor successor
  let probability ← readProbability probabilityText
  pure (clamped predecessor successor probability)

end Production

end Arbor
