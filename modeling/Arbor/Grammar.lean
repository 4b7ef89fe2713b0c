import Arbor.Production
import Arbor.Text.Basic

/-!
# Grammars in text form

A list of productions is written with one production on a line.  Blank lines are
skipped; a line that is not a production is left out and reported with its
number.  A grammar file begins with one more line, the word that derivations
start from.
-/

namespace Arbor

/-- A line that is not a production. -/
structure Rejection where
  /-- The number of the line, counted from one. -/
  number : Nat
  line : Text
  error : RuleError
  deriving DecidableEq, Inhabited, Repr

/-- The warning about a line: the line itself between quotation marks, and its fault. -/
def Rejection.message (rejection : Rejection) : String :=
  "skipping grammar line " ++ String.ofList (Text.quote rejection.line) ++ ": " ++
    rejection.error.message

/-- What a line of a list of productions contributes. -/
inductive LineReading where
  | blank
  | accepted (production : Production)
  | rejected (error : RuleError)
  deriving DecidableEq, Inhabited, Repr

/-- Read one line.  A line of blank characters alone is no fault. -/
def LineReading.ofLine (line : Text) : LineReading :=
  if line.all Text.isBlank then
    blank
  else
    match Production.read line with
    | .ok production => accepted production
    | .error error => rejected error

/-- The production of a line that has one. -/
def LineReading.production? : LineReading → Option Production
  | accepted production => some production
  | _ => none

/-- The fault of a line that has one. -/
def LineReading.error? : LineReading → Option RuleError
  | rejected error => some error
  | _ => none

/-- The productions of a text and the lines that are not productions, both in
the order of the lines. -/
structure RuleList where
  productions : List Production
  rejections : List Rejection
  deriving DecidableEq, Inhabited, Repr

namespace RuleList

/-- Read lines, the first of which has the given number. -/
def ofLines (firstNumber : Nat) (lines : List Text) : RuleList where
  productions := lines.filterMap fun line => (LineReading.ofLine line).production?
  rejections := (lines.zipIdx firstNumber).filterMap fun (line, number) =>
    (LineReading.ofLine line).error?.map fun error => ⟨number, line, error⟩

/-- Read a text of productions whose lines are numbered from one. -/
def read (text : Text) : RuleList :=
  ofLines 1 (Text.lines text)

end RuleList

/-- A word to start from and the productions that derive from it. -/
structure Grammar where
  initiator : Word
  rules : RuleList
  deriving DecidableEq, Inhabited, Repr

/-- Read a grammar file.  The first line gives the word to start from, without
its blank characters, equals signs and commas and enclosed in brackets; the
lines of productions are numbered from the second line on. -/
def Grammar.read (text : Text) : Grammar where
  initiator := Word.enclosed
    ((Text.compact (Text.firstLine text)).filter fun char => char != '=' && char != ',')
  rules := RuleList.read (Text.afterFirstLine text)

end Arbor
