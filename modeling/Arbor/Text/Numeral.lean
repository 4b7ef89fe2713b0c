import Arbor.Text.Basic

/-!
# Numerals

A numeral is an optional sign followed by `inf`, `infinity` or `nan` in either
case, or by decimal digits with an optional point and an optional exponent.  At
least one digit stands beside the point, and only ASCII digits count.  The value
of a decimal numeral is the nearest single-precision number.
-/

namespace Arbor.Text

/-- What a numeral denotes before it is rounded. -/
inductive Numeral where
  | undefined
  | infinite (negative : Bool)
  /-- The number `mantissa * 10 ^ exponent`, or its opposite. -/
  | decimal (negative : Bool) (mantissa : Nat) (exponent : Int)
  deriving DecidableEq, Inhabited, Repr

namespace Numeral

/-- The number that decimal digits stand for, the most significant one first. -/
def ofDigits (digits : Text) : Nat :=
  digits.foldl (fun value digit => 10 * value + (digit.toNat - '0'.toNat)) 0

/-- Separate an optional sign; the flag says whether it is a minus. -/
def splitSign : Text → Bool × Text
  | '-' :: rest => (true, rest)
  | '+' :: rest => (false, rest)
  | text => (false, text)

/-- Read an optional exponent that takes up the whole text. -/
def readExponent? : Text → Option Int
  | [] => some 0
  | mark :: rest =>
      let (negative, digits) := splitSign rest
      if mark.toLower = 'e' ∧ digits ≠ [] ∧ digits.all Char.isDigit then
        some (if negative then -(ofDigits digits) else ofDigits digits)
      else
        none

/-- Read digits with an optional point and an optional exponent. -/
def readDecimal? (negative : Bool) (text : Text) : Option Numeral :=
  let whole := text.takeWhile Char.isDigit
  let afterWhole := text.dropWhile Char.isDigit
  let (fraction, afterFraction) :=
    match afterWhole with
    | '.' :: rest => (rest.takeWhile Char.isDigit, rest.dropWhile Char.isDigit)
    | rest => ([], rest)
  if whole = [] ∧ fraction = [] then
    none
  else
    (readExponent? afterFraction).map fun exponent =>
      .decimal negative (ofDigits (whole ++ fraction)) (exponent - fraction.length)

/-- Read a numeral that takes up the whole text. -/
def read? (text : Text) : Option Numeral :=
  let (negative, magnitude) := splitSign text
  let lower := magnitude.map Char.toLower
  if lower = ['n', 'a', 'n'] then
    some .undefined
  else if lower = ['i', 'n', 'f'] ∨ lower = ['i', 'n', 'f', 'i', 'n', 'i', 't', 'y'] then
    some (.infinite negative)
  else
    readDecimal? negative magnitude

/-- The positive infinity. -/
def infinity : Float32 := 1 / 0

/-- The nearest single-precision number to `mantissa * 10 ^ exponent`.  Numbers
that are far beyond the finite ones or far below the least positive one are
recognised by their number of digits. -/
def nearest (mantissa : Nat) (exponent : Int) : Float32 :=
  let magnitude := (Nat.toDigits 10 mantissa).length + exponent
  if mantissa = 0 ∨ magnitude < -50 then
    0
  else if magnitude > 50 then
    infinity
  else
    Float32.ofScientific mantissa (exponent < 0) exponent.natAbs

/-- The single-precision number that a numeral stands for. -/
def value : Numeral → Float32
  | undefined => 0 / 0
  | infinite negative => if negative then -infinity else infinity
  | decimal negative mantissa exponent =>
      if negative then -(nearest mantissa exponent) else nearest mantissa exponent

end Numeral

end Arbor.Text
