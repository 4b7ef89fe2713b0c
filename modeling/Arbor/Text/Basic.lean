/-!
# Texts

A text is a list of characters.  The blank ones are those of the Unicode
property `White_Space`.

A text is cut at the first occurrence of a separator: the part before it has no
separator, and the two parts together with the separator make up the text.  It
is also cut into lines at its line feeds.  A carriage return before a line feed
belongs to the end of the line; one at the very end of the text is a character
of its last line.  A text that ends with a line feed has no further, empty line.
-/

namespace Arbor

/-- A text, character by character. -/
abbrev Text := List Char

namespace Text

/-- Whether a character has the property `White_Space`. -/
def isBlank (char : Char) : Bool :=
  let point := char.toNat
  (0x9 ≤ point && point ≤ 0xD) || point == 0x20 || point == 0x85 || point == 0xA0 ||
    point == 0x1680 || (0x2000 ≤ point && point ≤ 0x200A) || point == 0x2028 ||
    point == 0x2029 || point == 0x202F || point == 0x205F || point == 0x3000

/-- The text without its blank characters. -/
def compact (text : Text) : Text :=
  text.filter fun char => !isBlank char

@[simp] theorem compact_append (left right : Text) :
    compact (left ++ right) = compact left ++ compact right := by
  simp [compact]

/-! ## Cutting at a separator -/

/-- What precedes the first occurrence of a separator and what follows it, if it
occurs. -/
def splitFirst? (separator : Char) : Text → Option (Text × Text)
  | [] => none
  | char :: rest =>
      if char = separator then
        some ([], rest)
      else
        (splitFirst? separator rest).map fun (before, after) => (char :: before, after)

/-- A text cannot be cut exactly if the separator does not occur. -/
theorem splitFirst?_eq_none_iff {separator : Char} {text : Text} :
    splitFirst? separator text = none ↔ separator ∉ text := by
  induction text with
  | nil => simp [splitFirst?]
  | cons char rest ih =>
      by_cases equal : char = separator
      · simp [splitFirst?, equal]
      · simp [splitFirst?, equal, ih, Ne.symm equal]

/-- The parts of a cut are the two sides of the first separator. -/
theorem splitFirst?_eq_some_iff {separator : Char} {text before after : Text} :
    splitFirst? separator text = some (before, after) ↔
      text = before ++ separator :: after ∧ separator ∉ before := by
  induction text generalizing before with
  | nil => simp [splitFirst?]
  | cons char rest ih =>
      by_cases equal : char = separator
      · subst equal
        cases before with
        | nil => simp [splitFirst?]
        | cons head tail =>
            simp only [splitFirst?, if_true, Option.some.injEq, Prod.mk.injEq]
            constructor
            · rintro ⟨absurdity, -⟩
              exact absurd absurdity (by simp)
            · rintro ⟨shape, absent⟩
              simp only [List.cons_append, List.cons.injEq] at shape
              simp [shape.1] at absent
      · cases before with
        | nil => simp [splitFirst?, equal]
        | cons head tail =>
            simp only [splitFirst?, if_neg equal, Option.map_eq_some_iff, Prod.mk.injEq,
              List.cons.injEq, List.cons_append, List.mem_cons, not_or]
            constructor
            · rintro ⟨⟨front, back⟩, found, ⟨rfl, rfl⟩, rfl⟩
              obtain ⟨shape, absent⟩ := ih.1 found
              exact ⟨⟨rfl, shape⟩, Ne.symm equal, absent⟩
            · rintro ⟨⟨rfl, shape⟩, -, absent⟩
              exact ⟨(tail, after), ih.2 ⟨shape, absent⟩, ⟨rfl, rfl⟩, rfl⟩

/-! ## Lines -/

/-- The pieces of a text between its line feeds.  There is always one more piece
than there are line feeds. -/
def pieces : Text → List Text
  | [] => [[]]
  | char :: rest =>
      if char = '\n' then
        [] :: pieces rest
      else
        match pieces rest with
        | [] => [[char]]
        | piece :: others => (char :: piece) :: others

/-- A piece without the carriage return that ends it, if one does. -/
def dropReturn (piece : Text) : Text :=
  if piece.getLast? = some '\r' then piece.dropLast else piece

/-- The lines of a text: all its pieces but the last, each without a final
carriage return, and the last piece as it is unless it is empty. -/
def lines (text : Text) : List Text :=
  (pieces text).dropLast.map dropReturn ++
    (pieces text).getLast?.toList.filter fun piece => !piece.isEmpty

/-- The text up to its first line feed. -/
def firstLine (text : Text) : Text :=
  text.takeWhile fun char => char != '\n'

/-- The text after its first line feed; empty where there is none. -/
def afterFirstLine (text : Text) : Text :=
  (text.dropWhile fun char => char != '\n').tail

@[simp] theorem pieces_ne_nil (text : Text) : pieces text ≠ [] := by
  cases text with
  | nil => simp [pieces]
  | cons char rest =>
      by_cases h : char = '\n'
      · simp [pieces, h]
      · cases shape : pieces rest <;> simp [pieces, h, shape]

/-- Joining two texts by a line feed joins their lists of pieces. -/
theorem pieces_append_lineFeed (left right : Text) :
    pieces (left ++ '\n' :: right) = pieces left ++ pieces right := by
  induction left with
  | nil => simp [pieces]
  | cons char rest ih =>
      by_cases h : char = '\n'
      · simp [pieces, h, ih]
      · cases shape : pieces rest with
        | nil => exact absurd shape (pieces_ne_nil rest)
        | cons piece others => simp [pieces, h, ih, shape]

end Text

end Arbor
