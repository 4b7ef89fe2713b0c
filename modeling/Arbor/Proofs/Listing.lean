import Arbor.Species.Library
import Mathlib.Data.List.Basic

/-!
# Texts that list productions

Every line of a text is blank, or it is a production, or it is reported with its number.  So
nothing is lost or made up where texts are joined: at most an empty line comes in between, and
that is blank.  How lines end does not matter either, because a carriage return is blank too.
-/

namespace Arbor

/-! ## Lines of texts -/

namespace Text

/-- The text is made up of the lines.  A line ends with a line feed, before which there may be
a carriage return; the last one may end with the text instead, unless it is empty. -/
inductive ConsistsOf : Text → List Text → Prop where
  | nil : ConsistsOf [] []
  | last {line : Text} : line ≠ [] → '\n' ∉ line → ConsistsOf line [line]
  | feed {line rest : Text} {others : List Text} :
      '\n' ∉ line → line.getLast? ≠ some '\r' → ConsistsOf rest others →
      ConsistsOf (line ++ '\n' :: rest) (line :: others)
  | returnFeed {line rest : Text} {others : List Text} :
      '\n' ∉ line → ConsistsOf rest others →
      ConsistsOf (line ++ '\r' :: '\n' :: rest) (line :: others)

/-- The text with a carriage return before every line feed. -/
def withReturns (text : Text) : Text :=
  text.flatMap fun char => if char = '\n' then ['\r', '\n'] else [char]

variable {text line rest : Text} {parts : List Text}

theorem pieces_of_noFeed (noFeed : '\n' ∉ line) : pieces line = [line] := by
  induction line with
  | nil => rfl
  | cons char rest ih =>
      rw [List.mem_cons, not_or] at noFeed
      simp [pieces, Ne.symm noFeed.1, ih noFeed.2]

theorem length_pieces (text : Text) : (pieces text).length = text.count '\n' + 1 := by
  induction text with
  | nil => rfl
  | cons char rest ih =>
      by_cases feed : char = '\n'
      · simp [pieces, feed, ih]
      · cases shape : pieces rest with
        | nil => exact absurd shape (pieces_ne_nil rest)
        | cons piece others => simpa [pieces, feed, shape] using ih

@[simp] theorem dropReturn_concat (line : Text) : dropReturn (line ++ ['\r']) = line := by
  simp [dropReturn]

theorem dropReturn_eq_or (piece : Text) :
    dropReturn piece = piece ∨ piece = dropReturn piece ++ ['\r'] := by
  by_cases returns : piece.getLast? = some '\r'
  · rcases List.getLast?_eq_some_iff.mp returns with ⟨line, rfl⟩
    exact .inr (by rw [dropReturn_concat])
  · exact .inl (if_neg returns)

/-- Before the line feed, the text on the left gives all its pieces as lines. -/
theorem lines_append_lineFeed (left right : Text) :
    lines (left ++ '\n' :: right) = (pieces left).map dropReturn ++ lines right := by
  have nonempty := pieces_ne_nil right
  simp only [lines, pieces_append_lineFeed]
  rw [List.dropLast_append_of_ne_nil nonempty, List.getLast?_append_of_ne_nil _ nonempty,
    List.map_append, List.append_assoc]

theorem lines_of_noFeed (noFeed : '\n' ∉ line) (nonempty : line ≠ []) : lines line = [line] := by
  simp [lines, pieces_of_noFeed noFeed, nonempty]

theorem lines_append_of_noFeed (noFeed : '\n' ∉ line) (rest : Text) :
    lines (line ++ '\n' :: rest) = dropReturn line :: lines rest := by
  rw [lines_append_lineFeed, pieces_of_noFeed noFeed]
  rfl

theorem ConsistsOf.lines_eq (consists : ConsistsOf text parts) : lines text = parts := by
  induction consists with
  | nil => rfl
  | last nonempty noFeed => exact lines_of_noFeed noFeed nonempty
  | feed noFeed noReturn _ ih =>
      rw [lines_append_of_noFeed noFeed, ih, dropReturn, if_neg noReturn]
  | @returnFeed line rest _ noFeed _ ih =>
      have noFeedToo : '\n' ∉ line ++ ['\r'] := by simpa using noFeed
      rw [List.append_cons, lines_append_of_noFeed noFeedToo, ih, dropReturn_concat]

theorem consistsOf_lines (text : Text) : ConsistsOf text (lines text) := by
  cases cut : splitFirst? '\n' text with
  | none =>
      have noFeed := splitFirst?_eq_none_iff.mp cut
      by_cases empty : text = []
      · rw [empty]
        exact .nil
      · rw [lines_of_noFeed noFeed empty]
        exact .last empty noFeed
  | some parts =>
      rcases parts with ⟨piece, rest⟩
      rcases splitFirst?_eq_some_iff.mp cut with ⟨shape, noFeed⟩
      have shorter : rest.length < text.length := by
        rw [shape, List.length_append, List.length_cons]
        omega
      have later := consistsOf_lines rest
      rw [shape, lines_append_of_noFeed noFeed]
      by_cases returns : piece.getLast? = some '\r'
      · rcases List.getLast?_eq_some_iff.mp returns with ⟨line, rfl⟩
        rw [dropReturn_concat, ← List.append_cons]
        exact .returnFeed (fun member => noFeed (List.mem_append_left _ member)) later
      · rw [dropReturn, if_neg returns]
        exact .feed noFeed returns later
termination_by text.length

/-- There is one way to see a text as lines. -/
theorem consistsOf_iff : ConsistsOf text parts ↔ lines text = parts := by
  constructor
  · exact ConsistsOf.lines_eq
  · rintro rfl
    exact consistsOf_lines text

/-! ## Carriage returns -/

theorem withReturns_append (left right : Text) :
    withReturns (left ++ right) = withReturns left ++ withReturns right :=
  List.flatMap_append

theorem withReturns_of_noFeed (noFeed : '\n' ∉ line) : withReturns line = line := by
  induction line with
  | nil => rfl
  | cons char rest ih =>
      rw [List.mem_cons, not_or] at noFeed
      rw [withReturns, List.flatMap_cons, if_neg (Ne.symm noFeed.1)]
      exact congrArg (char :: ·) (ih noFeed.2)

theorem withReturns_append_of_noFeed (noFeed : '\n' ∉ line) (rest : Text) :
    withReturns (line ++ '\n' :: rest) = line ++ '\r' :: '\n' :: withReturns rest := by
  rw [withReturns_append, withReturns_of_noFeed noFeed]
  rfl

/-- The lines stay the same when their ends get carriage returns. -/
theorem ConsistsOf.withReturns (consists : ConsistsOf text parts) (noReturn : '\r' ∉ text) :
    ConsistsOf text.withReturns parts := by
  induction consists with
  | nil => exact .nil
  | last nonempty noFeed =>
      rw [withReturns_of_noFeed noFeed]
      exact .last nonempty noFeed
  | feed noFeed _ _ ih =>
      rw [withReturns_append_of_noFeed noFeed]
      exact .returnFeed noFeed (ih fun member => noReturn (by simp [member]))
  | returnFeed _ _ _ => exact absurd (by simp) noReturn

theorem lines_withReturns (noReturn : '\r' ∉ text) : lines (withReturns text) = lines text :=
  ((consistsOf_lines text).withReturns noReturn).lines_eq

theorem compact_concat_return (line : Text) : compact (line ++ ['\r']) = compact line := by
  rw [compact_append]
  exact List.append_nil _

theorem bne_of_noFeed (noFeed : '\n' ∉ line) : ∀ char ∈ line, (char != '\n') = true := by
  intro char member
  exact bne_iff_ne.mpr (ne_of_mem_of_not_mem member noFeed)

theorem firstLine_append_of_noFeed (noFeed : '\n' ∉ line) (rest : Text) :
    firstLine (line ++ '\n' :: rest) = line := by
  rw [firstLine, List.takeWhile_append_of_pos (bne_of_noFeed noFeed)]
  exact List.append_nil _

theorem afterFirstLine_append_of_noFeed (noFeed : '\n' ∉ line) (rest : Text) :
    afterFirstLine (line ++ '\n' :: rest) = rest := by
  rw [afterFirstLine, List.dropWhile_append_of_pos (bne_of_noFeed noFeed)]
  rfl

end Text

/-! ## What a line contributes -/

namespace LineReading

/-- A line has one of three readings. -/
inductive Reads (line : Text) : LineReading → Prop where
  | blank : (∀ char ∈ line, Text.isBlank char = true) → Reads line blank
  | accepted {production : Production} :
      (∃ char ∈ line, Text.isBlank char = false) → Production.read line = .ok production →
      Reads line (accepted production)
  | rejected {error : RuleError} :
      (∃ char ∈ line, Text.isBlank char = false) → Production.read line = .error error →
      Reads line (rejected error)

variable {line : Text} {reading : LineReading}

theorem reads_ofLine (line : Text) : Reads line (ofLine line) := by
  rw [ofLine]
  by_cases allBlank : line.all Text.isBlank = true
  · rw [if_pos allBlank]
    exact .blank (List.all_eq_true.mp allBlank)
  · have visible : ∃ char ∈ line, Text.isBlank char = false := by
      simpa using allBlank
    rw [if_neg allBlank]
    cases result : Production.read line with
    | ok production => exact .accepted visible result
    | error error => exact .rejected visible result

/-- A line has no reading but the one that the reader gives it. -/
theorem reads_iff : Reads line reading ↔ ofLine line = reading := by
  constructor
  · intro reads
    -- Blank lines have no visible character, and a line is read with one result.
    cases reads with
    | blank allBlank => rw [ofLine, if_pos (List.all_eq_true.mpr allBlank)]
    | accepted visible result | rejected visible result =>
        have notBlank : ¬ line.all Text.isBlank = true := by simpa using visible
        rw [ofLine, if_neg notBlank, result]
  · rintro rfl
    exact reads_ofLine line

/-- What a line contributes does not depend on its blank characters. -/
theorem ofLine_congr {left right : Text} (same : Text.compact left = Text.compact right) :
    ofLine left = ofLine right := by
  have blank_iff : ∀ text : Text, text.all Text.isBlank = true ↔ Text.compact text = [] := by
    intro text
    simp [Text.compact, List.filter_eq_nil_iff]
  have readSame : Production.read left = Production.read right := by
    rw [Production.read, same, ← Production.read]
  simp only [ofLine, blank_iff, same, readSame]

theorem ofLine_comp_dropReturn : ofLine ∘ Text.dropReturn = ofLine := by
  funext piece
  apply ofLine_congr
  cases Text.dropReturn_eq_or piece with
  | inl same => rw [same]
  | inr returned => rw [returned, Text.compact_concat_return, Text.dropReturn_concat]

/-- The productions among readings. -/
def productions (readings : List LineReading) : List Production :=
  readings.filterMap production?

/-- The errors among readings, with their numbers. -/
def faultsFrom (number : Nat) (readings : List LineReading) : List (Nat × RuleError) :=
  (readings.zipIdx number).filterMap fun (reading, number) =>
    reading.error?.map fun error => (number, error)

theorem productions_append (left right : List LineReading) :
    productions (left ++ right) = productions left ++ productions right :=
  List.filterMap_append

theorem faultsFrom_append (number : Nat) (left right : List LineReading) :
    faultsFrom number (left ++ right) =
      faultsFrom number left ++ faultsFrom (number + left.length) right := by
  rw [faultsFrom, List.zipIdx_append, List.filterMap_append]
  rfl

theorem faultsFrom_add (offset : Nat) (readings : List LineReading) :
    (number : Nat) →
      faultsFrom (number + offset) readings =
        (faultsFrom number readings).map fun fault => (fault.1 + offset, fault.2) := by
  induction readings with
  | nil =>
      intro number
      rfl
  | cons reading rest ih =>
      intro number
      have later := ih (number + 1)
      rw [Nat.add_right_comm] at later
      cases reading with
      | blank | accepted _ => exact later
      | rejected error => exact congrArg ((number + offset, error) :: ·) later

theorem productions_replicate_blank (count : Nat) :
    productions (List.replicate count blank) = [] := by
  simp [productions, production?]

theorem faultsFrom_replicate_blank (number count : Nat) :
    faultsFrom number (List.replicate count blank) = [] := by
  rw [faultsFrom, List.filterMap_eq_nil_iff]
  rintro ⟨reading, position⟩ member
  have same : reading = blank := List.eq_of_mem_replicate (List.fst_mem_of_mem_zipIdx member)
  rw [same]
  rfl

end LineReading

namespace Text

open LineReading (ofLine)

/-- The pieces of a text are read like its lines.  There may be one more piece, which is
empty. -/
theorem map_ofLine_pieces (text : Text) :
    ∃ extra, (pieces text).map ofLine =
      (lines text).map ofLine ++ List.replicate extra .blank := by
  rcases List.eq_nil_or_concat (pieces text) with none | ⟨others, last, shape⟩
  · exact absurd none (pieces_ne_nil text)
  · rw [lines, shape]
    cases last with
    | nil => exact ⟨1, by simp [LineReading.ofLine_comp_dropReturn, LineReading.ofLine]⟩
    | cons char rest => exact ⟨0, by simp [LineReading.ofLine_comp_dropReturn]⟩

/-- Where texts are joined by a line feed, at most a blank line comes in between. -/
theorem map_ofLine_lines_append (left right : Text) :
    ∃ extra, (lines (left ++ '\n' :: right)).map ofLine =
        (lines left).map ofLine ++ List.replicate extra .blank ++ (lines right).map ofLine ∧
      (lines left).length + extra = left.count '\n' + 1 := by
  rcases map_ofLine_pieces left with ⟨extra, readings⟩
  refine ⟨extra, ?_, ?_⟩
  · rw [lines_append_lineFeed, List.map_append, List.map_map,
      LineReading.ofLine_comp_dropReturn, readings]
  · have counted := congrArg List.length readings
    simpa [length_pieces] using counted.symm

end Text

/-! ## What a text contributes -/

namespace RuleList

/-- The lines, numbered from the given number, contribute these productions and rejections,
each line its own and in the order of the lines. -/
inductive Lists : Nat → List Text → RuleList → Prop where
  | nil {number : Nat} : Lists number [] ⟨[], []⟩
  | blank {number : Nat} {line : Text} {others : List Text} {rules : RuleList} :
      LineReading.Reads line .blank → Lists (number + 1) others rules →
      Lists number (line :: others) rules
  | accepted {number : Nat} {line : Text} {others : List Text} {rules : RuleList}
      {production : Production} :
      LineReading.Reads line (.accepted production) → Lists (number + 1) others rules →
      Lists number (line :: others) ⟨production :: rules.productions, rules.rejections⟩
  | rejected {number : Nat} {line : Text} {others : List Text} {rules : RuleList}
      {error : RuleError} :
      LineReading.Reads line (.rejected error) → Lists (number + 1) others rules →
      Lists number (line :: others)
        ⟨rules.productions, ⟨number, line, error⟩ :: rules.rejections⟩

/-- The numbers of the rejected lines, with their errors. -/
def faults (rules : RuleList) : List (Nat × RuleError) :=
  rules.rejections.map fun rejection => (rejection.number, rejection.error)

theorem ofLines_cons (number : Nat) (line : Text) (others : List Text) :
    ofLines number (line :: others) =
      let later := ofLines (number + 1) others
      match LineReading.ofLine line with
      | .blank => later
      | .accepted production => ⟨production :: later.productions, later.rejections⟩
      | .rejected error => ⟨later.productions, ⟨number, line, error⟩ :: later.rejections⟩ := by
  cases reading : LineReading.ofLine line <;>
    simp [ofLines, reading, LineReading.production?, LineReading.error?]

theorem lists_ofLines (lines : List Text) :
    (number : Nat) → Lists number lines (ofLines number lines) := by
  induction lines with
  | nil =>
      intro number
      exact .nil
  | cons line others ih =>
      intro number
      have reads := LineReading.reads_ofLine line
      rw [ofLines_cons]
      cases reading : LineReading.ofLine line with
      | blank => exact .blank (reading ▸ reads) (ih _)
      | accepted production => exact .accepted (reading ▸ reads) (ih _)
      | rejected error => exact .rejected (reading ▸ reads) (ih _)

/-- Nothing else can be listed by lines than what is read from them. -/
theorem lists_iff {number : Nat} {lines : List Text} {rules : RuleList} :
    Lists number lines rules ↔ ofLines number lines = rules := by
  constructor
  · intro lists
    induction lists with
    | nil => rfl
    | blank reads _ ih | accepted reads _ ih | rejected reads _ ih =>
        rw [ofLines_cons, LineReading.reads_iff.mp reads, ih]
  · rintro rfl
    exact lists_ofLines lines number

theorem productions_read (text : Text) :
    (read text).productions =
      LineReading.productions ((Text.lines text).map LineReading.ofLine) := by
  rw [LineReading.productions, List.filterMap_map]
  rfl

theorem faults_read (text : Text) :
    (read text).faults =
      LineReading.faultsFrom 1 ((Text.lines text).map LineReading.ofLine) := by
  rw [faults, read, ofLines, LineReading.faultsFrom, List.zipIdx_map, List.filterMap_map,
    List.map_filterMap]
  congr 1
  funext numbered
  simp [Function.comp_def]

theorem productions_read_append (left right : Text) :
    (read (left ++ '\n' :: right)).productions =
      (read left).productions ++ (read right).productions := by
  rcases Text.map_ofLine_lines_append left right with ⟨extra, readings, -⟩
  simp only [productions_read, readings, LineReading.productions_append,
    LineReading.productions_replicate_blank, List.append_nil]

/-- The rejected lines of the right text have moved by as many lines as the left text has. -/
theorem faults_read_append (left right : Text) :
    (read (left ++ '\n' :: right)).faults =
      (read left).faults ++ (read right).faults.map fun fault =>
        (fault.1 + (left.count '\n' + 1), fault.2) := by
  rcases Text.map_ofLine_lines_append left right with ⟨extra, readings, counted⟩
  rw [faults_read, readings, LineReading.faultsFrom_append, LineReading.faultsFrom_append,
    LineReading.faultsFrom_replicate_blank, List.append_nil, List.length_append, List.length_map,
    List.length_replicate, counted, LineReading.faultsFrom_add, ← faults_read, ← faults_read]

theorem read_withReturns {text : Text} (noReturn : '\r' ∉ text) :
    read (Text.withReturns text) = read text := by
  rw [read, Text.lines_withReturns noReturn, ← read]

end RuleList

/-- Carriage returns change neither the word to start from nor the productions. -/
theorem Grammar.read_withReturns {text : Text} (noReturn : '\r' ∉ text) :
    read (Text.withReturns text) = read text := by
  cases cut : Text.splitFirst? '\n' text with
  | none => rw [Text.withReturns_of_noFeed (Text.splitFirst?_eq_none_iff.mp cut)]
  | some parts =>
      rcases parts with ⟨line, rest⟩
      rcases Text.splitFirst?_eq_some_iff.mp cut with ⟨rfl, noFeed⟩
      have noFeedToo : '\n' ∉ line ++ ['\r'] := by simpa using noFeed
      have noReturnLater : '\r' ∉ rest := fun member => noReturn (by simp [member])
      simp only [read]
      rw [Text.withReturns_append_of_noFeed noFeed, Text.firstLine_append_of_noFeed noFeed,
        Text.afterFirstLine_append_of_noFeed noFeed, List.append_cons,
        Text.firstLine_append_of_noFeed noFeedToo, Text.afterFirstLine_append_of_noFeed noFeedToo,
        Text.compact_concat_return, RuleList.read_withReturns noReturnLater]

/-- To read two texts one after the other adds what to read them joined adds. -/
theorem Species.readProductions_append (species : Species) (left right : Text) :
    ((species.readProductions left).1.readProductions right).1 =
      (species.readProductions (left ++ '\n' :: right)).1 := by
  simp only [readProductions, withProductions, RuleList.productions_read_append,
    List.append_assoc]

namespace RuleList

/-- Every line of a text has one reading and contributes in its order what that says, and
nothing else comes of the text.  Texts can be read one after the other or joined by a line
feed, and the line feeds of a text may get carriage returns. -/
theorem read_faithful (species : Species) (text left right : Text) :
    let joined := left ++ '\n' :: right
    (∀ line, ∃! reading, LineReading.Reads line reading) ∧
    (∀ rules, read text = rules ↔
      ∃ lines, Text.ConsistsOf text lines ∧ Lists 1 lines rules) ∧
    ((read joined).productions = (read left).productions ++ (read right).productions ∧
      (read joined).faults = (read left).faults ++ (read right).faults.map (fun fault =>
        (fault.1 + (left.count '\n' + 1), fault.2)) ∧
      ((species.readProductions left).1.readProductions right).1 =
        (species.readProductions joined).1 ∧
      (species.readProductions left).2.productions.length +
          ((species.readProductions left).1.readProductions right).2.productions.length =
        (species.readProductions joined).2.productions.length) ∧
    ('\r' ∉ text →
      read (Text.withReturns text) = read text ∧
        Grammar.read (Text.withReturns text) = Grammar.read text) := by
  intro joined
  refine ⟨?_, ?_, ⟨?_, ?_, ?_, ?_⟩, ?_⟩
  · intro line
    refine ⟨LineReading.ofLine line, LineReading.reads_ofLine line, ?_⟩
    intro reading reads
    exact (LineReading.reads_iff.mp reads).symm
  · intro rules
    simp only [Text.consistsOf_iff, exists_eq_left', lists_iff]
    rfl
  · exact productions_read_append left right
  · exact faults_read_append left right
  · exact species.readProductions_append left right
  · have total := congrArg List.length (productions_read_append left right)
    exact List.length_append.symm.trans total.symm
  · intro noReturn
    exact ⟨read_withReturns noReturn, Grammar.read_withReturns noReturn⟩

/-- A grammar with a blank line and two lines that are not productions, the first of which
gives the word to start from. -/
theorem read_faithful_grammar :
    let text : Text := "FA,\nA=[+FA]\n\nnonsense".toList
    '\r' ∉ text ∧
      (Text.withReturns text).count '\r' = 3 ∧
      read (Text.withReturns text) = read text ∧
      Grammar.read (Text.withReturns text) = Grammar.read text ∧
      (read text).faults = [(1, .missingSeparator), (4, .missingSeparator)] ∧
      (Grammar.read text).initiator = "[FA]".toList := by
  have noReturn : '\r' ∉ "FA,\nA=[+FA]\n\nnonsense".toList := by decide
  have faithful := read_faithful Species.plain _ [] [] |>.2.2.2 noReturn
  exact ⟨noReturn, by decide, faithful.1, faithful.2, by decide +kernel, by decide +kernel⟩

end RuleList

end Arbor
