import Arbor.Production
import Arbor.Proofs.Order

/-!
# How productions are spelled

A production is spelled by its two sides and the text of its probability, if there is one.
The reader accepts exactly the lines that spell a production.  Any other line has faults, each
with a condition of its own, and the first of them in a fixed order is reported.
-/

namespace Arbor

/-- What is written on a line for a production. -/
@[ext] structure Spelling where
  predecessor : Word
  successor : Word
  /-- The text after the comma, if there is a comma. -/
  probability? : Option Text
  deriving DecidableEq, Repr

namespace Spelling

/-- The part of the line after the equals sign. -/
def rest (spelling : Spelling) : Text :=
  match spelling.probability? with
  | none => spelling.successor
  | some probability => spelling.successor ++ ',' :: probability

/-- The line that the parts make up. -/
def text (spelling : Spelling) : Text :=
  spelling.predecessor ++ '=' :: spelling.rest

/-- The part on one side of the equals sign. -/
def side (spelling : Spelling) : Side → Word
  | .predecessor => spelling.predecessor
  | .successor => spelling.successor

/-- The symbols that are allowed in a production. -/
def IsWritable (symbol : Symbol) : Prop :=
  ('A' ≤ symbol ∧ symbol ≤ 'Z') ∨ symbol ∈ ['+', '-', '/', '\\', '&', '^', '[', ']']

instance (symbol : Symbol) : Decidable (IsWritable symbol) :=
  inferInstanceAs (Decidable (_ ∨ _))

/-- The part may stand on a side of the equals sign. -/
structure IsSide (word : Word) : Prop where
  nonempty : word ≠ []
  writable : ∀ symbol ∈ word, IsWritable symbol

/-- The production that is spelled.  Without a probability it is certain. -/
inductive Denotes : Spelling → Production → Prop where
  | certain {predecessor successor : Word} :
      IsSide predecessor → IsSide successor →
      Denotes ⟨predecessor, successor, none⟩ ⟨predecessor, successor, 1⟩
  | uncertain {predecessor successor : Word} {text : Text} {numeral : Text.Numeral}
      {probability : Float32} :
      IsSide predecessor → IsSide successor →
      Text.Numeral.read? text = some numeral →
      Production.ClampsTo numeral.value probability →
      Denotes ⟨predecessor, successor, some text⟩ ⟨predecessor, successor, probability⟩

/-- The first equals sign of the text and the first comma after it cut the text into the parts
of the spelling. -/
structure Cuts (spelling : Spelling) (text : Text) : Prop where
  text_eq : spelling.text = text
  predecessor_noEquals : '=' ∉ spelling.predecessor
  successor_noComma : ',' ∉ spelling.successor

/-- What may be wrong with the parts of a line. -/
inductive HasFault (spelling : Spelling) : RuleError → Prop where
  | emptyPredecessor : spelling.predecessor = [] → HasFault spelling .emptyPredecessor
  | emptySuccessor : spelling.successor = [] → HasFault spelling .emptySuccessor
  | invalidSymbol {side : Side} {front back : Word} {symbol : Symbol} :
      spelling.side side = front ++ symbol :: back →
      (∀ earlier ∈ front, IsWritable earlier) → ¬ IsWritable symbol →
      HasFault spelling (.invalidSymbol symbol side)
  | invalidProbability {text : Text} :
      spelling.probability? = some text → Text.Numeral.read? text = none →
      HasFault spelling (.invalidProbability text)

end Spelling

namespace RuleError

/-- What may be wrong with a line whose blank characters have been removed. -/
inductive IsFaultOf (text : Text) : RuleError → Prop where
  | missingSeparator : '=' ∉ text → IsFaultOf text .missingSeparator
  | part {spelling : Spelling} {error : RuleError} :
      spelling.Cuts text → spelling.HasFault error → IsFaultOf text error

/-- The place of a fault in the order in which faults are reported. -/
def rank : RuleError → Nat
  | missingSeparator => 0
  | emptyPredecessor => 1
  | emptySuccessor => 2
  | invalidSymbol _ .predecessor => 3
  | invalidSymbol _ .successor => 4
  | invalidProbability _ => 5

end RuleError

/-! ## Cutting lines -/

namespace Spelling

variable {spelling other : Spelling} {text : Text} {production : Production}

theorem Cuts.splitFirst?_text (cuts : spelling.Cuts text) :
    Text.splitFirst? '=' text = some (spelling.predecessor, spelling.rest) :=
  Text.splitFirst?_eq_some_iff.mpr ⟨cuts.text_eq.symm, cuts.predecessor_noEquals⟩

theorem Cuts.splitFirst?_rest (cuts : spelling.Cuts text) :
    Text.splitFirst? ',' spelling.rest =
      spelling.probability?.map fun probability => (spelling.successor, probability) := by
  have noComma := cuts.successor_noComma
  unfold rest
  cases spelling.probability? with
  | none => exact Text.splitFirst?_eq_none_iff.mpr noComma
  | some probability => exact Text.splitFirst?_eq_some_iff.mpr ⟨rfl, noComma⟩

/-- There is only one way to cut a text. -/
theorem Cuts.unique (cuts : spelling.Cuts text) (otherCuts : other.Cuts text) :
    spelling = other := by
  have sides := cuts.splitFirst?_text.symm.trans otherCuts.splitFirst?_text
  obtain ⟨samePredecessor, sameRest⟩ := Prod.mk.inj (Option.some.inj sides)
  have parts := cuts.splitFirst?_rest
  rw [sameRest, otherCuts.splitFirst?_rest] at parts
  have sameProbability : spelling.probability? = other.probability? := by
    simpa [Function.comp_def] using (congrArg (Option.map Prod.snd) parts).symm
  have sameSuccessor : spelling.successor = other.successor := by
    unfold rest at sameRest
    rw [sameProbability] at parts sameRest
    cases probability : other.probability? with
    | none => simpa [probability] using sameRest
    | some _ => simpa [probability] using parts.symm
  exact Spelling.ext samePredecessor sameSuccessor sameProbability

/-- Every text with an equals sign can be cut. -/
theorem exists_cuts (separated : '=' ∈ text) : ∃ spelling : Spelling, spelling.Cuts text := by
  cases cut : Text.splitFirst? '=' text with
  | none => exact absurd separated (Text.splitFirst?_eq_none_iff.mp cut)
  | some parts =>
      obtain ⟨predecessor, rest⟩ := parts
      obtain ⟨rfl, noEquals⟩ := Text.splitFirst?_eq_some_iff.mp cut
      cases cutRest : Text.splitFirst? ',' rest with
      | none =>
          have noComma := Text.splitFirst?_eq_none_iff.mp cutRest
          exact ⟨⟨predecessor, rest, none⟩, rfl, noEquals, noComma⟩
      | some parts =>
          obtain ⟨successor, probability⟩ := parts
          obtain ⟨rfl, noComma⟩ := Text.splitFirst?_eq_some_iff.mp cutRest
          exact ⟨⟨predecessor, successor, some probability⟩, rfl, noEquals, noComma⟩

theorem Cuts.mem_text (cuts : spelling.Cuts text) : '=' ∈ text := by
  rw [← cuts.text_eq]
  simp [Spelling.text]

/-! ## Spelled productions -/

theorem IsSide.noEquals {word : Word} (isSide : IsSide word) : '=' ∉ word := by
  intro member
  exact absurd (isSide.writable _ member) (by decide)

theorem IsSide.noComma {word : Word} (isSide : IsSide word) : ',' ∉ word := by
  intro member
  exact absurd (isSide.writable _ member) (by decide)

/-- No separator can stand in a side, so what spells a production is what the text is cut
into. -/
theorem Denotes.cuts (denotes : spelling.Denotes production) (written : spelling.text = text) :
    spelling.Cuts text := by
  cases denotes with
  | certain isPredecessor isSuccessor | uncertain isPredecessor isSuccessor _ _ =>
      exact ⟨written, isPredecessor.noEquals, isSuccessor.noComma⟩

/-- A spelling denotes at most one production. -/
theorem Denotes.unique {left right : Production} (denotes : spelling.Denotes left)
    (otherwise : spelling.Denotes right) : left = right := by
  cases denotes with
  | certain _ _ =>
      cases otherwise with
      | certain _ _ => rfl
  | uncertain _ _ reads clamps =>
      cases otherwise with
      | uncertain _ _ readsToo clampsToo =>
          obtain rfl := Option.some.inj (reads.symm.trans readsToo)
          rw [← Production.clampsTo_iff.mp clamps, ← Production.clampsTo_iff.mp clampsToo]

theorem Denotes.isSide (denotes : spelling.Denotes production) (side : Side) :
    IsSide (spelling.side side) := by
  cases denotes with
  | certain isPredecessor isSuccessor | uncertain isPredecessor isSuccessor _ _ =>
      cases side with
      | predecessor => exact isPredecessor
      | successor => exact isSuccessor

/-- What spells a production is faultless. -/
theorem Denotes.not_hasFault (denotes : spelling.Denotes production) (error : RuleError) :
    ¬ spelling.HasFault error := by
  intro hasFault
  cases hasFault with
  | emptyPredecessor empty => exact (denotes.isSide .predecessor).nonempty empty
  | emptySuccessor empty => exact (denotes.isSide .successor).nonempty empty
  | @invalidSymbol side front back symbol split _ invalid =>
      apply invalid
      apply (denotes.isSide side).writable
      simp [split]
  | invalidProbability written unreadable =>
      cases denotes with
      | certain _ _ => simp at written
      | uncertain _ _ reads _ =>
          obtain rfl := Option.some.inj written
          simp [reads] at unreadable

theorem Denotes.not_isFaultOf (denotes : spelling.Denotes production)
    (written : spelling.text = text) (error : RuleError) : ¬ error.IsFaultOf text := by
  have cuts := denotes.cuts written
  intro isFault
  cases isFault with
  | missingSeparator absent => exact absent cuts.mem_text
  | part otherCuts hasFault =>
      rw [← cuts.unique otherCuts] at hasFault
      exact denotes.not_hasFault error hasFault

theorem Denotes.probability_mem_unit (denotes : spelling.Denotes production) :
    0 ≤ production.probability ∧ production.probability ≤ 1 := by
  cases denotes with
  | certain _ _ => exact (by decide : (0 : Float32) ≤ 1 ∧ (1 : Float32) ≤ 1)
  | uncertain _ _ _ clamps => exact clamps.mem_unit

end Spelling

/-! ## Checks -/

/-- The check gives a value of the given kind if there is no fault, and otherwise the fault
that is the first in order. -/
def Reports {Value : Type} (IsFault : RuleError → Prop) (IsValue : Value → Prop) :
    Except RuleError Value → Prop
  | .ok value => IsValue value ∧ ∀ error, ¬ IsFault error
  | .error error =>
      IsFault error ∧ ∀ other, IsFault other → other = error ∨ error.rank < other.rank

namespace Reports

variable {Value Result : Type} {IsFault IsOther : RuleError → Prop}
  {IsValue IsAlso : Value → Prop} {IsResult : Result → Prop}

theorem imp {check : Except RuleError Value} (reports : Reports IsFault IsValue check)
    (same : ∀ error, IsFault error ↔ IsOther error)
    (gives : ∀ value, IsValue value → IsAlso value) : Reports IsOther IsAlso check := by
  obtain rfl : IsFault = IsOther := funext fun error => propext (same error)
  cases check with
  | error error => exact reports
  | ok value => exact ⟨gives value reports.1, reports.2⟩

/-- Faults that come early in the order are reported before all later ones. -/
theorem bind {rank : Nat} {first : Except RuleError Value} {next : Value → Except RuleError Result}
    (early : Reports (fun error => IsFault error ∧ error.rank = rank) IsValue first)
    (late : ∀ value, IsValue value →
      Reports (fun error => IsFault error ∧ rank < error.rank) IsResult (next value)) :
    Reports (fun error => IsFault error ∧ rank ≤ error.rank) IsResult (first >>= next) := by
  cases first with
  | error error =>
      obtain ⟨⟨isFault, here⟩, only⟩ := early
      refine ⟨⟨isFault, Nat.le_of_eq here.symm⟩, ?_⟩
      intro other ⟨isOther, notEarlier⟩
      cases Nat.lt_or_eq_of_le notEarlier with
      | inl later => exact .inr (here ▸ later)
      | inr same => exact only other ⟨isOther, same.symm⟩
  | ok value =>
      obtain ⟨isValue, none⟩ := early
      apply (late value isValue).imp _ (fun _ => id)
      intro error
      rw [Nat.le_iff_lt_or_eq, and_or_left, or_iff_left]
      intro ⟨isFault, here⟩
      exact none error ⟨isFault, here.symm⟩

theorem eq_ok_iff {check : Except RuleError Value} (reports : Reports IsFault IsValue check)
    (faultless : ∀ value, IsValue value → ∀ error, ¬ IsFault error)
    (unique : ∀ left right, IsValue left → IsValue right → left = right) {value : Value} :
    check = .ok value ↔ IsValue value := by
  cases check with
  | error error =>
      constructor
      · simp
      · intro isValue
        exact absurd reports.1 (faultless value isValue error)
  | ok found =>
      rw [Except.ok.injEq]
      constructor
      · rintro rfl
        exact reports.1
      · exact unique found value reports.1

theorem eq_error_iff {check : Except RuleError Value} (reports : Reports IsFault IsValue check)
    {error : RuleError} :
    check = .error error ↔
      IsFault error ∧ ∀ other, IsFault other → other = error ∨ error.rank < other.rank := by
  cases check with
  | ok value =>
      constructor
      · simp
      · intro first
        exact absurd first.1 (reports.2 error)
  | error reported =>
      rw [Except.error.injEq]
      constructor
      · rintro rfl
        exact reports
      · intro first
        -- Of two first faults neither comes before the other.
        cases reports.2 error first.1 with
        | inl same => exact same.symm
        | inr before =>
            cases first.2 reported reports.1 with
            | inl same => exact same
            | inr after => exact absurd after (Nat.lt_asymm before)

end Reports

namespace RuleError

/-- The fault of a side without any symbol. -/
def emptySide : Side → RuleError
  | .predecessor => emptyPredecessor
  | .successor => emptySuccessor

theorem eq_emptySide_of_rank_eq {error : RuleError} {side : Side}
    (same : error.rank = rank (emptySide side)) : error = emptySide side := by
  cases side <;> cases error with
  | invalidSymbol _ otherSide => cases otherSide <;> simp [rank, emptySide] at same
  | _ => simp [rank, emptySide] at same ⊢

theorem exists_invalidSymbol_of_rank_eq {error : RuleError} {symbol : Symbol} {side : Side}
    (same : error.rank = rank (invalidSymbol symbol side)) :
    ∃ other, error = invalidSymbol other side := by
  cases side <;> cases error with
  | invalidSymbol other otherSide => cases otherSide <;> simp [rank] at same ⊢
  | _ => simp [rank] at same

end RuleError

theorem Spelling.HasFault.exists_unreadable {spelling : Spelling} {error : RuleError}
    (hasFault : spelling.HasFault error) (late : 5 ≤ error.rank) :
    ∃ text, error = .invalidProbability text ∧ spelling.probability? = some text ∧
      Text.Numeral.read? text = none := by
  cases hasFault with
  | invalidProbability written unreadable => exact ⟨_, rfl, written, unreadable⟩
  | @invalidSymbol side _ _ _ _ _ _ => cases side <;> simp [RuleError.rank] at late
  | _ => simp [RuleError.rank] at late

namespace Production

/-- Complain about a side on which nothing stands. -/
def checkNonempty (side : Side) (word : Word) : Except RuleError Unit :=
  if word = [] then throw (.emptySide side) else pure ()

/-- The checks on the parts of a line. -/
def examine (spelling : Spelling) : Except RuleError Production := do
  checkNonempty .predecessor spelling.predecessor
  checkNonempty .successor spelling.successor
  checkSide .predecessor spelling.predecessor
  checkSide .successor spelling.successor
  let probability ← readProbability spelling.probability?
  pure (clamped spelling.predecessor spelling.successor probability)

/-- The reader cuts the line and examines the parts. -/
theorem read_eq_examine {spelling : Spelling} {line : Text}
    (cuts : spelling.Cuts (Text.compact line)) : read line = examine spelling := by
  obtain ⟨predecessor, successor, probability?⟩ := spelling
  have rest := cuts.splitFirst?_rest
  unfold read examine checkNonempty
  rw [cuts.splitFirst?_text]
  simp only [rest]
  cases probability? with
  | none | some _ =>
      simp only [Spelling.rest, Option.map_none, Option.map_some]
      by_cases noPredecessor : predecessor = []
      · simp only [noPredecessor, if_true]
        rfl
      · by_cases noSuccessor : successor = []
        · simp only [noPredecessor, noSuccessor, if_true, if_false]
          rfl
        · simp only [noPredecessor, noSuccessor, if_false]
          rfl

theorem isAdmissible_eq (symbol : Symbol) :
    isAdmissible symbol = decide (Spelling.IsWritable symbol) := by
  have upper : symbol.isUpper = decide ('A' ≤ symbol ∧ symbol ≤ 'Z') := rfl
  rw [Bool.eq_iff_iff, decide_eq_true_eq]
  simp [isAdmissible, upper, turningSymbols, Word.isBracket, Spelling.IsWritable, or_assoc]

variable (spelling : Spelling)

/-- The check of a side reports the first symbol that is not allowed. -/
theorem reports_checkSide (side : Side) :
    Reports
      (fun error =>
        spelling.HasFault error ∧ error.rank = RuleError.rank (.invalidSymbol default side))
      (fun _ => ∀ symbol ∈ spelling.side side, Spelling.IsWritable symbol)
      (checkSide side (spelling.side side)) := by
  have invalid_iff : ∀ symbol,
      spelling.HasFault (.invalidSymbol symbol side) ↔
        (spelling.side side).find? (fun symbol => !isAdmissible symbol) = some symbol := by
    intro symbol
    rw [List.find?_eq_some_iff_append]
    constructor
    · intro hasFault
      cases hasFault with
      | invalidSymbol split writable invalid =>
          refine ⟨by simpa [isAdmissible_eq] using invalid, _, _, split, ?_⟩
          intro earlier member
          simpa [isAdmissible_eq] using writable earlier member
    · intro ⟨invalid, front, back, split, writable⟩
      apply Spelling.HasFault.invalidSymbol split
      · intro earlier member
        simpa [isAdmissible_eq] using writable earlier member
      · simpa [isAdmissible_eq] using invalid
  unfold checkSide
  cases found : (spelling.side side).find? (fun symbol => !isAdmissible symbol) with
  | none =>
      constructor
      · intro symbol member
        simpa [isAdmissible_eq] using List.find?_eq_none.mp found symbol member
      · intro error ⟨hasFault, here⟩
        obtain ⟨symbol, rfl⟩ := RuleError.exists_invalidSymbol_of_rank_eq here
        simp [invalid_iff, found] at hasFault
  | some symbol =>
      refine ⟨⟨(invalid_iff symbol).mpr found, by cases side <;> rfl⟩, ?_⟩
      intro error ⟨hasFault, here⟩
      obtain ⟨other, rfl⟩ := RuleError.exists_invalidSymbol_of_rank_eq here
      rw [invalid_iff, found] at hasFault
      exact .inl (congrArg (RuleError.invalidSymbol · side) (Option.some.inj hasFault).symm)

theorem reports_checkNonempty (side : Side) :
    Reports
      (fun error => spelling.HasFault error ∧ error.rank = RuleError.rank (.emptySide side))
      (fun _ => spelling.side side ≠ []) (checkNonempty side (spelling.side side)) := by
  have empty_iff : spelling.HasFault (.emptySide side) ↔ spelling.side side = [] := by
    constructor
    · intro hasFault
      cases side with
      | predecessor =>
          cases hasFault with
          | emptyPredecessor empty => exact empty
      | successor =>
          cases hasFault with
          | emptySuccessor empty => exact empty
    · intro empty
      cases side with
      | predecessor => exact .emptyPredecessor empty
      | successor => exact .emptySuccessor empty
  unfold checkNonempty
  by_cases empty : spelling.side side = []
  · rw [if_pos empty]
    refine ⟨⟨empty_iff.mpr empty, rfl⟩, ?_⟩
    intro other ⟨_, here⟩
    exact .inl (RuleError.eq_emptySide_of_rank_eq here)
  · rw [if_neg empty]
    refine ⟨empty, ?_⟩
    intro error ⟨hasFault, here⟩
    obtain rfl := RuleError.eq_emptySide_of_rank_eq here
    exact empty (empty_iff.mp hasFault)

/-- Once the sides are in order, it remains to read the probability. -/
theorem reports_readProbability (isSide : ∀ side, Spelling.IsSide (spelling.side side)) :
    Reports (fun error => spelling.HasFault error ∧ 5 ≤ error.rank) spelling.Denotes
      (do
        let probability ← readProbability spelling.probability?
        pure (clamped spelling.predecessor spelling.successor probability)) := by
  obtain ⟨predecessor, successor, probability?⟩ := spelling
  cases probability? with
  | none =>
      constructor
      · have certain : clampProbability 1 = 1 := by decide
        rw [clamped, certain]
        exact .certain (isSide .predecessor) (isSide .successor)
      · intro error ⟨hasFault, late⟩
        obtain ⟨_, _, written, _⟩ := hasFault.exists_unreadable late
        simp at written
  | some text =>
      rw [readProbability]
      cases reads : Text.Numeral.read? text with
      | none =>
          refine ⟨⟨.invalidProbability rfl reads, Nat.le_refl 5⟩, ?_⟩
          intro error ⟨hasFault, late⟩
          obtain ⟨_, rfl, written, _⟩ := hasFault.exists_unreadable late
          obtain rfl := Option.some.inj written
          exact .inl rfl
      | some numeral =>
          constructor
          · exact .uncertain (isSide .predecessor) (isSide .successor) reads
              (clampsTo_iff.mpr rfl)
          · intro error ⟨hasFault, late⟩
            obtain ⟨_, _, written, unreadable⟩ := hasFault.exists_unreadable late
            obtain rfl := Option.some.inj written
            simp [reads] at unreadable

theorem reports_examine : Reports spelling.HasFault spelling.Denotes (examine spelling) := by
  have chain : Reports (fun error => spelling.HasFault error ∧ 1 ≤ error.rank)
      spelling.Denotes (examine spelling) := by
    apply (reports_checkNonempty spelling .predecessor).bind
    intro _ predecessorNonempty
    apply (reports_checkNonempty spelling .successor).bind
    intro _ successorNonempty
    apply (reports_checkSide spelling .predecessor).bind
    intro _ predecessorWritable
    apply (reports_checkSide spelling .successor).bind
    intro _ successorWritable
    apply reports_readProbability
    intro side
    cases side with
    | predecessor => exact ⟨predecessorNonempty, predecessorWritable⟩
    | successor => exact ⟨successorNonempty, successorWritable⟩
  apply chain.imp _ (fun _ => id)
  intro error
  rw [and_iff_left_iff_imp]
  intro hasFault
  cases hasFault with
  | @invalidSymbol side _ _ _ _ _ _ => cases side <;> simp [RuleError.rank]
  | _ => simp [RuleError.rank]

/-- Of the faults of a line the first one is reported, and a line without any spells a
production. -/
theorem reports_read (line : Text) :
    Reports (RuleError.IsFaultOf (Text.compact line))
      (fun production => ∃ spelling : Spelling,
        spelling.text = Text.compact line ∧ spelling.Denotes production)
      (read line) := by
  by_cases separated : '=' ∈ Text.compact line
  · obtain ⟨spelling, cuts⟩ := Spelling.exists_cuts separated
    have same : ∀ error,
        RuleError.IsFaultOf (Text.compact line) error ↔ spelling.HasFault error := by
      intro error
      constructor
      · intro isFault
        cases isFault with
        | missingSeparator absent => exact absurd separated absent
        | part otherCuts hasFault => rwa [cuts.unique otherCuts]
      · exact .part cuts
    rw [read_eq_examine cuts]
    exact (reports_examine spelling).imp (fun error => (same error).symm)
      fun _ denotes => ⟨spelling, cuts.text_eq, denotes⟩
  · have missing : read line = .error .missingSeparator := by
      rw [read, Text.splitFirst?_eq_none_iff.mpr separated]
      rfl
    rw [missing]
    refine ⟨.missingSeparator separated, ?_⟩
    intro other isFault
    cases isFault with
    | missingSeparator _ => exact .inl rfl
    | part cuts _ => exact absurd cuts.mem_text separated

/-- A line is read as a production exactly if it spells that production once the blank
characters have been removed, and it spells it in one way only.  Its probability lies in the
unit interval.  Any other line has faults, and the first of them in order is reported. -/
theorem read_spelled_or_reported (line : Text) :
    let text := Text.compact line
    (∀ production, read line = .ok production ↔
      ∃ spelling : Spelling, spelling.text = text ∧ spelling.Denotes production) ∧
    (∀ (left right : Spelling) (first second : Production),
      left.Denotes first → right.Denotes second → left.text = text → right.text = text →
        left = right) ∧
    (∀ production, read line = .ok production →
      0 ≤ production.probability ∧ production.probability ≤ 1) ∧
    ∀ error, read line = .error error ↔
      error.IsFaultOf text ∧
        ∀ other : RuleError, other.IsFaultOf text → other = error ∨ error.rank < other.rank := by
  intro text
  have unique : ∀ (left right : Spelling) (first second : Production),
      left.Denotes first → right.Denotes second → left.text = text → right.text = text →
        left = right := by
    intro left right first second denotes denotesToo left_eq right_eq
    exact (denotes.cuts left_eq).unique (denotesToo.cuts right_eq)
  have accepts : ∀ production, read line = .ok production ↔
      ∃ spelling : Spelling, spelling.text = text ∧ spelling.Denotes production := by
    intro production
    apply (reports_read line).eq_ok_iff
    · intro _ ⟨spelling, written, denotes⟩
      exact denotes.not_isFaultOf written
    · intro first second ⟨left, left_eq, denotes⟩ ⟨right, right_eq, denotesToo⟩
      obtain rfl := unique left right first second denotes denotesToo left_eq right_eq
      exact denotes.unique denotesToo
  refine ⟨accepts, unique, ?_, fun error => (reports_read line).eq_error_iff⟩
  intro production reads
  obtain ⟨spelling, _, denotes⟩ := (accepts production).mp reads
  exact denotes.probability_mem_unit

/-- The second equals sign is part of the successor, which is checked before the probability. -/
example : read " A = F=G, often".toList = .error (.invalidSymbol '=' .successor) := by
  rfl

end Production

end Arbor
