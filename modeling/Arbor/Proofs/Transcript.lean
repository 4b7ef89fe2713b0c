import Arbor.Proofs.Budding

/-!
# The transcript of a generation

A transcript tells, place by place, what a generation does with a word: which production
has its chance there, which number is drawn for it, and which piece is read.  The rules for
a single place and the rule that the drawn numbers are the next ones of the source leave
exactly one transcript, and the generation is computed from its pieces.
-/

namespace Arbor

/-! ## Productions and places -/

namespace Production

/-- The predecessor is not empty and begins the text. -/
def Begins (text : Word) (production : Production) : Prop :=
  production.predecessor ≠ [] ∧ production.predecessor <+: text

/-- The first production in the order of the list whose predecessor begins the text. -/
def IsCandidate (productions : List Production) (text : Word) (production : Production) : Prop :=
  production.Begins text ∧
    ∃ earlier later, productions = earlier ++ production :: later ∧
      ∀ other ∈ earlier, ¬ other.Begins text

/-- The production draws a number before it fires. -/
def IsUncertain (production : Production) : Prop :=
  ¬ production.probability ≥ 1

instance (production : Production) : Decidable production.IsUncertain :=
  inferInstanceAs (Decidable (¬ production.probability ≥ 1))

variable {productions : List Production} {text : Word} {production : Production}

theorem applies_iff : production.applies text = true ↔ production.Begins text := by
  rw [applies, Begins, Bool.and_eq_true, decide_eq_true_iff, List.isPrefixOf_iff_prefix]

theorem candidate?_eq_some_iff :
    candidate? productions text = some production ↔ production.IsCandidate productions text := by
  simp only [candidate?, IsCandidate, List.find?_eq_some_iff_append, applies_iff,
    Bool.not_eq_true', ← Bool.not_eq_true]

theorem fires_of_isUncertain (uncertain : production.IsUncertain) (draws : Draws) :
    production.fires draws =
      (decide (Drawing.unitOfWord draws.peek < production.probability), draws.skip) := by
  rw [fires, if_neg uncertain]
  rfl

theorem fires_of_not_isUncertain (sure : ¬ production.IsUncertain) (draws : Draws) :
    production.fires draws = (true, draws) := by
  rw [fires, if_pos (Decidable.not_not.mp sure)]
  rfl

theorem candidate?_eq_none_iff :
    candidate? productions text = none ↔
      ∀ production ∈ productions, ¬ production.Begins text := by
  simp only [candidate?, List.find?_eq_none, applies_iff]

end Production

namespace Draws

/-- The next numbers that the source gives. -/
def upcoming (draws : Draws) (count : Nat) : List Float32 :=
  (List.range' draws.taken count).map fun position => Drawing.unitOfWord (draws.stream position)

theorem upcoming_add (draws : Draws) (first second : Nat) :
    draws.upcoming (first + second) =
      draws.upcoming first ++ (draws.advance first).upcoming second := by
  simp only [upcoming, advance, ← List.map_append, List.range'_append_1]

@[simp] theorem length_upcoming (draws : Draws) (count : Nat) :
    (draws.upcoming count).length = count := by
  simp [upcoming]

end Draws

/-! ## Transcripts -/

/-- What a generation does at one place of a word. -/
structure Turn where
  /-- The production that has its chance there. -/
  candidate? : Option Production
  /-- The number that is drawn for it. -/
  drawn? : Option Float32
  /-- The piece that is read. -/
  piece : Piece
  deriving DecidableEq, Inhabited, Repr

namespace Turn

/-- The text that the turn reads. -/
def source (turn : Turn) : Word :=
  turn.piece.source

/-- The candidate is one that draws before it fires. -/
def isChance (turn : Turn) : Bool :=
  turn.candidate?.any fun production => decide production.IsUncertain

/-- The number of draws that the turn is entitled to. -/
def chances (turn : Turn) : Nat :=
  if turn.isChance then 1 else 0

/-- What the productions allow where a text remains. -/
inductive IsAllowed (productions : List Production) : Word → Turn → Prop where
  | plain {symbol : Symbol} {rest : Word} :
      (∀ production ∈ productions, ¬ production.Begins (symbol :: rest)) →
      IsAllowed productions (symbol :: rest) ⟨none, none, .copied symbol⟩
  | certain {production : Production} {text : Word} :
      production.IsCandidate productions text → production.probability ≥ 1 →
      IsAllowed productions text ⟨some production, none, .replaced production⟩
  | fired {production : Production} {text : Word} {drawn : Float32} :
      production.IsCandidate productions text → production.IsUncertain →
      drawn < production.probability →
      IsAllowed productions text ⟨some production, some drawn, .replaced production⟩
  | failed {production : Production} {symbol : Symbol} {rest : Word} {drawn : Float32} :
      production.IsCandidate productions (symbol :: rest) → production.IsUncertain →
      ¬ drawn < production.probability →
      IsAllowed productions (symbol :: rest) ⟨some production, some drawn, .copied symbol⟩

/-- The turn at a symbol, from the candidate there and the number that comes next. -/
def take (number : Float32) (symbol : Symbol) : Option Production → Turn
  | none => ⟨none, none, .copied symbol⟩
  | some production =>
      if production.IsUncertain then
        ⟨some production, some number,
          if number < production.probability then .replaced production else .copied symbol⟩
      else
        ⟨some production, none, .replaced production⟩

variable {productions : List Production} {text rest : Word} {turn : Turn} {symbol : Symbol}

theorem IsAllowed.source_ne_nil (allowed : turn.IsAllowed productions text) :
    turn.source ≠ [] := by
  cases allowed with
  | plain _ => exact List.cons_ne_nil _ _
  | certain candidate _ => exact candidate.1.1
  | fired candidate _ _ => exact candidate.1.1
  | failed _ _ _ => exact List.cons_ne_nil _ _

/-- The piece of a turn begins the text that remains. -/
theorem IsAllowed.source_prefix (allowed : turn.IsAllowed productions text) :
    turn.source <+: text := by
  cases allowed with
  | plain _ => exact ⟨_, rfl⟩
  | certain candidate _ => exact candidate.1.2
  | fired candidate _ _ => exact candidate.1.2
  | failed _ _ _ => exact ⟨_, rfl⟩

theorem chances_of_isUncertain {production : Production} (uncertain : production.IsUncertain)
    (drawn? : Option Float32) (piece : Piece) :
    (⟨some production, drawn?, piece⟩ : Turn).chances = 1 := by
  simp [chances, isChance, uncertain]

theorem chances_of_not_isUncertain {production : Production}
    (sure : ¬ production.IsUncertain) (drawn? : Option Float32) (piece : Piece) :
    (⟨some production, drawn?, piece⟩ : Turn).chances = 0 := by
  simp [chances, isChance, sure]

/-- A turn that is allowed draws exactly if it has a chance. -/
theorem IsAllowed.length_drawn (allowed : turn.IsAllowed productions text) :
    turn.drawn?.toList.length = turn.chances := by
  cases allowed with
  | plain _ => rfl
  | certain _ sure => rw [chances_of_not_isUncertain (not_not_intro sure)]; rfl
  | fired _ uncertain _ => rw [chances_of_isUncertain uncertain]; rfl
  | failed _ uncertain _ => rw [chances_of_isUncertain uncertain]; rfl

/-- The productions and the next number of the source leave one turn. -/
theorem isAllowed_and_drawn_iff (draws : Draws) :
    turn.IsAllowed productions (symbol :: rest) ∧
        turn.drawn?.toList = draws.upcoming turn.chances ↔
      turn = take (Drawing.unitOfWord draws.peek) symbol
        (Production.candidate? productions (symbol :: rest)) := by
  have next : draws.upcoming 1 = [Drawing.unitOfWord draws.peek] := rfl
  constructor
  · rintro ⟨allowed, drawn⟩
    cases allowed with
    | plain none => rw [Production.candidate?_eq_none_iff.mpr none, take]
    | @certain production _ candidate sure =>
        have notUncertain : ¬ production.IsUncertain := not_not_intro sure
        rw [Production.candidate?_eq_some_iff.mpr candidate, take, if_neg notUncertain]
    | fired candidate uncertain fires =>
        rw [chances_of_isUncertain uncertain, next] at drawn
        cases drawn
        rw [Production.candidate?_eq_some_iff.mpr candidate, take, if_pos uncertain,
          if_pos fires]
    | failed candidate uncertain fails =>
        rw [chances_of_isUncertain uncertain, next] at drawn
        cases drawn
        rw [Production.candidate?_eq_some_iff.mpr candidate, take, if_pos uncertain,
          if_neg fails]
  · rintro rfl
    cases found : Production.candidate? productions (symbol :: rest) with
    | none => exact ⟨.plain (Production.candidate?_eq_none_iff.mp found), rfl⟩
    | some production =>
        have candidate := Production.candidate?_eq_some_iff.mp found
        rw [take]
        split
        next uncertain =>
          rw [chances_of_isUncertain uncertain, next]
          refine ⟨?_, rfl⟩
          split
          next fires => exact .fired candidate uncertain fires
          next fails => exact .failed candidate uncertain fails
        next sure =>
          rw [chances_of_not_isUncertain sure]
          exact ⟨.certain candidate (Decidable.not_not.mp sure), rfl⟩

theorem IsAllowed.exists_cons (allowed : turn.IsAllowed productions text) :
    ∃ symbol rest, text = symbol :: rest := by
  apply List.exists_cons_of_ne_nil
  rintro rfl
  exact allowed.source_ne_nil (List.prefix_nil.mp allowed.source_prefix)

/-- What follows on the piece of a turn is what follows on its other symbols. -/
theorem IsAllowed.cons_eq_append (allowed : turn.IsAllowed productions (symbol :: rest)) :
    symbol :: rest = turn.source ++ rest.drop (turn.source.length - 1) := by
  rcases allowed.source_prefix with ⟨remaining, split⟩
  cases source : turn.source with
  | nil => exact absurd source allowed.source_ne_nil
  | cons first others =>
      rw [source, List.cons_append] at split
      rcases List.cons.inj split with ⟨rfl, rfl⟩
      simp

theorem countP_isChance_cons (turn : Turn) (turns : List Turn) :
    (turn :: turns).countP isChance = turn.chances + turns.countP isChance := by
  rw [List.countP_cons, Nat.add_comm, chances]

end Turn

/-- The turns of a generation: their pieces make up the word, each is allowed where it is
taken, and the numbers drawn are the next ones of the source. -/
structure Transcript (productions : List Production) (word : Word) (draws : Draws)
    (turns : List Turn) : Prop where
  covers : turns.flatMap Turn.source = word
  allowed : ∀ before turn after, turns = before ++ turn :: after →
    turn.IsAllowed productions ((turn :: after).flatMap Turn.source)
  drawn : turns.filterMap Turn.drawn? = draws.upcoming (turns.countP Turn.isChance)

namespace Transcript

variable {productions : List Production} {word : Word} {draws : Draws} {turn : Turn}
  {turns : List Turn}

/-- A transcript is a first turn and a transcript of what remains. -/
theorem cons_iff :
    Transcript productions word draws (turn :: turns) ↔
      (turn.IsAllowed productions word ∧ turn.drawn?.toList = draws.upcoming turn.chances) ∧
        ∃ rest, word = turn.source ++ rest ∧
          Transcript productions rest (draws.advance turn.chances) turns := by
  have numbers : (turn :: turns).filterMap Turn.drawn? =
      turn.drawn?.toList ++ turns.filterMap Turn.drawn? := by
    cases drawn : turn.drawn? <;> simp [drawn]
  constructor
  · rintro ⟨covers, allowed, drawn⟩
    have here := allowed [] turn turns rfl
    rw [covers] at here
    rw [Turn.countP_isChance_cons, numbers, Draws.upcoming_add] at drawn
    have sameLength : turn.drawn?.toList.length = (draws.upcoming turn.chances).length := by
      rw [Draws.length_upcoming]
      exact here.length_drawn
    rcases List.append_inj drawn sameLength with ⟨drawnHere, drawnLater⟩
    refine ⟨⟨here, drawnHere⟩, turns.flatMap Turn.source, ?_, rfl, ?_, drawnLater⟩
    · rw [← covers, List.flatMap_cons]
    · intro before other after split
      exact allowed (turn :: before) other after (by rw [split, List.cons_append])
  · rintro ⟨⟨here, drawnHere⟩, rest, rfl, covers, allowed, drawnLater⟩
    refine ⟨?_, ?_, ?_⟩
    · rw [List.flatMap_cons, covers]
    · intro before other after split
      cases before with
      | nil =>
          cases split
          rw [List.flatMap_cons, covers]
          exact here
      | cons first before =>
          cases split
          exact allowed before other after rfl
    · rw [Turn.countP_isChance_cons, numbers, Draws.upcoming_add, drawnHere, drawnLater]

theorem nil_iff : Transcript productions word draws [] ↔ word = [] := by
  constructor
  · intro transcript
    exact transcript.covers.symm
  · rintro rfl
    exact ⟨rfl, by simp, rfl⟩

/-- There is only one transcript. -/
theorem unique (turns : List Turn) :
    {word : Word} → {draws : Draws} → {others : List Turn} →
      Transcript productions word draws turns → Transcript productions word draws others →
      others = turns := by
  induction turns with
  | nil =>
      intro word draws others transcript other
      rw [nil_iff] at transcript
      cases others with
      | nil => rfl
      | cons turn others =>
          rcases cons_iff.mp other with ⟨⟨allowed, -⟩, rest, split, -⟩
          rw [transcript] at split
          exact absurd (List.append_eq_nil_iff.mp split.symm).1 allowed.source_ne_nil
  | cons turn turns ih =>
      intro word draws others transcript other
      rcases cons_iff.mp transcript with ⟨here, rest, rfl, later⟩
      rcases here.1.exists_cons with ⟨symbol, tail, text_eq⟩
      cases others with
      | nil =>
          rw [nil_iff, text_eq] at other
          cases other
      | cons turnThen others =>
          rcases cons_iff.mp other with ⟨hereThen, restThen, split, laterThen⟩
          rw [text_eq, Turn.isAllowed_and_drawn_iff] at here hereThen
          obtain rfl : turnThen = turn := hereThen.trans here.symm
          obtain rfl : rest = restThen := List.append_cancel_left split
          rw [ih later laterThen]

end Transcript

namespace Piece

variable (productions : List Production) (draws : Draws)

/-- The cut of a word begins with the only turn that is allowed. -/
theorem cutFrom_cons (symbol : Symbol) (rest : Word) :
    let turn := Turn.take (Drawing.unitOfWord draws.peek) symbol
      (Production.candidate? productions (symbol :: rest))
    let later := cutFrom productions (turn.source.length - 1) rest (draws.advance turn.chances)
    cutFrom productions 0 (symbol :: rest) draws = (turn.piece :: later.1, later.2) := by
  rw [cutFrom]
  cases Production.candidate? productions (symbol :: rest) with
  | none => rfl
  | some production =>
      dsimp only
      by_cases uncertain : production.IsUncertain
      · rw [Turn.take, if_pos uncertain, Turn.chances_of_isUncertain uncertain,
          Drawing.bind_apply, Production.fires_of_isUncertain uncertain]
        by_cases fires : Drawing.unitOfWord draws.peek < production.probability
        · simp only [fires, decide_true, if_true]
          rfl
        · simp only [fires, decide_false, if_false]
          rfl
      · rw [Turn.take, if_neg uncertain, Turn.chances_of_not_isUncertain uncertain,
          Drawing.bind_apply, Production.fires_of_not_isUncertain uncertain]
        rfl

/-- Every cut of a word has a transcript. -/
theorem exists_transcript_cutFrom :
    (word : Word) → (covered : Nat) → (draws : Draws) →
      ∃ turns, Transcript productions (word.drop covered) draws turns ∧
        cutFrom productions covered word draws =
          (turns.map Turn.piece, draws.advance (turns.countP Turn.isChance)) := by
  intro word
  induction word with
  | nil =>
      intro covered draws
      refine ⟨[], Transcript.nil_iff.mpr List.drop_nil, rfl⟩
  | cons symbol rest ih =>
      intro covered draws
      cases covered with
      | succ covered => exact ih covered draws
      | zero =>
          let turn := Turn.take (Drawing.unitOfWord draws.peek) symbol
            (Production.candidate? productions (symbol :: rest))
          have here := (Turn.isAllowed_and_drawn_iff draws).mpr (Eq.refl turn)
          rcases ih (turn.source.length - 1) (draws.advance turn.chances) with
            ⟨turns, later, laterCut⟩
          refine ⟨turn :: turns, ?_, ?_⟩
          · exact Transcript.cons_iff.mpr ⟨here, _, here.1.cons_eq_append, later⟩
          · rw [cutFrom_cons, List.map_cons, Turn.countP_isChance_cons, Draws.advance_add]
            exact congrArg (fun cut => (turn.piece :: cut.1, cut.2)) laterCut

end Piece

/-! ## What a generation reports of its pieces -/

namespace Piece

/-- The symbols of the new word, each with whether a replaced piece has brought it. -/
def traced (pieces : List Piece) : List (Symbol × Bool) :=
  pieces.flatMap fun piece => piece.result.map fun symbol => (symbol, piece.isReplaced)

/-- Of the opening brackets of the new word, in order, whether replaced pieces have brought
them. -/
def brought (pieces : List Piece) : List Bool :=
  ((traced pieces).filter fun entry => entry.1 = '[').map Prod.snd

theorem map_fst_traced (pieces : List Piece) :
    (traced pieces).map Prod.fst = pieces.flatMap result := by
  simp [traced, List.map_flatMap, Function.comp_def]

theorem brought_of_text (replaced : Bool) (text : Word) :
    ((text.map fun symbol => (symbol, replaced)).filter fun entry => entry.1 = '[').map
        Prod.snd =
      List.replicate text.branchCount replaced := by
  induction text with
  | nil => rfl
  | cons symbol rest ih =>
      by_cases opening : symbol = '['
      · simp [opening, Word.branchCount_cons, List.replicate_succ, ih]
      · simp [opening, Word.branchCount_cons, ih]

theorem brought_cons (piece : Piece) (rest : List Piece) :
    brought (piece :: rest) =
      List.replicate (Word.branchCount piece.result) piece.isReplaced ++ brought rest := by
  rw [brought, traced, List.flatMap_cons, List.filter_append, List.map_append, brought_of_text]
  rfl

theorem branchCount_begun_le (piece : Piece) :
    Word.branchCount piece.begun ≤ Word.branchCount piece.result := by
  cases piece with
  | copied symbol => exact Nat.zero_le _
  | replaced production => exact Nat.le_refl _

theorem count_true_brought (pieces : List Piece) :
    (brought pieces).count true = Word.branchCount (pieces.flatMap begun) := by
  induction pieces with
  | nil => rfl
  | cons piece rest ih =>
      rw [brought_cons, List.count_append, ih, List.flatMap_cons, Word.branchCount_append]
      cases piece <;> simp [isReplaced, begun, result, List.count_replicate]

end Piece

/-- The branch with the ordinal is one of those that enter. -/
def Budding.Holds (budding : Budding) (ordinal : Nat) : Prop :=
  budding.position ≤ ordinal ∧ ordinal < budding.position + budding.count

namespace Generation

/-- What a generation reports of the pieces of a word. -/
structure Reports (generation : Generation) (pieces : List Piece) : Prop where
  word : generation.word = pieces.flatMap Piece.result
  traced : generation.word = (Piece.traced pieces).map Prod.fst
  substitutions : generation.substitutions = pieces.countP Piece.isReplaced
  nonempty : ∀ budding ∈ generation.buddings, 0 < budding.count
  disjoint : generation.buddings.Pairwise fun earlier later =>
    earlier.position + earlier.count ≤ later.position
  ordinals : ∀ ordinal, (∃ budding ∈ generation.buddings, budding.Holds ordinal) ↔
    (Piece.brought pieces)[ordinal]? = some true
  newBranches : generation.newBranches = (Piece.brought pieces).count true
  branchCount : generation.word.branchCount =
    pieces.count (.copied '[') + generation.newBranches

/-- A piece brings one group of branches, if any, right after those of the pieces before. -/
theorem buddingsFrom_cons (emitted : Nat) (piece : Piece) (rest : List Piece) :
    buddingsFrom emitted (piece :: rest) =
      (if Word.branchCount piece.begun = 0 then []
        else [⟨Word.branchCount piece.begun, emitted⟩]) ++
        buddingsFrom (emitted + Word.branchCount piece.result) rest := by
  cases piece with
  | copied symbol => rfl
  | replaced production =>
      by_cases none : production.branchCount = 0
      · have begins : Word.branchCount production.successor = 0 := none
        rw [buddingsFrom, if_pos none, Piece.begun, Piece.result, if_pos begins, begins]
        rfl
      · have begins : ¬ Word.branchCount production.successor = 0 := none
        rw [buddingsFrom, if_neg none, Piece.begun, Piece.result, if_neg begins]
        rfl

theorem mem_buddingsFrom_cons {budding : Budding} {emitted : Nat} {piece : Piece}
    {rest : List Piece} :
    budding ∈ buddingsFrom emitted (piece :: rest) ↔
      (Word.branchCount piece.begun ≠ 0 ∧ budding = ⟨Word.branchCount piece.begun, emitted⟩) ∨
        budding ∈ buddingsFrom (emitted + Word.branchCount piece.result) rest := by
  rw [buddingsFrom_cons, List.mem_append, List.mem_ite_nil_left, List.mem_singleton]

theorem bounds_of_mem_buddingsFrom {budding : Budding} (pieces : List Piece) :
    (emitted : Nat) → budding ∈ buddingsFrom emitted pieces →
      0 < budding.count ∧ emitted ≤ budding.position := by
  induction pieces with
  | nil =>
      intro emitted member
      cases member
  | cons piece rest ih =>
      intro emitted member
      rcases mem_buddingsFrom_cons.mp member with ⟨some, rfl⟩ | later
      · exact ⟨Nat.pos_of_ne_zero some, Nat.le_refl _⟩
      · rcases ih _ later with ⟨positive, bound⟩
        exact ⟨positive, Nat.le_of_add_right_le bound⟩

theorem pairwise_buddingsFrom (pieces : List Piece) :
    (emitted : Nat) → (buddingsFrom emitted pieces).Pairwise fun earlier later =>
      earlier.position + earlier.count ≤ later.position := by
  induction pieces with
  | nil =>
      intro emitted
      exact .nil
  | cons piece rest ih =>
      intro emitted
      rw [buddingsFrom_cons]
      split
      · exact ih _
      · refine List.Pairwise.cons ?_ (ih _)
        intro later member
        have bound := (bounds_of_mem_buddingsFrom rest _ member).2
        have enough := Nat.add_le_add_left piece.branchCount_begun_le emitted
        exact Nat.le_trans enough bound

theorem exists_holds_cons_iff (emitted offset : Nat) (piece : Piece) (rest : List Piece) :
    (∃ budding ∈ buddingsFrom emitted (piece :: rest), budding.Holds (emitted + offset)) ↔
      offset < Word.branchCount piece.begun ∨
        ∃ budding ∈ buddingsFrom (emitted + Word.branchCount piece.result) rest,
          budding.Holds (emitted + offset) := by
  simp only [mem_buddingsFrom_cons, or_and_right, exists_or]
  apply or_congr_left
  constructor
  · rintro ⟨_, ⟨-, rfl⟩, holds⟩
    exact Nat.lt_of_add_lt_add_left holds.2
  · intro inside
    exact ⟨_, ⟨Nat.ne_zero_of_lt inside, rfl⟩, Nat.le_add_right _ _,
      Nat.add_lt_add_left inside emitted⟩

/-- The buddings hold the ordinals of the brackets that have been brought. -/
theorem exists_budding_holds_iff (pieces : List Piece) :
    (emitted offset : Nat) →
      ((∃ budding ∈ buddingsFrom emitted pieces, budding.Holds (emitted + offset)) ↔
        (Piece.brought pieces)[offset]? = some true) := by
  induction pieces with
  | nil =>
      intro emitted offset
      simp [buddingsFrom, Piece.brought, Piece.traced]
  | cons piece rest ih =>
      intro emitted offset
      let count := Word.branchCount piece.result
      rw [exists_holds_cons_iff, Piece.brought_cons]
      by_cases inside : offset < count
      · have notLater : ¬ ∃ budding ∈ buddingsFrom (emitted + count) rest,
            budding.Holds (emitted + offset) := by
          rintro ⟨budding, member, holds⟩
          have bound := (bounds_of_mem_buddingsFrom rest _ member).2
          have before := holds.1
          omega
        rw [or_iff_left notLater, List.getElem?_append_left (by simpa using inside),
          List.getElem?_replicate, if_pos inside]
        cases piece with
        | copied symbol => simp [Piece.begun, Piece.isReplaced]
        | replaced production => exact iff_of_true inside rfl
      · rcases Nat.exists_eq_add_of_le (Nat.le_of_not_lt inside) with ⟨further, rfl⟩
        have outside : ¬ count + further < Word.branchCount piece.begun := by
          have bound := piece.branchCount_begun_le
          omega
        rw [or_iff_right outside, ← Nat.add_assoc, ih,
          List.getElem?_append_right (by simp [count])]
        simp [count]

theorem foldr_count_buddingsFrom (pieces : List Piece) :
    (emitted : Nat) →
      (buddingsFrom emitted pieces).foldr (fun budding total => budding.count + total) 0 =
        Word.branchCount (pieces.flatMap Piece.begun) := by
  induction pieces with
  | nil =>
      intro emitted
      rfl
  | cons piece rest ih =>
      intro emitted
      rw [buddingsFrom_cons, List.foldr_append, ih, List.flatMap_cons, Word.branchCount_append]
      split
      next none => simp [none]
      next some => rfl

theorem newBranches_ofPieces (pieces : List Piece) :
    (ofPieces pieces).newBranches = Word.branchCount (pieces.flatMap Piece.begun) :=
  foldr_count_buddingsFrom pieces 0

theorem reports_ofPieces (pieces : List Piece) : (ofPieces pieces).Reports pieces where
  word := rfl
  traced := (Piece.map_fst_traced pieces).symm
  substitutions := rfl
  nonempty budding member := (bounds_of_mem_buddingsFrom pieces 0 member).1
  disjoint := pairwise_buddingsFrom pieces 0
  ordinals ordinal := by
    have holds := exists_budding_holds_iff pieces 0 ordinal
    rwa [Nat.zero_add] at holds
  newBranches := by
    rw [newBranches_ofPieces, Piece.count_true_brought]
  branchCount := by
    rw [newBranches_ofPieces]
    exact Piece.branchCount_flatMap_result pieces

/-- Whatever the productions and the source are, a generation reads a word by exactly one
transcript, without empty pieces.  It takes one number for each chance and reports what the
pieces say. -/
theorem reports_of_transcript (productions : List Production) (word : Word) (draws : Draws) :
    ∃ turns : List Turn,
      (∀ others, Transcript productions word draws others ↔ others = turns) ∧
      (∀ turn ∈ turns, turn.source ≠ []) ∧
      (next productions word draws).2 = draws.advance (turns.countP Turn.isChance) ∧
      (next productions word draws).1.Reports (turns.map Turn.piece) ∧
      word.branchCount = (turns.map Turn.piece).count (.copied '[') +
        Word.branchCount ((turns.map Turn.piece).flatMap Piece.consumed) := by
  rcases Piece.exists_transcript_cutFrom productions word 0 draws with ⟨turns, transcript, cut⟩
  have generation : next productions word draws =
      (ofPieces (turns.map Turn.piece), draws.advance (turns.countP Turn.isChance)) := by
    rw [next_apply, Piece.cut, cut]
  rw [List.drop_zero] at transcript
  rw [generation]
  refine ⟨turns, ?_, ?_, rfl, reports_ofPieces _, ?_⟩
  · intro others
    constructor
    · exact Transcript.unique turns transcript
    · rintro rfl
      exact transcript
  · intro turn member
    rcases List.append_of_mem member with ⟨before, after, split⟩
    exact (transcript.allowed before turn after split).source_ne_nil
  · rw [← Piece.branchCount_flatMap_source, List.flatMap_map]
    exact congrArg Word.branchCount transcript.covers.symm

/-- Where the first chance fails, a shorter predecessor that overlaps the first is replaced. -/
example :
    let productions := [Production.clamped "AB".toList "C".toList 0,
      Production.certain "B".toList "[D]".toList]
    let generation := Generation.next productions "[AB]".toList (Draws.start fun _ => 0)
    generation.1 = ⟨"[A[D]]".toList, [⟨1, 1⟩], 1⟩ ∧ generation.2.taken = 1 := by
  decide +kernel

end Generation

end Arbor
