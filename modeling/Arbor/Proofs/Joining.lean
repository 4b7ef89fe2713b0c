import Arbor.Proofs.Transcript
import Arbor.Species.Library
import Mathlib.Data.List.Find

/-!
# Words that are joined

A generation of two words joined is that of the first followed by that of the second, as long
as no predecessor stands across the joint.  Where productions replace single symbols none ever
does.  The second word is then read with the draws that the first has left over, and its
buddings move up by the brackets of the new first word.
-/

namespace Arbor

namespace Production

/-- The production replaces a single symbol. -/
def IsContextFree (production : Production) : Prop :=
  ∃ symbol, production.predecessor = [symbol]

/-- No predecessor begins within the left word and goes on into the right one. -/
def NoneAcross (productions : List Production) (left right : Word) : Prop :=
  ∀ production ∈ productions, ∀ rest, rest <:+ left → rest ≠ [] →
    production.predecessor <+: rest ++ right → production.predecessor <+: rest

variable {productions : List Production} {left right : Word}

theorem noneAcross_of_isContextFree
    (contextFree : ∀ production ∈ productions, production.IsContextFree) (left right : Word) :
    NoneAcross productions left right := by
  intro production listed rest _ nonempty stands
  obtain ⟨symbol, single⟩ := contextFree production listed
  rw [single] at stands ⊢
  cases rest with
  | nil => exact absurd rfl nonempty
  | cons first others => simpa using stands

theorem NoneAcross.of_suffix {rest : Word} (noneAcross : NoneAcross productions left right)
    (suffix : rest <:+ left) : NoneAcross productions rest right :=
  fun production listed later laterSuffix =>
    noneAcross production listed later (laterSuffix.trans suffix)

/-- The candidate at a place of the left word does not depend on what is joined to it. -/
theorem NoneAcross.candidate?_append (noneAcross : NoneAcross productions left right)
    (nonempty : left ≠ []) :
    candidate? productions (left ++ right) = candidate? productions left := by
  apply List.find?_congr
  intro production listed
  rw [Bool.eq_iff_iff, applies_iff, applies_iff, Begins, Begins]
  apply and_congr_right
  intro _
  constructor
  · exact noneAcross production listed left (List.suffix_refl left) nonempty
  · intro stands
    exact stands.trans (List.prefix_append left right)

/-- What the candidate covers lies within the left word. -/
theorem length_le_of_candidate? {production : Production} {word : Word}
    (candidate : candidate? productions word = some production) :
    production.predecessor.length ≤ word.length :=
  (candidate?_eq_some_iff.mp candidate).1.2.length_le

end Production

namespace Piece

variable {productions : List Production} {right : Word}

/-- The pieces of two words joined are those of the first and then those of the second. -/
theorem cutFrom_append (left : Word) :
    (covered : Nat) → covered ≤ left.length → Production.NoneAcross productions left right →
      cutFrom productions covered (left ++ right) = (do
        let before ← cutFrom productions covered left
        let after ← cut productions right
        pure (before ++ after)) := by
  induction left with
  | nil =>
      intro covered inside _
      obtain rfl := Nat.le_zero.mp inside
      simp [cutFrom, cut]
  | cons symbol rest ih =>
      intro covered inside noneAcross
      have later := noneAcross.of_suffix (List.suffix_cons symbol rest)
      cases covered with
      | succ covered => exact ih covered (Nat.le_of_succ_le_succ inside) later
      | zero =>
          have candidate := noneAcross.candidate?_append (List.cons_ne_nil symbol rest)
          rw [List.cons_append] at candidate ⊢
          rw [cutFrom, cutFrom, candidate]
          have copies := ih 0 (Nat.zero_le _) later
          cases found : Production.candidate? productions (symbol :: rest) with
          | none => simp [copies]
          | some production =>
              have covers := Production.length_le_of_candidate? found
              rw [List.length_cons] at covers
              have replaces := ih (production.predecessor.length - 1)
                (Nat.sub_le_of_le_add covers) later
              simp only [copies, replaces, bind_assoc]
              apply bind_congr
              intro fired
              cases fired <;> simp

end Piece

/-- Move a group of branches up by the branches that come before. -/
def Budding.shift (before : Nat) (budding : Budding) : Budding :=
  { budding with position := budding.position + before }

namespace Generation

theorem buddingsFrom_add (before : Nat) (pieces : List Piece) :
    (emitted : Nat) →
      buddingsFrom (emitted + before) pieces =
        (buddingsFrom emitted pieces).map (Budding.shift before) := by
  induction pieces with
  | nil =>
      intro emitted
      rfl
  | cons piece rest ih =>
      intro emitted
      rw [buddingsFrom_cons, buddingsFrom_cons, Nat.add_right_comm, ih, List.map_append]
      congr 1
      split <;> rfl

theorem buddingsFrom_append (left right : List Piece) :
    (emitted : Nat) →
      buddingsFrom emitted (left ++ right) =
        buddingsFrom emitted left ++
          buddingsFrom (emitted + Word.branchCount (left.flatMap Piece.result)) right := by
  induction left with
  | nil =>
      intro emitted
      rfl
  | cons piece rest ih =>
      intro emitted
      rw [List.cons_append, buddingsFrom_cons, buddingsFrom_cons, ih, List.flatMap_cons,
        Word.branchCount_append, List.append_assoc, Nat.add_assoc]

/-- The groups of branches that the right pieces bring stand after all branches of the new left
word, whether these are copied or brought. -/
theorem buddings_ofPieces_append (left right : List Piece) :
    (ofPieces (left ++ right)).buddings =
      (ofPieces left).buddings ++
        (ofPieces right).buddings.map (Budding.shift (ofPieces left).word.branchCount) := by
  have moved := buddingsFrom_add (Word.branchCount (left.flatMap Piece.result)) right 0
  exact (buddingsFrom_append left right 0).trans (congrArg _ moved)

theorem newBranches_ofPieces_append (left right : List Piece) :
    (ofPieces (left ++ right)).newBranches =
      (ofPieces left).newBranches + (ofPieces right).newBranches := by
  simp only [newBranches_ofPieces, List.flatMap_append, Word.branchCount_append]

/-- A generation takes the next draws of the source, however many. -/
theorem exists_advance_next (productions : List Production) (word : Word) (draws : Draws) :
    ∃ count, (next productions word draws).2 = draws.advance count := by
  obtain ⟨turns, -, cut⟩ := Piece.exists_transcript_cutFrom productions word 0 draws
  refine ⟨turns.countP Turn.isChance, ?_⟩
  rw [next_apply, Piece.cut, cut]

/-- Where productions replace single symbols, a generation of two words joined is the generation
of the first followed by that of the second, which draws from where the first has stopped. -/
theorem next_append_of_isContextFree (productions : List Production)
    (contextFree : ∀ production ∈ productions, production.IsContextFree) (left right : Word)
    (draws : Draws) :
    let first := next productions left draws
    let second := next productions right first.2
    let whole := next productions (left ++ right) draws
    whole.1.word = first.1.word ++ second.1.word ∧
      whole.1.substitutions = first.1.substitutions + second.1.substitutions ∧
      whole.1.newBranches = first.1.newBranches + second.1.newBranches ∧
      whole.1.buddings =
        first.1.buddings ++ second.1.buddings.map (Budding.shift first.1.word.branchCount) ∧
      whole.2 = second.2 ∧
      ∃ before after, first.2 = draws.advance before ∧ second.2 = first.2.advance after ∧
        whole.2 = draws.advance (before + after) := by
  intro first second whole
  let before := (Piece.cut productions left draws).1
  let after := (Piece.cut productions right first.2).1
  have noneAcross := Production.noneAcross_of_isContextFree contextFree left right
  have firstEq : first = (ofPieces before, (Piece.cut productions left draws).2) :=
    next_apply productions left draws
  have secondEq : second = (ofPieces after, (Piece.cut productions right first.2).2) :=
    next_apply productions right first.2
  have joined : whole = (ofPieces (before ++ after), second.2) := by
    have cut := congrFun (Piece.cutFrom_append left 0 (Nat.zero_le _) noneAcross) draws
    have here := next_apply productions (left ++ right) draws
    rw [Piece.cut, cut] at here
    simp only [secondEq, after, firstEq]
    exact here
  rw [joined, congrArg Prod.fst firstEq, congrArg Prod.fst secondEq]
  refine ⟨List.flatMap_append, List.countP_append, newBranches_ofPieces_append before after,
    buddings_ofPieces_append before after, rfl, ?_⟩
  obtain ⟨drawnBefore, stopped⟩ := exists_advance_next productions left draws
  obtain ⟨drawnAfter, finished⟩ := exists_advance_next productions right first.2
  refine ⟨drawnBefore, drawnAfter, stopped, finished, ?_⟩
  rw [Draws.advance_add, ← stopped]
  exact finished

/-- A word of a tangle, divided within a branch.  The draw for the left word fails, those for the
right one do not, and their branches move up by the two brackets of the left one. -/
theorem next_append_tangle :
    let productions := Species.tangle.productions
    let left : Word := "[F[+FA".toList
    let right : Word := "][-FA]A]".toList
    let draws := Draws.ofSeed 0
    let first := next productions left draws
    let second := next productions right first.2
    let whole := next productions (left ++ right) draws
    (∀ production ∈ productions, production.IsContextFree) ∧
      first.1.word = left ∧ second.1.buddings = [⟨3, 1⟩, ⟨3, 4⟩] ∧
      whole.1.word = first.1.word ++ second.1.word ∧ whole.2 = second.2 ∧
      whole.1.buddings =
        first.1.buddings ++ second.1.buddings.map (Budding.shift first.1.word.branchCount) := by
  have single : ∀ production ∈ Species.tangle.productions,
      production.predecessor = ['A'] := by decide
  have contextFree : ∀ production ∈ Species.tangle.productions, production.IsContextFree :=
    fun production listed => ⟨'A', single production listed⟩
  have law := next_append_of_isContextFree Species.tangle.productions contextFree
    "[F[+FA".toList "][-FA]A]".toList (Draws.ofSeed 0)
  exact ⟨contextFree, by decide +kernel, by decide +kernel, law.1, law.2.2.2.2.1,
    law.2.2.2.1⟩

end Generation

end Arbor
