import Arbor.Grammar
import Arbor.Proofs.Alignment

/-!
# Predecessors with brackets

A generation that replaces a predecessor with opening brackets removes these from the
word, but nothing tells the crown which ones.  The old branches go to the copied
brackets from the left, and those for which no bracket is left are dropped.  So a
copied bracket keeps its record as long as none is consumed to the left of it, and one
to the right of a consumed bracket gets the record of another.
-/

namespace Arbor

namespace Piece

/-- No opening bracket is consumed to the left of a copied one. -/
def ConsumesLast (pieces : List Piece) : Prop :=
  pieces.Pairwise fun earlier later => '[' ∉ earlier.consumed ∨ later ≠ copied '['

instance (pieces : List Piece) : Decidable (ConsumesLast pieces) :=
  inferInstanceAs (Decidable (pieces.Pairwise _))

/-- The same, seen from every copied bracket. -/
theorem consumesLast_iff (pieces : List Piece) :
    ConsumesLast pieces ↔
      ∀ before after, pieces = before ++ copied '[' :: after →
        '[' ∉ before.flatMap consumed := by
  constructor
  · intro last before after split inBefore
    rw [ConsumesLast, split, List.pairwise_append] at last
    rcases List.mem_flatMap.mp inBefore with ⟨piece, member, inPiece⟩
    rcases last.2.2 piece member (copied '[') List.mem_cons_self with absent | different
    · exact absent inPiece
    · exact different rfl
  · intro absent
    induction pieces with
    | nil => exact List.Pairwise.nil
    | cons piece rest ih =>
        apply List.Pairwise.cons
        · intro later member
          by_cases copies : later = copied '['
          · subst copies
            rcases List.append_of_mem member with ⟨before, after, rfl⟩
            apply Or.inl
            intro inPiece
            apply absent (piece :: before) after rfl
            exact List.mem_append_left _ inPiece
          · exact Or.inr copies
        · apply ih
          intro before after split inBefore
          apply absent (piece :: before) after
          · rw [split, List.cons_append]
          · exact List.mem_append_right _ inBefore

/-- The copied brackets take the values of the queue from the left. -/
theorem getElem?_deal {Value : Type} (fresh : Nat → Value) (after before : List Piece) :
    (allocated : Nat) → (queue : List Value) → before.count (copied '[') < queue.length →
      (deal fresh allocated (before ++ copied '[' :: after) queue)[
          before.count (copied '[') + Word.branchCount (before.flatMap begun)]? =
        queue[before.count (copied '[')]? := by
  induction before with
  | nil =>
      intro allocated queue enough
      cases queue with
      | nil => simp at enough
      | cons value queue => rfl
  | cons piece before ih =>
      intro allocated queue enough
      rw [List.cons_append, List.flatMap_cons, Word.branchCount_append]
      cases piece with
      | replaced production =>
          have unchanged : (replaced production :: before).count (copied '[') =
              before.count (copied '[') := List.count_cons_of_ne (by simp)
          have buds : ((List.range' allocated production.branchCount).map fresh).length =
              Word.branchCount (replaced production).begun := by
            rw [List.length_map, List.length_range', begun, Production.branchCount]
          rw [unchanged] at enough ⊢
          rw [deal, Nat.add_left_comm, ← buds, List.getElem?_append_right (Nat.le_add_right _ _),
            Nat.add_sub_cancel_left]
          exact ih (allocated + production.branchCount) queue enough
      | copied symbol =>
          rw [begun, Word.branchCount_nil, Nat.zero_add]
          by_cases opening : symbol = '['
          · subst opening
            cases queue with
            | nil => simp at enough
            | cons value queue =>
                rw [List.count_cons_self] at enough ⊢
                rw [Nat.add_right_comm]
                exact ih allocated queue (Nat.lt_of_succ_lt_succ enough)
          · have unchanged : (copied symbol :: before).count (copied '[') =
                before.count (copied '[') := List.count_cons_of_ne (by simpa using opening)
            rw [unchanged] at enough ⊢
            rw [deal_copied_plain fresh allocated opening]
            exact ih allocated queue enough

end Piece

namespace Plant

open Piece

/-- The record of the branch with the given index. -/
def record? (plant : Plant) (index : Nat) : Option Record :=
  (plant.crown.branches.map Branch.record)[index]?

/-- Every bracket that is copied has the record in the next plant that it has had.  A
bracket is found by the number of brackets before it, in either word. -/
def KeepsCopied (plant next : Plant) (pieces : List Piece) : Prop :=
  ∀ before after, pieces = before ++ copied '[' :: after →
    next.record? (Word.branchCount (before.flatMap result)) =
      plant.record? (Word.branchCount (before.flatMap source))

variable {plant : Plant}

/-- The copied brackets take the old records from the left. -/
theorem IsAligned.record?_adopt (aligned : plant.IsAligned) {before after : List Piece}
    (sources : (before ++ copied '[' :: after).flatMap source = plant.word) :
    (plant.adopt (Generation.ofPieces (before ++ copied '[' :: after))).record?
        (Word.branchCount (before.flatMap result)) =
      plant.record? (before.count (copied '[')) := by
  have inWord : Word.branchCount (before.flatMap result) <
      Word.branchCount ((before ++ copied '[' :: after).flatMap result) := by
    have here : Word.branchCount (copied '[').result = 1 := rfl
    rw [List.flatMap_append, List.flatMap_cons, Word.branchCount_append,
      Word.branchCount_append, here]
    omega
  have enough : before.count (copied '[') < (plant.crown.branches.map Branch.record).length := by
    rw [List.length_map, aligned.length_branches, ← sources, branchCount_flatMap_source,
      List.count_append, List.count_cons_self]
    omega
  rw [record?, records_adopt plant sources aligned.length_branches,
    List.getElem?_take_of_lt inWord, branchCount_flatMap_result]
  exact getElem?_deal _ after before 0 _ enough

/-- Whatever is done and drawn, in a generation the copied brackets take the old records
from the left.  They keep their own where no bracket is consumed to the left of a
copied one, and, if all records are different, only there. -/
theorem keepsCopied_iff_consumesLast (species : Species) (point : Vec3)
    (actions : List Action) (draws drawsThen : Draws) {next : Plant}
    (advances :
      (((sow species point).run actions draws).1.plant.advance? drawsThen).1 = some next) :
    let plant := ((sow species point).run actions draws).1.plant
    let pieces := (Piece.cut plant.species.productions plant.word drawsThen).1
    plant.word = pieces.flatMap source ∧ next.word = pieces.flatMap result ∧
      (∀ before after, pieces = before ++ copied '[' :: after →
        next.record? (Word.branchCount (before.flatMap result)) =
          plant.record? (before.count (copied '['))) ∧
      (ConsumesLast pieces → plant.KeepsCopied next pieces) ∧
      ((plant.crown.branches.map Branch.record).Nodup →
        (plant.KeepsCopied next pieces ↔ ConsumesLast pieces)) := by
  intro plant pieces
  have aligned : plant.IsAligned := isAligned_run species point actions draws
  have sources : pieces.flatMap source = plant.word :=
    (Piece.reading_cut plant.species.productions plant.word drawsThen).flatMap_source
  rcases advance?_eq_some_iff.mp advances with ⟨-, rfl⟩
  have taken : ∀ before after, pieces = before ++ copied '[' :: after →
      (plant.adopt (Generation.ofPieces pieces)).record?
          (Word.branchCount (before.flatMap result)) =
        plant.record? (before.count (copied '[')) := by
    intro before after split
    rw [split] at sources ⊢
    exact aligned.record?_adopt sources
  have sufficient : ConsumesLast pieces →
      plant.KeepsCopied (plant.adopt (Generation.ofPieces pieces)) pieces := by
    intro last before after split
    have absent := (consumesLast_iff pieces).mp last before after split
    rw [taken before after split, branchCount_flatMap_source, Word.branchCount,
      List.count_eq_zero.mpr absent, Nat.add_zero]
  refine ⟨sources.symm, rfl, taken, sufficient, ?_⟩
  intro distinct
  constructor
  · intro keeps
    apply (consumesLast_iff pieces).mpr
    intro before after split
    have same := (taken before after split).symm.trans (keeps before after split)
    have inRange :
        before.count (copied '[') < (plant.crown.branches.map Branch.record).length := by
      rw [List.length_map, aligned.length_branches, ← sources, split,
        branchCount_flatMap_source, List.count_append, List.count_cons_self]
      omega
    have equal := (List.getElem?_inj inRange distinct).mp same
    rw [branchCount_flatMap_source] at equal
    exact List.count_eq_zero.mp (Nat.left_eq_add.mp equal)
  · exact sufficient

/-- Where the last bracket is consumed, the others keep their records. -/
theorem keepsCopied_of_last_consumed :
    let species := { Species.plain with
      initiator := "[C][A]".toList, productions := [.certain "[A]".toList "F".toList] }
    let draws := Draws.start fun _ => 0
    let plant := ((sow species ⟨0, 0, 0⟩).run [.grow .noon] draws).1.plant
    let pieces := (Piece.cut plant.species.productions plant.word draws).1
    let next := plant.adopt (Generation.ofPieces pieces)
    (plant.advance? draws).1 = some next ∧ plant.KeepsCopied next pieces := by
  intro species draws plant pieces next
  have advances : (plant.advance? draws).1 = some next :=
    advance?_eq_some_iff.mpr ⟨by decide, rfl⟩
  have last : ConsumesLast pieces := by decide +kernel
  exact ⟨advances, (keepsCopied_iff_consumesLast species _ _ draws draws advances).2.2.2.1 last⟩

/-- A bracket that is consumed to the left of another one leaves its record to that one,
whose own record is lost. -/
theorem not_keepsCopied_of_first_consumed :
    let rules := RuleList.read "C=A\nB=[F]\n[A]=F".toList
    let species := { Species.plain with
      initiator := "[C]B".toList, productions := rules.productions
      controlPoints := 2, maxDeviation := 0 }
    let draws := Draws.start fun _ => 0
    let plant := ((sow species ⟨0, 0, 0⟩).run [.advance, .grow .noon] draws).1.plant
    let pieces := (Piece.cut plant.species.productions plant.word draws).1
    rules.rejections = [] ∧ plant.word = "[A][F]".toList ∧
      ∃ next, (plant.advance? draws).1 = some next ∧ next.word = "F[F]".toList ∧
        ¬ plant.KeepsCopied next pieces := by
  intro rules species draws plant pieces
  refine ⟨by decide +kernel, by decide +kernel, plant.adopt (Generation.ofPieces pieces),
    advance?_eq_some_iff.mpr ⟨by decide +kernel, rfl⟩, by decide +kernel, ?_⟩
  intro keeps
  have split : pieces = [.replaced (.certain "[A]".toList "F".toList)] ++
      .copied '[' :: [.copied 'F', .copied ']'] := by decide +kernel
  have first := keeps _ _ split
  exact absurd first (by decide +kernel)

end Plant

end Arbor
