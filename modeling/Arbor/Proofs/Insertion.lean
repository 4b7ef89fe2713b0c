import Arbor.Proofs.Alignment
import Arbor.Proofs.Enclosure
import Arbor.Proofs.Transcript

/-!
# Room for buds

A budding names the place of its buds among the branches of the new word, but it is applied
to a crown that has the branches of the old word behind that place.  Beyond the end of the
crown buds would be appended without a sign that their place was wrong, and aligning would
fill up a crown that is too short.  Neither ever happens: up to every place the crown has as
many branches as the new word, and at the end it has those of the consumed brackets besides.
-/

namespace Arbor

namespace Crown

/-- Insert the buds of buddings, one group after the other. -/
def insertAll (crown : Crown) (buddings : List Budding) (creationDepth : Nat) : Crown :=
  buddings.foldl
    (fun crown budding => crown.insertBuds budding.count budding.position creationDepth) crown

/-- No budding has its place beyond the end of the crown, as the crown is when those before
have been applied. -/
def HasRoomFor (crown : Crown) (buddings : List Budding) (creationDepth : Nat) : Prop :=
  ∀ before budding after, buddings = before ++ budding :: after →
    budding.position ≤ (crown.insertAll before creationDepth).branches.length

variable {crown : Crown} {creationDepth : Nat}

@[simp] theorem insertAll_nil (crown : Crown) (creationDepth : Nat) :
    crown.insertAll [] creationDepth = crown := rfl

@[simp] theorem insertAll_cons (crown : Crown) (budding : Budding) (rest : List Budding)
    (creationDepth : Nat) :
    crown.insertAll (budding :: rest) creationDepth =
      (crown.insertBuds budding.count budding.position creationDepth).insertAll rest
        creationDepth := rfl

/-- Wherever buds are inserted, the crown has them in addition. -/
@[simp] theorem length_insertBuds (crown : Crown) (count position creationDepth : Nat) :
    (crown.insertBuds count position creationDepth).branches.length =
      crown.branches.length + count := by
  simp only [insertBuds, List.length_append, List.length_take, List.length_drop, length_buds]
  omega

theorem length_insertAll (creationDepth : Nat) (buddings : List Budding) :
    (crown : Crown) →
      (crown.insertAll buddings creationDepth).branches.length =
        crown.branches.length +
          buddings.foldr (fun budding total => budding.count + total) 0 := by
  induction buddings with
  | nil =>
      intro crown
      rfl
  | cons budding rest ih =>
      intro crown
      rw [insertAll_cons, ih, length_insertBuds, List.foldr_cons, Nat.add_assoc]

/-! ## Room -/

theorem hasRoomFor_nil : crown.HasRoomFor [] creationDepth := by
  intro before budding after split
  simp at split

theorem hasRoomFor_cons {budding : Budding} {rest : List Budding} :
    crown.HasRoomFor (budding :: rest) creationDepth ↔
      budding.position ≤ crown.branches.length ∧
        (crown.insertBuds budding.count budding.position creationDepth).HasRoomFor rest
          creationDepth := by
  constructor
  · intro room
    refine ⟨room [] budding rest rfl, ?_⟩
    rintro before later after rfl
    exact room (budding :: before) later after rfl
  · rintro ⟨first, room⟩ before later after split
    cases before with
    | nil =>
        obtain ⟨rfl, -⟩ := List.cons.inj split
        exact first
    | cons other before =>
        obtain ⟨rfl, others⟩ := List.cons.inj split
        exact room before later after others

/-- What a crown needs while pieces are read: the branches that have been passed over and one
for each bracket that is still to be copied. -/
theorem hasRoomFor_buddingsFrom (creationDepth : Nat) (pieces : List Piece) :
    (emitted : Nat) → (crown : Crown) →
      emitted + pieces.count (.copied '[') ≤ crown.branches.length →
      crown.HasRoomFor (Generation.buddingsFrom emitted pieces) creationDepth := by
  induction pieces with
  | nil =>
      intro emitted crown _
      exact hasRoomFor_nil
  | cons piece rest ih =>
      intro emitted crown enough
      cases piece with
      | copied symbol =>
          apply ih
          rw [List.count_cons] at enough
          simp only [beq_iff_eq, Piece.copied.injEq] at enough
          rw [Piece.branchCount_singleton]
          omega
      | replaced production =>
          rw [List.count_cons_of_ne (by simp)] at enough
          rw [Generation.buddingsFrom]
          by_cases none : production.branchCount = 0
          · rw [if_pos none]
            exact ih emitted crown enough
          · rw [if_neg none, hasRoomFor_cons]
            refine ⟨Nat.le_of_add_right_le enough, ?_⟩
            apply ih
            rw [length_insertBuds]
            dsimp only
            omega

/-! ## Aligning a crown that is long enough -/

/-- Aligning a crown that has a branch for every bracket makes no new ones.  Those for which
there is no bracket are dropped from its end. -/
theorem exists_dropped_of_le {word : Word} (enough : word.branchCount ≤ crown.branches.length)
    (creationDepth : Nat) :
    (crown.align word creationDepth).nextId = crown.nextId ∧
      ∃ dropped, dropped.length = crown.branches.length - word.branchCount ∧
        (crown.align word creationDepth).branches.map Branch.record ++ dropped =
          crown.branches.map Branch.record := by
  have noneMissing := Nat.sub_eq_zero_of_le enough
  constructor
  · simp [align, noneMissing]
  · refine ⟨(crown.branches.map Branch.record).drop word.branchCount, by simp, ?_⟩
    rw [map_record_align, noneMissing, List.range_zero, List.map_nil, List.append_nil,
      List.take_append_drop]

end Crown

namespace Plant

open Piece

variable {plant : Plant} {pieces : List Piece}

theorem crown_adopt_eq_align (plant : Plant) (generation : Generation) :
    (plant.adopt generation).crown =
      (plant.crown.insertAll generation.buddings (plant.depth + 1)).align generation.word
        (plant.depth + 1) := rfl

/-- Before a generation the crown has the branches that are copied and those that are consumed. -/
theorem IsAligned.length_branches_of_sources (aligned : plant.IsAligned)
    (sources : pieces.flatMap source = plant.word) :
    plant.crown.branches.length =
      pieces.count (copied '[') + Word.branchCount (pieces.flatMap consumed) := by
  rw [aligned.length_branches, ← sources, branchCount_flatMap_source]

theorem IsAligned.hasRoomFor (aligned : plant.IsAligned)
    (sources : pieces.flatMap source = plant.word) (creationDepth : Nat) :
    plant.crown.HasRoomFor (Generation.ofPieces pieces).buddings creationDepth := by
  apply Crown.hasRoomFor_buddingsFrom
  rw [Nat.zero_add, aligned.length_branches_of_sources sources]
  exact Nat.le_add_right _ _

/-- With all buds the crown has the branches of the new word and those of the consumed
brackets. -/
theorem IsAligned.length_insertAll (aligned : plant.IsAligned)
    (sources : pieces.flatMap source = plant.word) (creationDepth : Nat) :
    (plant.crown.insertAll (Generation.ofPieces pieces).buddings creationDepth).branches.length =
      (Generation.ofPieces pieces).word.branchCount +
        Word.branchCount (pieces.flatMap consumed) := by
  have new : (Generation.ofPieces pieces).word.branchCount =
      pieces.count (copied '[') + Word.branchCount (pieces.flatMap begun) :=
    branchCount_flatMap_result pieces
  have buds := Generation.newBranches_ofPieces pieces
  rw [Generation.newBranches] at buds
  rw [Crown.length_insertAll, buds, aligned.length_branches_of_sources sources, new]
  exact Nat.add_right_comm _ _ _

/-- Whatever is done and drawn, and whatever brackets the predecessors have, in a generation
every group of buds has its place within the crown.  With all buds the crown has the branches
of the new word and as many others as brackets are consumed, so that aligning makes no new
branch and drops just these from the end. -/
theorem hasRoomFor_of_run (species : Species) (point : Vec3) (actions : List Action)
    (draws drawsThen : Draws) {next : Plant}
    (advances :
      (((sow species point).run actions draws).1.plant.advance? drawsThen).1 = some next) :
    let plant := ((sow species point).run actions draws).1.plant
    let pieces := (Piece.cut plant.species.productions plant.word drawsThen).1
    let generation := Generation.ofPieces pieces
    let budded := plant.crown.insertAll generation.buddings next.depth
    let spent := Word.branchCount (pieces.flatMap consumed)
    plant.word = pieces.flatMap source ∧ next.word = pieces.flatMap result ∧
      next.crown = budded.align next.word next.depth ∧
      plant.crown.HasRoomFor generation.buddings next.depth ∧
      budded.branches.length = next.word.branchCount + spent ∧
      next.crown.nextId = budded.nextId ∧
      ∃ dropped, dropped.length = spent ∧
        next.crown.branches.map Branch.record ++ dropped =
          budded.branches.map Branch.record := by
  intro plant pieces generation
  have aligned : plant.IsAligned := isAligned_run species point actions draws
  have sources : pieces.flatMap source = plant.word :=
    (Piece.reading_cut plant.species.productions plant.word drawsThen).flatMap_source
  obtain ⟨-, rfl⟩ := advance?_eq_some_iff.mp advances
  intro budded spent
  have length : budded.branches.length = generation.word.branchCount + spent :=
    aligned.length_insertAll sources (plant.depth + 1)
  have enough : generation.word.branchCount ≤ budded.branches.length := by
    rw [length]
    exact Nat.le_add_right _ _
  obtain ⟨nextId, dropped, count, records⟩ :=
    Crown.exists_dropped_of_le enough (plant.depth + 1)
  rw [length, Nat.add_sub_cancel_left] at count
  exact ⟨sources.symm, rfl, crown_adopt_eq_align plant generation,
    aligned.hasRoomFor sources (plant.depth + 1), length, nextId, dropped, count, records⟩

/-- The bracket of the first branch is consumed, so that one branch is left over at the end. -/
theorem hasRoomFor_of_first_consumed :
    let species := { Species.plain with
      initiator := "[A]B[C]".toList
      productions := [.certain "[A]".toList "[F][G[H]]".toList,
        .certain "B".toList "[F]".toList] }
    let draws := Draws.start fun _ => 0
    let plant := ((sow species ⟨0, 0, 0⟩).run [.grow .noon] draws).1.plant
    let generation := (Generation.next plant.species.productions plant.word draws).1
    let next := plant.adopt generation
    (plant.advance? draws).1 = some next ∧ next.word = "[F][G[H]][F][C]".toList ∧
      generation.buddings = [⟨3, 0⟩, ⟨1, 3⟩] ∧
      plant.crown.HasRoomFor generation.buddings next.depth ∧
      (plant.crown.insertAll generation.buddings next.depth).branches.length =
        next.word.branchCount + 1 := by
  intro species draws plant generation next
  have pieces : generation =
      Generation.ofPieces (Piece.cut plant.species.productions plant.word draws).1 :=
    congrArg Prod.fst (Generation.next_apply _ _ _)
  have advances : (plant.advance? draws).1 = some next :=
    advance?_eq_some_iff.mpr ⟨by decide, congrArg plant.adopt pieces⟩
  obtain ⟨-, -, -, room, length, -⟩ :=
    hasRoomFor_of_run species ⟨0, 0, 0⟩ [.grow .noon] draws draws advances
  rw [← pieces] at room length
  refine ⟨advances, by decide +kernel, by decide +kernel, room, length.trans ?_⟩
  decide +kernel

end Plant

end Arbor
