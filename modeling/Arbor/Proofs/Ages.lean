import Arbor.Proofs.Alignment
import Arbor.Proofs.Identity

/-!
# The ages of branches

The crown of a plant is always the one that its word asks for, even where productions
consume brackets or leave them without partners.  What the word does not tell is when a
branch has entered it.  No branch is older than that says, and those of generation zero are
the ones with which the plant was sown: their identifiers are the first that were issued.
-/

namespace Arbor

namespace Plant

/-- No record comes from a later generation than the plant, and those of generation zero
have identifiers below the given number. -/
def IsDated (first : Nat) (plant : Plant) : Prop :=
  ∀ record ∈ plant.crown.records, record.creationDepth ≤ plant.depth ∧
    (record.creationDepth = 0 → record.id.toNat < first)

variable {plant : Plant} {first : Nat}

theorem isDated_sow (species : Species) (point : Vec3) :
    (sow species point).IsDated species.initiator.enclosed.branchCount := by
  intro record member
  rcases List.mem_map.mp member with ⟨branch, branch_mem, rfl⟩
  have newborn := congrArg Record.creationDepth (record_eq_ungrown_of_sow branch_mem)
  refine ⟨Nat.le_of_eq newborn, fun _ => ?_⟩
  rcases List.getElem_of_mem branch_mem with ⟨index, inRange, rfl⟩
  have id_eq : (sow species point).crown.branches[index].record.id = UInt32.ofNat index := by
    simp [sow, Crown.ofWord, Crown.align, Crown.empty, Crown.buds, Branch.bud, Branch.place,
      Branch.record]
  rw [(isAligned_sow species point).length_branches] at inRange
  rw [id_eq, UInt32.toNat_ofNat']
  exact Nat.lt_of_le_of_lt (Nat.mod_le _ _) inRange

/-- After a growth pass every record has ripened from one that was there before. -/
theorem exists_ripenedFrom_grow (environment : Environment) (draws : Draws) {record : Record}
    (member : record ∈ (plant.grow environment draws).1.plant.crown.records) :
    ∃ before ∈ plant.crown.records, record.RipenedFrom before := by
  have ripened := Pass.forall₂_ripenedFrom plant.species environment plant.position
    plant.crown.branches draws
  exact Record.exists_ripenedFrom
    (List.sublistForall₂_iff.mpr ⟨_, ripened, List.Sublist.refl _⟩) member

/-- A record of the next generation is an old one or that of a new branch. -/
theorem IsAligned.mem_records_adopt (aligned : plant.IsAligned) {pieces : List Piece}
    (sources : pieces.flatMap Piece.source = plant.word) {record : Record}
    (member : record ∈ (plant.adopt (Generation.ofPieces pieces)).crown.records) :
    record ∈ plant.crown.records ∨ ∃ number, record = plant.freshRecord number := by
  rw [Crown.records, records_adopt plant sources aligned.length_branches] at member
  have dealt := (Piece.perm_deal _ _ _ _).subset (List.mem_of_mem_take member)
  apply (List.mem_append.mp dealt).imp_right
  intro new
  rcases List.mem_map.mp new with ⟨number, -, equal⟩
  exact ⟨number, equal.symm⟩

theorem isDated_invariant (first : Nat) : Invariant fun plant =>
    plant.IsAligned ∧ plant.IsDated first where
  grow environment draws holds := by
    refine ⟨isAligned_grow holds.1 environment draws, ?_⟩
    intro record member
    rcases exists_ripenedFrom_grow environment draws member with ⟨before, before_mem, ripened⟩
    rw [ripened.creationDepth_eq, ripened.id_eq]
    exact holds.2 before before_mem
  advance {plant _ draws} advances holds := by
    rcases advance?_eq_some_iff.mp advances with ⟨-, rfl⟩
    have reading := Piece.reading_cut plant.species.productions plant.word draws
    refine ⟨isAligned_adopt _ _, ?_⟩
    intro record member
    rcases holds.1.mem_records_adopt reading.flatMap_source member with old | ⟨number, rfl⟩
    · rcases holds.2 record old with ⟨young, early⟩
      exact ⟨Nat.le_succ_of_le young, early⟩
    · exact ⟨Nat.le_refl _, fun newborn => absurd newborn (Nat.succ_ne_zero _)⟩

/-- As long as no more identifiers are given away than there are, the first ones mean the
branches with which the plant was sown. -/
theorem creationDepth_eq_zero_of_id_lt (species : Species) (point : Vec3)
    (actions : List Action) (draws : Draws)
    (few : Crown.empty.allocated (history species point actions draws) ≤ UInt32.size)
    {record : Record}
    (member : record ∈ ((sow species point).run actions draws).1.plant.crown.records)
    (early : record.id.toNat < species.initiator.enclosed.branchCount) :
    record.creationDepth = 0 := by
  let first := species.initiator.enclosed.branchCount
  rw [history, Crown.allocated] at few
  have demand : Crown.empty.demand (.align species.initiator.enclosed 0) = first := rfl
  rw [demand] at few
  have numbered := (Crown.isNumbered_empty.edit (.align species.initiator.enclosed 0)
    (by rw [Nat.zero_add, demand]; exact Nat.le_of_add_right_le few)).1
  rw [Nat.zero_add, demand] at numbered
  have evolves := (numbered.editAll _ few).2
  rw [crown_run] at member
  rcases Record.exists_ripenedFrom evolves
    (List.mem_filter.mpr ⟨member, decide_eq_true early⟩) with ⟨source, source_mem, ripened⟩
  rcases List.mem_map.mp source_mem with ⟨branch, branch_mem, rfl⟩
  rw [ripened.creationDepth_eq]
  have sown : branch ∈ (sow species point).crown.branches := branch_mem
  exact congrArg Record.creationDepth (record_eq_ungrown_of_sow sown)

/-- Whatever productions do to the brackets, the crown has the branches of the word, no
branch is younger than the plant, and those of generation zero are the ones with which it
was sown. -/
theorem inStep_run (species : Species) (point : Vec3) (actions : List Action) (draws : Draws)
    (creationDepth : Nat) :
    let plant := ((sow species point).run actions draws).1.plant
    let first := species.initiator.enclosed.branchCount
    plant.crown.branches.map Branch.opening =
        (Crown.ofWord plant.word creationDepth).branches.map Branch.opening ∧
      plant.crown.branches.length = plant.word.branchCount ∧
      (∀ branch ∈ plant.crown.branches, branch.creationDepth ≤ plant.depth) ∧
      (∀ branch ∈ plant.crown.branches, branch.creationDepth = 0 → branch.id.toNat < first) ∧
      (Crown.empty.allocated (history species point actions draws) ≤ UInt32.size →
        ∀ branch ∈ plant.crown.branches, branch.id.toNat < first → branch.creationDepth = 0) := by
  intro plant first
  rcases (isDated_invariant first).run actions draws
    ⟨isAligned_sow species point, isDated_sow species point⟩ with ⟨aligned, dated⟩
  have recorded : ∀ branch ∈ plant.crown.branches, branch.record ∈ plant.crown.records :=
    fun _ => List.mem_map_of_mem
  refine ⟨?_, aligned.length_branches, ?_, ?_, ?_⟩
  · rw [Crown.ofWord, Crown.map_opening_align]
    exact aligned
  · intro branch member
    exact (dated _ (recorded branch member)).1
  · intro branch member
    exact (dated _ (recorded branch member)).2
  · intro few branch member early
    exact creationDepth_eq_zero_of_id_lt species point actions draws few
      (recorded branch member) early

/-- A branch of the first word takes the place of a younger one when its own bracket is
consumed.  Its identifier and its generation go with it. -/
theorem inStep_of_first_consumed :
    let species := { Species.plain with
      initiator := "[C]B".toList
      productions := [.certain "C".toList "A".toList, .certain "B".toList "[F]".toList,
        .certain "[A]".toList "F".toList] }
    let draws := Draws.start fun _ => 0
    let actions := [Action.advance, .grow .noon, .advance]
    let plant := ((sow species ⟨0, 0, 0⟩).run actions draws).1.plant
    let first := species.initiator.enclosed.branchCount
    plant.word = "F[F]".toList ∧
      Crown.empty.allocated (history species ⟨0, 0, 0⟩ actions draws) ≤ UInt32.size ∧
      plant.crown.branches.length = plant.word.branchCount ∧
      ∀ branch ∈ plant.crown.branches, branch.id.toNat < first ∧ branch.creationDepth = 0 := by
  intro species draws actions
  have few : Crown.empty.allocated (history species ⟨0, 0, 0⟩ actions draws) ≤ UInt32.size := by
    decide +kernel
  have early : ∀ branch ∈ ((sow species ⟨0, 0, 0⟩).run actions draws).1.plant.crown.branches,
      branch.id.toNat < species.initiator.enclosed.branchCount := by decide +kernel
  rcases inStep_run species ⟨0, 0, 0⟩ actions draws 2 with ⟨-, counted, -, -, sown⟩
  refine ⟨by decide +kernel, few, counted, ?_⟩
  intro branch member
  exact ⟨early branch member, sown few branch member (early branch member)⟩

end Plant

end Arbor
