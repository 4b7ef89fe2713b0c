import Arbor.Proofs.Alignment
import Arbor.Proofs.PoseStack
import Arbor.Species.Library

/-!
# Plants hang together

A branch begins where the stack of a growth pass says, but its parent is recomputed in
every generation.  For rules with balanced successors both agree for ever: every branch
that has grown begins where its parent ends, or at the foot of the plant.
-/

namespace Arbor

/-- A grown branch begins at the end of its parent, which has grown, or at the position
of the plant if it has no parent. -/
def Branch.IsJoined (branch : Branch) (branches : List Branch) (position : Vec3) : Prop :=
  branch.isGrown = true →
    match branch.parent with
    | none => branch.base? = some position
    | some parent => ∃ around, branches[parent]? = some around ∧
        around.isGrown = true ∧ around.tip? = branch.base?

/-- Every grown branch of the plant is joined to its parent or to the ground. -/
def Plant.IsConnected (plant : Plant) : Prop :=
  ∀ branch ∈ plant.crown.branches, branch.IsJoined plant.crown.branches plant.position

/-- The same, for the record of a branch and the records around it. -/
def Record.IsAttached (record : Record) (around : List Record) (position : Vec3) : Prop :=
  record.nodes ≠ [] →
    match around with
    | [] => record.nodes.head? = some position
    | innermost :: _ => innermost.nodes ≠ [] ∧ innermost.nodes.getLast? = record.nodes.head?

/-- What the parent index says of a branch, the lineage says of its record. -/
theorem Branch.isJoined_iff_isAttached {branch : Branch} {branches : List Branch}
    {position : Vec3} {around : List Record}
    (parent_eq : branch.parent.map (fun parent => (branches.map Branch.record)[parent]?) =
      around.head?.map some) :
    branch.IsJoined branches position ↔ branch.record.IsAttached around position := by
  have grown_iff : ∀ branch : Branch, branch.isGrown = true ↔ branch.record.nodes ≠ [] := by
    intro branch
    simp [Branch.isGrown, Branch.record]
  unfold Branch.IsJoined Record.IsAttached
  rw [grown_iff branch]
  apply imp_congr_right
  intro _
  cases parent : branch.parent with
  | none =>
      cases around with
      | nil => rfl
      | cons innermost outer => simp [parent] at parent_eq
  | some parent =>
      cases around with
      | nil => simp [parent] at parent_eq
      | cons innermost outer =>
          simp only [parent, Option.map_some, List.head?_cons, Option.some.injEq,
            List.getElem?_map, Option.map_eq_some_iff] at parent_eq
          rcases parent_eq with ⟨enclosing, enclosing_at, rfl⟩
          constructor
          · rintro ⟨found, found_at, grown, joined⟩
            cases Option.some.inj (found_at.symm.trans enclosing_at)
            exact ⟨(grown_iff enclosing).mp grown, joined⟩
          · rintro ⟨grown, joined⟩
            exact ⟨enclosing, enclosing_at, (grown_iff enclosing).mpr grown, joined⟩

namespace Visit

variable {species : Species} {environment : Environment} {base : Vec3} {stack : PoseStack}
  {branches : List Branch} {draws : Draws} {index : Nat} {branch : Branch} {visit : Visit}

/-- What has grown stays joined, because its parent has grown and stays as it is. -/
theorem isJoined_of_isGrown (branch_at : branches[index]? = some branch)
    (visit_at : (along species environment stack branches draws).1[index]? = some visit)
    (grown : branch.isGrown = true) (joined : branch.IsJoined branches base) :
    visit.branch.IsJoined
      ((along species environment stack branches draws).1.map fun visit => visit.branch)
      base := by
  rw [branch_of_along_of_isGrown species environment branch_at visit_at grown]
  intro _
  have before := joined grown
  cases parent_eq : branch.parent with
  | none => simpa [parent_eq] using before
  | some parent =>
      simp only [parent_eq] at before
      rcases before with ⟨around, around_at, around_grown, tip_eq⟩
      refine ⟨around, ?_, around_grown, tip_eq⟩
      have inVisits :
          parent < (along species environment stack branches draws).1.length := by
        rw [length_along]
        exact (List.getElem?_eq_some_iff.mp around_at).1
      have parent_at := List.getElem?_eq_getElem inVisits
      rw [List.getElem?_map, parent_at, Option.map_some,
        branch_of_along_of_isGrown species environment around_at parent_at around_grown]

/-- What a pass grows begins at the top of the stack, where its parent ends. -/
theorem isJoined_of_not_isGrown {word : Word}
    (aligned : branches.map Branch.opening = word.outline)
    (branch_at : branches[index]? = some branch)
    (visit_at : (along species environment (PoseStack.single ⟨base, Vec3.up⟩) branches
      draws).1[index]? = some visit)
    (ungrown : branch.isGrown = false) :
    visit.branch.IsJoined
      ((along species environment (PoseStack.single ⟨base, Vec3.up⟩) branches draws).1.map
        fun visit => visit.branch)
      base := by
  intro _
  rw [parent_of_along species environment branch_at visit_at,
    base?_of_along_of_not_isGrown species environment branch_at visit_at ungrown]
  have start := (stack_of_aligned aligned rfl visit_at branch_at).2
  cases parent_eq : branch.parent with
  | none =>
      simp only [parent_eq] at start
      rw [start]
  | some parent =>
      simp only [parent_eq] at start
      rcases start with ⟨around, _, around_at, top_eq⟩
      rcases exit_of_along (List.mem_of_getElem? around_at) with ⟨_, tip, _, tip_eq, exit_eq⟩
      refine ⟨around.branch, ?_, ?_, ?_⟩
      · rw [List.getElem?_map, around_at, Option.map_some]
      · exact isGrown_of_along species environment (List.mem_of_getElem? around_at)
      · rw [tip_eq, top_eq, exit_eq]

end Visit

namespace Plant

variable {plant : Plant}

/-- A plant is connected if the records on the brackets of its word are attached to
those around them. -/
theorem IsAligned.isConnected_iff (aligned : plant.IsAligned) {marking : Marking Record}
    (word_eq : marking.word = plant.word)
    (owners_eq : marking.owners = plant.crown.branches.map Branch.record) :
    plant.IsConnected ↔
      ∀ entry ∈ marking.lineage [], entry.1.IsAttached entry.2 plant.position := by
  -- Branches and entries of the lineage correspond index by index.
  have joined_iff : ∀ {index : Nat} {branch : Branch} {entry : Record × List Record},
      plant.crown.branches[index]? = some branch →
      (marking.lineage [])[index]? = some entry →
      (branch.IsJoined plant.crown.branches plant.position ↔
        entry.1.IsAttached entry.2 plant.position) := by
    intro index branch entry branch_at entry_at
    have parent_eq := (aligned.place_of_lineage word_eq branch_at entry_at).2
    have record_eq : branch.record = entry.1 := by
      have owner_at := Marking.owner_of_lineage entry_at
      rw [owners_eq, List.getElem?_map, branch_at] at owner_at
      exact Option.some.inj owner_at
    rw [owners_eq] at parent_eq
    rw [← record_eq]
    exact Branch.isJoined_iff_isAttached parent_eq
  have sizes : (marking.lineage []).length = plant.crown.branches.length := by
    have sameLength := congrArg List.length (Marking.map_fst_lineage marking [])
    rwa [owners_eq, List.length_map, List.length_map] at sameLength
  constructor
  · intro connected entry member
    rcases List.getElem_of_mem member with ⟨index, inRange, rfl⟩
    have branch_at := List.getElem?_eq_getElem (sizes ▸ inRange)
    exact (joined_iff branch_at (List.getElem?_eq_getElem inRange)).mp
      (connected _ (List.mem_of_getElem? branch_at))
  · intro attached branch member
    rcases List.getElem_of_mem member with ⟨index, inRange, rfl⟩
    have entry_at := List.getElem?_eq_getElem (sizes ▸ inRange)
    exact (joined_iff (List.getElem?_eq_getElem inRange) entry_at).mpr
      (attached _ (List.mem_of_getElem? entry_at))

/-! ## Preservation -/

theorem isConnected_sow (species : Species) (point : Vec3) : (sow species point).IsConnected := by
  intro branch member grown
  have ungrown : branch.nodes = [] := congrArg Record.nodes (record_eq_ungrown_of_sow member)
  simp [Branch.isGrown, ungrown] at grown

/-- A pass joins what it grows, and what has grown stays joined. -/
theorem IsAligned.isConnected_grow (aligned : plant.IsAligned) (connected : plant.IsConnected)
    (environment : Environment) (draws : Draws) :
    (plant.grow environment draws).1.plant.IsConnected := by
  intro after member
  rcases List.mem_map.mp member with ⟨visit, visited, rfl⟩
  rcases List.getElem?_of_mem visited with ⟨index, visit_at⟩
  have inRange : index < plant.crown.branches.length := by
    rw [← Visit.length_along plant.species environment
      (PoseStack.single ⟨plant.position, Vec3.up⟩) plant.crown.branches draws]
    exact (List.getElem?_eq_some_iff.mp visit_at).1
  have branch_at := List.getElem?_eq_getElem inRange
  cases grown : plant.crown.branches[index].isGrown with
  | true =>
      have joined := connected _ (List.mem_of_getElem? branch_at)
      exact Visit.isJoined_of_isGrown branch_at visit_at grown joined
  | false => exact Visit.isJoined_of_not_isGrown aligned branch_at visit_at grown

/-- A generation with balanced successors leaves the brackets around a copied bracket as
they are, so that the old branches stay joined.  The new ones have not grown. -/
theorem IsAligned.isConnected_adopt (aligned : plant.IsAligned) (connected : plant.IsConnected)
    {productions : List Production} {pieces : List Piece}
    (reading : Marking.Reading productions plant.marking pieces)
    (balanced : ∀ production ∈ productions, production.IsBalanced) :
    (plant.adopt (Generation.ofPieces pieces)).IsConnected := by
  have unbracketed : ∀ production ∈ productions, '[' ∉ production.predecessor := by
    intro production listed
    exact (balanced production listed).1
  have old := (aligned.isConnected_iff plant.word_marking aligned.owners_marking).mp connected
  apply ((isAligned_adopt plant _).isConnected_iff (Marking.word_derive reading _ _)
    (aligned.records_adopt_eq_owners reading unbracketed).symm).mpr
  intro entry member
  rcases Marking.mem_lineage_derive reading balanced _ _ _ member with kept | sprouted
  · exact old entry kept
  · rcases sprouted with ⟨_, _, _, _, -, -, siblings⟩
    rcases (siblings entry.1 List.mem_cons_self).1 with ⟨number, fresh⟩
    intro grown
    rw [fresh] at grown
    exact absurd rfl grown

theorem isConnected_invariant : Invariant fun plant =>
    (∀ production ∈ plant.species.productions, production.IsBalanced) ∧
      plant.IsAligned ∧ plant.IsConnected where
  grow environment draws holds := by
    rcases holds with ⟨balanced, aligned, connected⟩
    exact ⟨balanced, isAligned_grow aligned environment draws,
      aligned.isConnected_grow connected environment draws⟩
  advance {plant next draws} advances holds := by
    rcases holds with ⟨balanced, aligned, connected⟩
    rcases advance?_eq_some_iff.mp advances with ⟨-, rfl⟩
    have reading := Piece.reading_cut plant.species.productions plant.word draws
    refine ⟨balanced, isAligned_adopt _ _, aligned.isConnected_adopt connected ?_ balanced⟩
    exact Marking.reading_of_word reading plant.marking (word_marking plant)

/-- Where successors are balanced and no predecessor has a bracket, every grown branch
begins at the end of its parent or at the position of the plant, whatever is done and
drawn. -/
theorem isConnected_run (species : Species) (point : Vec3)
    (balanced : ∀ production ∈ species.productions, production.IsBalanced)
    (actions : List Action) (draws : Draws) :
    ((sow species point).run actions draws).1.plant.IsConnected :=
  (isConnected_invariant.run actions draws
    ⟨balanced, isAligned_sow species point, isConnected_sow species point⟩).2.2

/-- The leafy tree hangs together after two generations. -/
theorem isConnected_leafyTree :
    let plant := ((sow Species.leafyTree ⟨1, 0, 2⟩).run [.update .noon, .advance, .grow .noon]
      (Draws.ofSeed 7)).1.plant
    plant.crown.branches.length = 13 ∧ plant.IsConnected :=
  ⟨by decide +kernel, isConnected_run Species.leafyTree _ (by decide) _ _⟩

end Plant

end Arbor
