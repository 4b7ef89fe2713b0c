import Arbor.Proofs.Accounts
import Arbor.Species.Library

/-!
# Maturity

A plant is mature when it has derived all generations and every branch has grown.  How many
updates are left until then can be told from its depth and its branches, whatever will be
drawn: an update leaves no branch ungrown and derives one generation.  On a mature plant
nothing has any effect.
-/

namespace Arbor

/-! ## Passes over branches that have grown -/

/-- A visit to a branch that has grown already. -/
def BranchGrowth.still (branch : Branch) : BranchGrowth := ⟨branch, [], 0⟩

/-- Where all branches have grown, a pass draws nothing and grows nothing. -/
theorem Visit.along_of_isGrown (species : Species) (environment : Environment)
    (branches : List Branch) :
    (stack : PoseStack) → (draws : Draws) → (∀ branch ∈ branches, branch.isGrown = true) →
      (along species environment stack branches draws).1.map Visit.toBranchGrowth =
          branches.map BranchGrowth.still ∧
        (along species environment stack branches draws).2 = draws := by
  induction branches with
  | nil =>
      intro stack draws grown
      exact ⟨rfl, rfl⟩
  | cons branch rest ih =>
      intro stack draws grown
      rw [List.forall_mem_cons] at grown
      simp only [along, Drawing.bind_apply, Drawing.pure_apply,
        Branch.growOnce_of_isGrown _ _ _ _ _ grown.1]
      rcases ih ((stack.unwind branch.nesting).push
        (branch.exit (stack.unwind branch.nesting).top)) draws grown.2 with ⟨later, same⟩
      rw [List.map_cons, later, same]
      exact ⟨rfl, rfl⟩

theorem Pass.run_of_isGrown (species : Species) (environment : Environment) (base : Vec3)
    (branches : List Branch) (draws : Draws)
    (grown : ∀ branch ∈ branches, branch.isGrown = true) :
    run species environment base branches draws = (⟨branches, [], 0⟩, draws) := by
  rcases Visit.along_of_isGrown species environment branches
    (PoseStack.single ⟨base, Vec3.up⟩) draws grown with ⟨visits, same⟩
  have columns : ∀ {Value : Type} (column : BranchGrowth → Value),
      (Visit.along species environment (PoseStack.single ⟨base, Vec3.up⟩) branches
          draws).1.map (fun visit => column visit.toBranchGrowth) =
        branches.map fun branch => column (.still branch) := by
    intro Value column
    simpa [Function.comp_def] using congrArg (List.map column) visits
  simp only [run, Drawing.bind_apply, Drawing.pure_apply, same, ofVisits, List.flatMap_def,
    columns BranchGrowth.branch, columns BranchGrowth.segments, columns BranchGrowth.tally]
  simp [BranchGrowth.still, List.map_const', Tally.sum_eq]

namespace Plant

/-- Every branch has grown. -/
def isFullyGrown (plant : Plant) : Bool :=
  plant.crown.branches.all Branch.isGrown

/-- The number of updates until the plant is mature: one for each generation that is left,
and at least one if a branch has not grown. -/
def updatesLeft (plant : Plant) : Nat :=
  max (plant.species.maxDepth - plant.depth) (if plant.isFullyGrown then 0 else 1)

/-- A plant is mature when no updates are left. -/
theorem isMature_iff (plant : Plant) : plant.isMature = true ↔ plant.updatesLeft = 0 := by
  rw [isMature, Bool.and_eq_true, isFullyDerived, decide_eq_true_iff, updatesLeft, isFullyGrown]
  split
  next grown => simp [grown, Nat.sub_eq_zero_iff_le]
  next ungrown => simp [ungrown]

/-! ## Actions on a mature plant -/

variable {plant : Plant}

theorem grow_of_isFullyGrown (grown : plant.isFullyGrown = true) (environment : Environment)
    (draws : Draws) : plant.grow environment draws = (Growth.still plant, draws) := by
  have each := List.all_eq_true.mp grown
  simp only [grow, Drawing.bind_apply, Drawing.pure_apply, Pass.run_of_isGrown _ _ _ _ _ each]
  rfl

theorem advance?_of_isFullyDerived (derived : plant.isFullyDerived = true) (draws : Draws) :
    plant.advance? draws = (none, draws) := by
  rw [advance?, if_pos derived]
  rfl

theorem update_of_isMature (mature : plant.isMature = true) (environment : Environment)
    (draws : Draws) : plant.update environment draws = (Growth.still plant, draws) := by
  rcases Bool.and_eq_true_iff.mp mature with ⟨derived, grown⟩
  simp only [update, Drawing.bind_apply, grow_of_isFullyGrown grown, Growth.plant_still,
    advance?_of_isFullyDerived derived]
  rfl

/-! ## What one update does -/

/-- A growth pass leaves no branch ungrown. -/
theorem isFullyGrown_grow (plant : Plant) (environment : Environment) (draws : Draws) :
    (plant.grow environment draws).1.plant.isFullyGrown = true := by
  rw [isFullyGrown, List.all_eq_true, plant_grow]
  intro branch member
  rcases List.mem_map.mp member with ⟨visit, visited, rfl⟩
  exact Visit.isGrown_of_along _ _ visited

theorem isFullyGrown_update (plant : Plant) (environment : Environment) (draws : Draws) :
    (plant.update environment draws).1.plant.isFullyGrown = true := by
  rw [plant_update]
  split
  · exact isFullyGrown_grow _ _ _
  · exact isFullyGrown_grow _ _ _

/-- A plant without a next generation has derived all of them. -/
theorem isFullyDerived_of_advance? {draws : Draws} (ended : (plant.advance? draws).1 = none) :
    plant.isFullyDerived = true := by
  cases derived : plant.isFullyDerived with
  | true => rfl
  | false =>
      rw [advance?_eq_some_iff.mpr ⟨derived, rfl⟩] at ended
      cases ended

theorem depth_lt_of_advance? {next : Plant} {draws : Draws}
    (advances : (plant.advance? draws).1 = some next) :
    plant.depth < plant.species.maxDepth := by
  have underived := (advance?_eq_some_iff.mp advances).1
  simpa [isFullyDerived] using underived

theorem species_update (plant : Plant) (environment : Environment) (draws : Draws) :
    (plant.update environment draws).1.plant.species = plant.species := by
  rw [plant_update]
  split
  next => rfl
  next advanced advances =>
      rw [(advance?_eq_some_iff.mp advances).2]
      rfl

/-- An update derives one generation if one is left. -/
theorem depth_update (plant : Plant) (environment : Environment) (draws : Draws) :
    (plant.update environment draws).1.plant.depth =
      if plant.depth < plant.species.maxDepth then plant.depth + 1 else plant.depth := by
  rw [plant_update]
  split
  next ended =>
      have derived := of_decide_eq_true (isFullyDerived_of_advance? ended)
      change plant.depth ≥ plant.species.maxDepth at derived
      rw [if_neg (Nat.not_lt.mpr derived)]
      rfl
  next advanced advances =>
      have left := depth_lt_of_advance? advances
      change plant.depth < plant.species.maxDepth at left
      rw [if_pos left, (advance?_eq_some_iff.mp advances).2]
      rfl

/-- Each update leaves one update less. -/
theorem updatesLeft_update (plant : Plant) (environment : Environment) (draws : Draws) :
    (plant.update environment draws).1.plant.updatesLeft = plant.updatesLeft - 1 := by
  rw [updatesLeft, updatesLeft, species_update, depth_update, isFullyGrown_update, if_pos rfl]
  split <;> split <;> omega

/-! ## Runs -/

theorem updatesLeft_run (environments : List Environment) :
    (plant : Plant) → (draws : Draws) →
      (plant.run (environments.map .update) draws).1.plant.updatesLeft =
        plant.updatesLeft - environments.length := by
  induction environments with
  | nil =>
      intro plant draws
      rfl
  | cons environment rest ih =>
      intro plant draws
      rw [List.map_cons, plant_run_cons, ih, act, updatesLeft_update, List.length_cons,
        Nat.sub_sub, Nat.add_comm]

/-- Updates make a plant mature exactly when they are not fewer than are left. -/
theorem isMature_run_iff (plant : Plant) (environments : List Environment) (draws : Draws) :
    (plant.run (environments.map .update) draws).1.plant.isMature = true ↔
      plant.updatesLeft ≤ environments.length := by
  rw [isMature_iff, updatesLeft_run, Nat.sub_eq_zero_iff_le]

/-- A plant that is updated until it is mature takes as many updates as are left, and is
mature then. -/
theorem ripen_updatesLeft (environment : Environment) (limit : Nat) :
    (plant : Plant) → (draws : Draws) →
      (plant.ripen environment limit draws).1.2 = min limit plant.updatesLeft ∧
        (plant.ripen environment limit draws).1.1.updatesLeft = plant.updatesLeft - limit := by
  induction limit with
  | zero =>
      intro plant draws
      exact ⟨(Nat.zero_min _).symm, rfl⟩
  | succ limit ih =>
      intro plant draws
      rw [ripen]
      split
      next mature =>
          have none := plant.isMature_iff.mp mature
          simp [none]
      next immature =>
          have some : 0 < plant.updatesLeft := by
            rw [Nat.pos_iff_ne_zero, ne_eq, ← isMature_iff]
            exact immature
          rcases ih (plant.update environment draws).1.plant (plant.update environment draws).2
            with ⟨count, left⟩
          rw [updatesLeft_update] at count left
          simp only [Drawing.bind_apply, Drawing.pure_apply, count, left]
          omega

/-- The bracket around the word from which a plant starts has not grown. -/
theorem updatesLeft_sow (species : Species) (point : Vec3) :
    (sow species point).updatesLeft = max 1 species.maxDepth := by
  have positive : 0 < (sow species point).crown.branches.length := by
    rw [(isAligned_sow species point).length_branches]
    exact List.count_pos_iff.mpr (List.mem_of_mem_head? (Word.head?_enclosed _))
  have ungrown : (sow species point).isFullyGrown = false := by
    rcases List.exists_mem_of_length_pos positive with ⟨branch, member⟩
    have empty : branch.nodes = [] := congrArg Record.nodes (record_eq_ungrown_of_sow member)
    rw [isFullyGrown, List.all_eq_false]
    exact ⟨branch, member, by simp [Branch.isGrown, empty]⟩
  rw [updatesLeft, ungrown, Nat.max_comm]
  rfl

/-- A plant keeps its species and never derives more generations than that allows. -/
theorem depth_le_invariant (species : Species) :
    Invariant fun plant => plant.species = species ∧ plant.depth ≤ species.maxDepth where
  grow _ _ bound := bound
  advance advances bound := by
    have left := depth_lt_of_advance? advances
    rw [bound.1] at left
    rw [(advance?_eq_some_iff.mp advances).2]
    exact ⟨bound.1, left⟩

/-- Whatever has been done with a plant, the number of updates that make it mature is known,
and each of them derives one generation as long as one is left.  A plant that has just been
sown needs as many as it has generations, but at least one.  A mature plant is changed by no
action, draws nothing and reports nothing. -/
theorem isMature_iff_updatesLeft_le (species : Species) (point : Vec3) (actions : List Action)
    (draws : Draws) :
    let plant := ((sow species point).run actions draws).1.plant
    (∀ (environments : List Environment) (draws : Draws),
      (plant.run (environments.map .update) draws).1.plant.isMature = true ↔
        plant.updatesLeft ≤ environments.length) ∧
    (∀ (environments : List Environment) (draws : Draws),
      ((sow species point).run (environments.map .update) draws).1.plant.isMature = true ↔
        max 1 species.maxDepth ≤ environments.length) ∧
    plant.depth ≤ species.maxDepth ∧
    (∀ (environment : Environment) (draws : Draws),
      (plant.update environment draws).1.plant.depth =
        if plant.depth < species.maxDepth then plant.depth + 1 else plant.depth) ∧
    (plant.isMature = true → ∀ (environment : Environment) (draws : Draws),
      plant.advance? draws = (none, draws) ∧
        plant.grow environment draws = (Growth.still plant, draws) ∧
        plant.update environment draws = (Growth.still plant, draws)) := by
  intro plant
  have start : (sow species point).species = species ∧
      (sow species point).depth ≤ species.maxDepth := ⟨rfl, Nat.zero_le _⟩
  obtain ⟨sameSpecies, bound⟩ := (depth_le_invariant species).run actions draws start
  change plant.species = species at sameSpecies
  refine ⟨isMature_run_iff plant, ?_, bound, ?_, ?_⟩
  · intro environments draws
    rw [isMature_run_iff, updatesLeft_sow]
  · intro environment draws
    rw [depth_update, sameSpecies]
  · intro mature environment draws
    obtain ⟨derived, grown⟩ := Bool.and_eq_true_iff.mp mature
    exact ⟨advance?_of_isFullyDerived derived draws, grow_of_isFullyGrown grown environment draws,
      update_of_isMature mature environment draws⟩

/-- A tree of one generation, updated once, needs no further update and is not changed. -/
theorem isMature_leafyTree_updated :
    let species := { Species.leafyTree with maxDepth := 1 }
    let plant := ((sow species ⟨1, 0, 2⟩).run [.update .noon] (Draws.ofSeed 7)).1.plant
    plant.updatesLeft = 0 ∧ plant.isMature = true ∧ plant.crown.branches.length = 4 ∧
      plant.update .noon (Draws.ofSeed 1) = (Growth.still plant, Draws.ofSeed 1) := by
  intro species plant
  have mature : plant.isMature = true := by decide +kernel
  have final := (isMature_iff_updatesLeft_le species ⟨1, 0, 2⟩ [.update .noon]
    (Draws.ofSeed 7)).2.2.2.2 mature .noon (Draws.ofSeed 1)
  exact ⟨by decide +kernel, mature, by decide +kernel, final.2.2⟩

end Plant

end Arbor
