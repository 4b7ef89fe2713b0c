import Arbor.Plant
import Mathlib.Data.List.Forall2

/-!
# What a growth pass does to a branch

A branch that has grown is left alone.  One that has not gets a first node where the
stack of poses says, and keeps its identity and its place.  A pass does this to every
branch, in order, so it changes neither the number nor the order of the branches.
-/

namespace Arbor

namespace Branch

variable (species : Species) (environment : Environment) (pose : Pose) (branch : Branch)
  (draws : Draws)

theorem growOnce_of_isGrown (grown : branch.isGrown = true) :
    branch.growOnce species environment pose draws = (⟨branch, [], 0⟩, draws) := by
  simp [growOnce, grown]

/-- A branch that has not grown gets the nodes and the leaves of some shoots. -/
theorem growOnce_of_not_isGrown (ungrown : branch.isGrown = false) :
    ∃ shoots, (branch.growOnce species environment pose draws).1.branch =
      branch.extend pose.position shoots := by
  refine ⟨((species.conditions environment branch.creationDepth).shootsAlong pose
    branch.label draws).1, ?_⟩
  simp [growOnce, ungrown, grow]

/-- A property that no extension of a branch affects is not affected by growth. -/
theorem growOnce_keeps {Value : Type} (view : Branch → Value)
    (keeps : ∀ branch start shoots, view (extend branch start shoots) = view branch) :
    view (branch.growOnce species environment pose draws).1.branch = view branch := by
  cases grown : branch.isGrown with
  | true => rw [growOnce_of_isGrown _ _ _ _ _ grown]
  | false =>
      rcases growOnce_of_not_isGrown species environment pose branch draws grown with
        ⟨shoots, extended⟩
      rw [extended, keeps]

/-- A branch has nodes exactly if it has a first one. -/
theorem isGrown_iff_base? : branch.isGrown = true ↔ ∃ base, branch.base? = some base := by
  cases nodes : branch.nodes <;> simp [isGrown, base?, nodes]

theorem isGrown_iff_tip? : branch.isGrown = true ↔ ∃ tip, branch.tip? = some tip := by
  rw [← Option.isSome_iff_exists, tip?, List.getLast?_isSome]
  simp [isGrown]

/-- After its visit every branch has grown. -/
theorem isGrown_growOnce :
    (branch.growOnce species environment pose draws).1.branch.isGrown = true := by
  cases grown : branch.isGrown with
  | true => rw [growOnce_of_isGrown _ _ _ _ _ grown, grown]
  | false =>
      rcases growOnce_of_not_isGrown species environment pose branch draws grown with
        ⟨shoots, extended⟩
      simp [extended, isGrown, extend]

/-- A branch that has not grown begins at the pose. -/
theorem base?_growOnce_of_not_isGrown (ungrown : branch.isGrown = false) :
    (branch.growOnce species environment pose draws).1.branch.base? = some pose.position := by
  have empty : branch.nodes = [] := by
    simpa [isGrown] using ungrown
  rcases growOnce_of_not_isGrown species environment pose branch draws ungrown with
    ⟨shoots, extended⟩
  simp [extended, base?, extend, empty]

end Branch

namespace Visit

variable (species : Species) (environment : Environment)

@[simp] theorem along_nil (stack : PoseStack) (draws : Draws) :
    along species environment stack [] draws = ([], draws) := rfl

/-- The first visit of a pass, and the visits after it. -/
theorem along_cons (stack : PoseStack) (branch : Branch) (rest : List Branch)
    (draws : Draws) :
    (along species environment stack (branch :: rest) draws).1 =
      let entered := stack.unwind branch.nesting
      let growth := branch.growOnce species environment entered.top draws
      ⟨growth.1, entered⟩ ::
        (along species environment (entered.push (growth.1.branch.exit entered.top)) rest
          growth.2).1 := rfl

/-- What growth does not affect is the same before and after a pass, branch by
branch. -/
theorem map_along {Value : Type} (view : Branch → Value)
    (keeps : ∀ branch start shoots, view (Branch.extend branch start shoots) = view branch)
    (branches : List Branch) :
    (stack : PoseStack) → (draws : Draws) →
      (along species environment stack branches draws).1.map
          (fun visit => view visit.branch) = branches.map view := by
  induction branches with
  | nil =>
      intro stack draws
      rfl
  | cons branch rest ih =>
      intro stack draws
      rw [along_cons]
      simp only [List.map_cons, ih]
      rw [Branch.growOnce_keeps _ _ _ _ _ view keeps]

/-- What the growth of a branch always brings about, a pass brings about branch by branch. -/
theorem forall₂_along {related : Branch → Branch → Prop}
    (each : ∀ branch pose draws,
      related (Branch.growOnce species environment pose branch draws).1.branch branch)
    (branches : List Branch) :
    (stack : PoseStack) → (draws : Draws) →
      List.Forall₂ related
        ((along species environment stack branches draws).1.map (·.branch)) branches := by
  induction branches with
  | nil =>
      intro stack draws
      exact .nil
  | cons branch rest ih =>
      intro stack draws
      rw [along_cons]
      exact .cons (each _ _ _) (ih _ _)

@[simp] theorem length_along (stack : PoseStack) (branches : List Branch) (draws : Draws) :
    (along species environment stack branches draws).1.length = branches.length := by
  simpa using congrArg List.length
    (map_along species environment (fun _ => ()) (fun _ _ _ => rfl) branches stack draws)

/-- Every branch is grown once, from the top of the stack of its visit. -/
theorem growOnce_of_along {branch : Branch} {visit : Visit} (branches : List Branch) :
    (stack : PoseStack) → (draws : Draws) → (index : Nat) →
      branches[index]? = some branch →
      (along species environment stack branches draws).1[index]? = some visit →
      ∃ draws, visit.toBranchGrowth =
        (branch.growOnce species environment visit.stack.top draws).1 := by
  induction branches with
  | nil =>
      intro stack draws index branch_at visit_at
      simp at branch_at
  | cons first rest ih =>
      intro stack draws index branch_at visit_at
      rw [along_cons] at visit_at
      cases index with
      | zero =>
          cases Option.some.inj branch_at
          cases Option.some.inj visit_at
          exact ⟨draws, rfl⟩
      | succ index => exact ih _ _ index (by simpa using branch_at) (by simpa using visit_at)

variable {stack : PoseStack} {branches : List Branch} {draws : Draws} {index : Nat}
  {branch : Branch} {visit : Visit}

/-- A pass leaves alone what has grown. -/
theorem branch_of_along_of_isGrown (branch_at : branches[index]? = some branch)
    (visit_at : (along species environment stack branches draws).1[index]? = some visit)
    (grown : branch.isGrown = true) : visit.branch = branch := by
  rcases growOnce_of_along species environment branches stack draws index branch_at visit_at
    with ⟨drawsThen, growth⟩
  rw [growth, Branch.growOnce_of_isGrown _ _ _ _ _ grown]

theorem parent_of_along (branch_at : branches[index]? = some branch)
    (visit_at : (along species environment stack branches draws).1[index]? = some visit) :
    visit.branch.parent = branch.parent := by
  rcases growOnce_of_along species environment branches stack draws index branch_at visit_at
    with ⟨drawsThen, growth⟩
  rw [growth]
  exact Branch.growOnce_keeps _ _ _ _ _ Branch.parent (fun _ _ _ => rfl)

/-- What has not grown begins at the top of the stack of its visit. -/
theorem base?_of_along_of_not_isGrown (branch_at : branches[index]? = some branch)
    (visit_at : (along species environment stack branches draws).1[index]? = some visit)
    (ungrown : branch.isGrown = false) :
    visit.branch.base? = some visit.stack.top.position := by
  rcases growOnce_of_along species environment branches stack draws index branch_at visit_at
    with ⟨drawsThen, growth⟩
  rw [growth, Branch.base?_growOnce_of_not_isGrown _ _ _ _ _ ungrown]

/-- After a pass every branch has grown. -/
theorem isGrown_of_along
    (member : visit ∈ (along species environment stack branches draws).1) :
    visit.branch.isGrown = true := by
  rcases List.getElem?_of_mem member with ⟨index, visit_at⟩
  have inBranches : index < branches.length := by
    rw [← length_along species environment stack branches draws]
    exact (List.getElem?_eq_some_iff.mp visit_at).1
  rcases growOnce_of_along species environment branches stack draws index
    (List.getElem?_eq_getElem inBranches) visit_at with ⟨drawsThen, growth⟩
  rw [growth]
  exact Branch.isGrown_growOnce _ _ _ _ _

end Visit

namespace Pass

/-- What growth does not affect is the same before and after a pass, branch by
branch. -/
theorem map_branches_run {Value : Type} (view : Branch → Value)
    (keeps : ∀ branch start shoots, view (Branch.extend branch start shoots) = view branch)
    (species : Species) (environment : Environment) (base : Vec3) (branches : List Branch)
    (draws : Draws) :
    (run species environment base branches draws).1.branches.map view = branches.map view := by
  simp only [run, Drawing.bind_apply, Drawing.pure_apply, ofVisits, List.map_map]
  exact Visit.map_along species environment view keeps branches _ draws

theorem forall₂_run {related : Branch → Branch → Prop} {species : Species}
    {environment : Environment}
    (each : ∀ branch pose draws,
      related (Branch.growOnce species environment pose branch draws).1.branch branch)
    (base : Vec3) (branches : List Branch) (draws : Draws) :
    List.Forall₂ related (run species environment base branches draws).1.branches branches :=
  Visit.forall₂_along species environment each branches _ draws

@[simp] theorem length_branches_run (species : Species) (environment : Environment)
    (base : Vec3) (branches : List Branch) (draws : Draws) :
    (run species environment base branches draws).1.branches.length = branches.length := by
  simp [run, ofVisits]

end Pass

namespace Plant

/-- A growth pass replaces the branches and leaves the rest of the plant alone. -/
theorem plant_grow (plant : Plant) (environment : Environment) (draws : Draws) :
    (plant.grow environment draws).1.plant =
      { plant with
        crown := { plant.crown with
          branches := (Pass.run plant.species environment plant.position plant.crown.branches
            draws).1.branches } } := rfl

end Plant

end Arbor
