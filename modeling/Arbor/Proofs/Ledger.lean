import Arbor.Proofs.Maturity
import Arbor.Proofs.Measure
import Mathlib.Algebra.GroupWithZero.Nat

/-!
# The ledger of a pass

A pass goes through all branches, but everything that it hands on, counts and draws belongs to
the branches that had not grown before.  What it reports of such a branch can be read from the
branch before and after it, and the number of draws is known from its text and its generation
before anything is drawn.
-/

namespace Arbor

/-! ## Numbers of draws -/

namespace Drawing

/-- Whatever is drawn, the computation takes the same number of draws. -/
def Takes {α : Type} (count : Nat) (computation : Drawing α) : Prop :=
  ∀ draws, (computation draws).2 = draws.advance count

variable {α β : Type} {first : Drawing α} {second : α → Drawing β}

theorem takes_pure (value : α) : Takes 0 (Pure.pure value : Drawing α) :=
  fun _ => rfl

theorem Takes.bind {before after : Nat} (takes : Takes before first)
    (later : ∀ value, Takes after (second value)) :
    Takes (before + after) (first >>= second) := by
  intro draws
  rw [bind_apply, later, takes, Draws.advance_add]

theorem Takes.bind_pure {count : Nat} (takes : Takes count first) (image : α → β) :
    Takes count (first >>= fun value => Pure.pure (image value)) :=
  takes.bind fun value => takes_pure (image value)

theorem Takes.replicate {item : Drawing α} {each : Nat} (takes : Takes each item)
    (count : Nat) : Takes (count * each) (replicate count item) := by
  induction count with
  | zero =>
      rw [Nat.zero_mul]
      exact takes_pure []
  | succ count ih =>
      rw [Nat.succ_mul, Nat.add_comm]
      exact takes.bind fun head => ih.bind_pure (head :: ·)

end Drawing

open Drawing (Takes takes_pure)

theorem LeafSample.takes_draw : Takes 5 draw :=
  fun _ => rfl

theorem ShootSample.takes_draw (leafCount : Nat) :
    Takes (3 + 5 * leafCount) (draw leafCount) := by
  have cone : Takes 3 ConeSample.draw := fun _ => rfl
  rw [Nat.mul_comm]
  apply cone.bind
  intro sample
  exact (LeafSample.takes_draw.replicate leafCount).bind_pure (ShootSample.mk sample)

/-- Only the `F` of a text take draws, each as many as its shoots and their leaves need. -/
theorem Conditions.takes_shootsAlong (conditions : Conditions) (text : Word) :
    (pose : Pose) →
      Takes (text.count 'F' * (conditions.stepsPerRun * (3 + 5 * conditions.leavesPerStep)))
        (conditions.shootsAlong pose text) := by
  induction text with
  | nil =>
      intro pose
      rw [List.count_nil, Nat.zero_mul]
      exact takes_pure []
  | cons symbol rest ih =>
      intro pose
      unfold shootsAlong
      rw [Command.count_grow_cons]
      cases Command.ofSymbol symbol with
      | turn plane backward => exact ih _
      | ignore => exact ih pose
      | grow =>
          rw [if_pos rfl, Nat.succ_mul, Nat.add_comm]
          apply ((ShootSample.takes_draw conditions.leavesPerStep).replicate _).bind
          intro samples
          exact (ih _).bind_pure _

/-- The number of draws that it takes to grow a branch. -/
def Species.drawsFor (species : Species) (branch : Branch) : Nat :=
  let points := max species.controlPoints 1
  let leaves :=
    if species.firstLeafyDepth ≤ branch.creationDepth then species.leavesPerBranch / points else 0
  branch.label.count 'F' * (points - 1) * (3 + 5 * leaves)

/-! ## Branches -/

namespace Branch

/-- What a pass may make of a branch. -/
structure GrownFrom (after before : Branch) : Prop where
  isGrown : after.isGrown = true
  eq_of_isGrown : before.isGrown = true → after = before
  id_eq : after.id = before.id
  creationDepth_eq : after.creationDepth = before.creationDepth
  opening_eq : after.opening = before.opening
  leaves_prefix : before.leaves <+: after.leaves

variable (species : Species) (environment : Environment) (pose : Pose) (branch : Branch)
  (draws : Draws)

theorem grownFrom_growOnce :
    (branch.growOnce species environment pose draws).1.branch.GrownFrom branch where
  isGrown := isGrown_growOnce _ _ _ _ _
  eq_of_isGrown grown := by
    rw [growOnce_of_isGrown _ _ _ _ _ grown]
  id_eq := growOnce_keeps _ _ _ _ _ Branch.id (fun _ _ _ => rfl)
  creationDepth_eq := growOnce_keeps _ _ _ _ _ Branch.creationDepth (fun _ _ _ => rfl)
  opening_eq := growOnce_keeps _ _ _ _ _ Branch.opening (fun _ _ _ => rfl)
  leaves_prefix := by
    cases grown : branch.isGrown with
    | true => rw [growOnce_of_isGrown _ _ _ _ _ grown]
    | false =>
        obtain ⟨shoots, extended⟩ :=
          growOnce_of_not_isGrown species environment pose branch draws grown
        rw [extended]
        exact List.prefix_append _ _

/-- What is reported of a branch that grows can be seen by comparing it with what it was. -/
theorem report_of_not_isGrown (ungrown : branch.isGrown = false) :
    let growth := (branch.growOnce species environment pose draws).1
    growth.segments = growth.branch.segments (species.radiusAt growth.branch.creationDepth) ∧
      growth.tally =
        ⟨1, growth.segments.length, growth.branch.leaves.length - branch.leaves.length⟩ := by
  intro growth
  constructor
  · have nodes : branch.nodes = [] := by
      simpa [isGrown] using ungrown
    rw [(grownFrom_growOnce species environment pose branch draws).creationDepth_eq,
      segments_growOnce species environment pose branch draws]
    simp [segments, nodes, growth]
  · rw [← segments_tally_growOnce species environment pose branch draws]
    simp [growth, growOnce, ungrown, grow]

theorem takes_growOnce_of_isGrown (grown : branch.isGrown = true) :
    Takes 0 (branch.growOnce species environment pose) := by
  rw [growOnce, if_pos grown]
  exact takes_pure _

theorem takes_growOnce_of_not_isGrown (ungrown : branch.isGrown = false) :
    Takes (species.drawsFor branch) (branch.growOnce species environment pose) := by
  have leaves : species.leavesAt branch.creationDepth =
      if species.firstLeafyDepth ≤ branch.creationDepth then
        species.leavesPerBranch / max species.controlPoints 1 else 0 := by
    simpa using species.mul_leavesAt 1 branch.creationDepth
  rw [growOnce, if_neg (by simp [ungrown]), Species.drawsFor, ← leaves, Nat.mul_assoc]
  exact (Conditions.takes_shootsAlong _ _ _).bind_pure _

/-! ## Lists of branches -/

/-- The branches that have not grown, in order. -/
def ungrown (branches : List Branch) : List Branch :=
  branches.filter fun branch => !branch.isGrown

/-- The branches that had not grown before, each in both of its states. -/
def newlyGrown (before after : List Branch) : List (Branch × Branch) :=
  (before.zip after).filter fun (branch, _) => !branch.isGrown

section Lists

variable {branch} (after : Branch) (rest later : List Branch)

theorem ungrown_cons_of_isGrown (grown : branch.isGrown = true) :
    ungrown (branch :: rest) = ungrown rest := by
  simp [ungrown, grown]

theorem ungrown_cons_of_not_isGrown (notGrown : branch.isGrown = false) :
    ungrown (branch :: rest) = branch :: ungrown rest := by
  simp [ungrown, notGrown]

theorem newlyGrown_cons_of_isGrown (grown : branch.isGrown = true) :
    newlyGrown (branch :: rest) (after :: later) = newlyGrown rest later := by
  simp [newlyGrown, grown]

theorem newlyGrown_cons_of_not_isGrown (notGrown : branch.isGrown = false) :
    newlyGrown (branch :: rest) (after :: later) = (branch, after) :: newlyGrown rest later := by
  simp [newlyGrown, notGrown]

end Lists

end Branch

/-! ## Passes -/

namespace Visit

open Branch

variable (species : Species) (environment : Environment)

/-- The segments of a pass are those of the branches that have grown in it. -/
theorem flatMap_segments_along (branches : List Branch) :
    (stack : PoseStack) → (draws : Draws) →
      let visits := (along species environment stack branches draws).1
      visits.flatMap (·.segments) =
        (newlyGrown branches (visits.map (·.branch))).flatMap
          fun (_, after) => after.segments (species.radiusAt after.creationDepth) := by
  induction branches with
  | nil =>
      intro stack draws
      rfl
  | cons branch rest ih =>
      intro stack draws
      simp only [along_cons, List.flatMap_cons, List.map_cons, ih]
      cases grown : branch.isGrown with
      | true =>
          rw [newlyGrown_cons_of_isGrown _ _ _ grown, growOnce_of_isGrown _ _ _ _ _ grown]
          rfl
      | false =>
          rw [newlyGrown_cons_of_not_isGrown _ _ _ grown, List.flatMap_cons,
            (report_of_not_isGrown _ _ _ _ _ grown).1]

theorem sum_tally_along (branches : List Branch) :
    (stack : PoseStack) → (draws : Draws) →
      let visits := (along species environment stack branches draws).1
      Tally.sum (visits.map (·.tally)) =
        ⟨(ungrown branches).length, (visits.flatMap (·.segments)).length,
          ((newlyGrown branches (visits.map (·.branch))).map
            fun (before, after) => after.leaves.length - before.leaves.length).sum⟩ := by
  induction branches with
  | nil =>
      intro stack draws
      rfl
  | cons branch rest ih =>
      intro stack draws
      simp only [Tally.sum_eq] at ih ⊢
      simp only [along_cons, List.flatMap_cons, List.map_cons, List.sum_cons, ih]
      cases grown : branch.isGrown with
      | true =>
          rw [ungrown_cons_of_isGrown _ grown, newlyGrown_cons_of_isGrown _ _ _ grown,
            growOnce_of_isGrown _ _ _ _ _ grown, zero_add]
          rfl
      | false =>
          rw [ungrown_cons_of_not_isGrown _ grown, newlyGrown_cons_of_not_isGrown _ _ _ grown,
            (report_of_not_isGrown _ _ _ _ _ grown).2]
          ext
          · exact Nat.add_comm _ _
          · exact List.length_append.symm
          · rfl

theorem takes_along (branches : List Branch) :
    (stack : PoseStack) →
      Takes ((ungrown branches).map species.drawsFor).sum
        (along species environment stack branches) := by
  induction branches with
  | nil =>
      intro stack
      exact takes_pure []
  | cons branch rest ih =>
      intro stack
      cases grown : branch.isGrown with
      | true =>
          rw [ungrown_cons_of_isGrown _ grown, ← Nat.zero_add (List.sum _)]
          apply (takes_growOnce_of_isGrown _ _ _ _ grown).bind
          intro growth
          exact (ih _).bind_pure _
      | false =>
          rw [ungrown_cons_of_not_isGrown _ grown, List.map_cons, List.sum_cons]
          apply (takes_growOnce_of_not_isGrown _ _ _ _ grown).bind
          intro growth
          exact (ih _).bind_pure _

end Visit

namespace Pass

open Branch

theorem isGrown_of_forall₂ {before after : List Branch}
    (grown : List.Forall₂ GrownFrom after before) : ∀ branch ∈ after, branch.isGrown = true := by
  induction grown with
  | nil => simp
  | cons first _ ih =>
      rw [List.forall_mem_cons]
      exact ⟨first.isGrown, ih⟩

/-- A pass leaves alone what has grown and grows everything else, which keeps its identity and
its place.  It hands on the segments of the branches that it has grown, one branch after the
other, counts these branches, their segments and their new leaves, and takes the draws that
each of them needs.  After it, no pass has any effect. -/
theorem run_grows_ungrown (species : Species) (environment : Environment) (base : Vec3)
    (branches : List Branch) (draws : Draws) :
    let result := run species environment base branches draws
    let pass := result.1
    let grown := newlyGrown branches pass.branches
    List.Forall₂ GrownFrom pass.branches branches ∧
      pass.segments = grown.flatMap (fun (_, after) =>
        after.segments
          (species.rootRadius * Species.relativeSize species.decay after.creationDepth)) ∧
      pass.tally =
        ⟨(ungrown branches).length, pass.segments.length,
          (grown.map fun (before, after) => after.leaves.length - before.leaves.length).sum⟩ ∧
      result.2 = draws.advance ((ungrown branches).map species.drawsFor).sum ∧
      ∀ (environment : Environment) (base : Vec3) (draws : Draws),
        run species environment base pass.branches draws = (⟨pass.branches, [], 0⟩, draws) := by
  have grown : List.Forall₂ GrownFrom
      (run species environment base branches draws).1.branches branches := by
    apply forall₂_run
    intro branch pose draws
    exact grownFrom_growOnce species environment pose branch draws
  refine ⟨grown, ?_, ?_, ?_, ?_⟩
  · exact Visit.flatMap_segments_along species environment branches _ draws
  · exact Visit.sum_tally_along species environment branches _ draws
  · exact (Visit.takes_along species environment branches _).bind_pure Pass.ofVisits draws
  · intro environment base draws
    exact run_of_isGrown species environment base _ draws (isGrown_of_forall₂ grown)

/-- The outer branch has grown before, and the two `F` of the inner one grow two shoots each. -/
example :
    let species :=
      { Species.plain with controlPoints := 3, leavesPerBranch := 7, firstLeafyDepth := 1 }
    let branches := (Crown.ofWord "[F[FF]]".toList 1).branches.modifyHead
      fun branch => { branch with nodes := [.zero] }
    let result := run species .noon .zero branches (.start fun _ => 0)
    result.1.tally = ⟨1, 4, 8⟩ ∧ result.2.taken = 4 * (3 + 5 * 2) := by
  decide +kernel

end Pass

end Arbor
