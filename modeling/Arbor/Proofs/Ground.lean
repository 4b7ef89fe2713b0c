import Arbor.Proofs.Ages
import Arbor.Proofs.Order

/-!
# The ground

A node is reflected at the ground wherever it would lie under it, after sun and weight have
bent the shoot.  The reflection may round, overflow or be undefined, but it never ends below
the ground.  Everything else that a plant is made of is handed on: a branch begins where the
one around it ends, and the outermost one at the point of the ground where the plant was sown.
-/

namespace Arbor

/-! ## Points -/

/-- The height of a point is not below the ground: it is on it, above it or undefined. -/
structure Vec3.IsClear (point : Vec3) : Prop where
  not_lt : ¬ point.y < groundLevel
  le_or_isNaN : groundLevel ≤ point.y ∨ point.y.isNaN = true

namespace Vec3

variable {point : Vec3}

theorem IsClear.of_not_lt (notBelow : ¬ point.y < groundLevel) : point.IsClear where
  not_lt := notBelow
  le_or_isNaN := by
    cases undefined : point.y.isNaN with
    | true => exact .inr rfl
    | false => exact .inl ((Scalar.not_lt_iff undefined rfl).mp notBelow)

/-- Whatever its height is, a point that has been kept above the ground is not below it. -/
theorem isClear_aboveGround (point : Vec3) : point.aboveGround.IsClear := by
  apply IsClear.of_not_lt
  by_cases under : point.y ≤ groundLevel
  · have twice : 2 * groundLevel = 0 := by decide
    rw [aboveGround, if_pos under, twice]
    exact Scalar.not_zero_sub_lt_zero under
  · rw [aboveGround, if_neg under]
    intro below
    exact under (Scalar.le_iff.mpr (.inl (Scalar.lt_iff.mp below)))

end Vec3

/-- Both ends of the segment are clear of the ground. -/
structure Segment.IsClear (segment : Segment) : Prop where
  start : segment.start.IsClear
  finish : segment.finish.IsClear

/-! ## Shoots -/

/-- A shoot begins and ends clear of the ground. -/
structure Shoot.IsClear (shoot : Shoot) : Prop where
  start : shoot.start.IsClear
  finish : shoot.finish.position.IsClear

theorem Pose.isClear_after {pose : Pose} (clear : pose.position.IsClear) {shoots : List Shoot}
    (shootsClear : ∀ shoot ∈ shoots, shoot.IsClear) : (pose.after shoots).position.IsClear := by
  cases last : shoots.getLast? with
  | none =>
      rw [after, last]
      exact clear
  | some shoot =>
      rw [after, last]
      exact (shootsClear shoot (List.mem_of_getLast? last)).finish

namespace Conditions

/-- Wherever a step begins and leads, it ends clear of the ground. -/
theorem isClear_step (conditions : Conditions) (pose : Pose) (sample : ConeSample) :
    (conditions.step pose sample).position.IsClear :=
  Vec3.isClear_aboveGround _

theorem isClear_run (conditions : Conditions) (samples : List ShootSample) :
    (pose : Pose) → pose.position.IsClear →
      ∀ shoot ∈ conditions.run pose samples, shoot.IsClear := by
  induction samples with
  | nil =>
      intro pose clear
      exact List.forall_mem_nil _
  | cons sample rest ih =>
      intro pose clear
      have finish := conditions.isClear_step pose sample.cone
      exact List.forall_mem_cons.mpr ⟨⟨clear, finish⟩, ih _ finish⟩

/-- The shoots along a branch stay clear of the ground if the branch begins so. -/
theorem isClear_shootsAlong (conditions : Conditions) (text : Word) :
    (pose : Pose) → (draws : Draws) → pose.position.IsClear →
      ∀ shoot ∈ (conditions.shootsAlong pose text draws).1, shoot.IsClear := by
  induction text with
  | nil =>
      intro pose draws clear
      exact List.forall_mem_nil _
  | cons symbol rest ih =>
      intro pose draws clear
      unfold shootsAlong
      cases Command.ofSymbol symbol with
      | turn plane backward =>
          let angle := if backward then -conditions.turnAngle else conditions.turnAngle
          exact ih { pose with heading := pose.heading.turn plane angle } draws clear
      | ignore => exact ih pose draws clear
      | grow =>
          simp only [Drawing.bind_apply, Drawing.pure_apply]
          let samples := (Drawing.replicate conditions.stepsPerRun
            (ShootSample.draw conditions.leavesPerStep) draws).1
          let straight := { pose with heading := pose.heading.normalizeOr Vec3.up }
          have runClear := conditions.isClear_run samples straight clear
          have afterClear : (straight.after (conditions.run straight samples)).position.IsClear :=
            Pose.isClear_after (show straight.position.IsClear from clear) runClear
          exact List.forall_mem_append.mpr ⟨runClear, ih _ _ afterClear⟩

end Conditions

/-! ## Branches -/

/-- No node of the branch lies below the ground. -/
def Branch.IsClear (branch : Branch) : Prop :=
  ∀ node ∈ branch.nodes, node.IsClear

/-- What a branch has become and what has grown are clear of the ground. -/
structure BranchGrowth.IsClear (growth : BranchGrowth) : Prop where
  branch : growth.branch.IsClear
  segments : ∀ segment ∈ growth.segments, segment.IsClear

namespace Branch

variable {branch : Branch} {pose : Pose}

theorem IsClear.extend (clear : branch.IsClear) {start : Vec3} (startClear : start.IsClear)
    {shoots : List Shoot} (shootsClear : ∀ shoot ∈ shoots, shoot.IsClear) :
    (branch.extend start shoots).IsClear := by
  intro node member
  rcases List.mem_append.mp member with old | new
  · exact clear node old
  · rcases List.mem_cons.mp new with rfl | later
    · exact startClear
    · rcases List.mem_map.mp later with ⟨shoot, grown, rfl⟩
      exact (shootsClear shoot grown).finish

theorem isClear_shootSegments (branch : Branch) (radius : Float32) {shoots : List Shoot}
    (shootsClear : ∀ shoot ∈ shoots, shoot.IsClear) :
    ∀ segment ∈ branch.shootSegments radius shoots, segment.IsClear := by
  intro segment member
  rcases List.mem_map.mp member with ⟨numbered, numbered_mem, rfl⟩
  have clear := shootsClear numbered.1 (List.fst_mem_of_mem_zipIdx numbered_mem)
  exact ⟨clear.start, clear.finish⟩

theorem IsClear.growOnce (clear : branch.IsClear) (poseClear : pose.position.IsClear)
    (species : Species) (environment : Environment) (draws : Draws) :
    (branch.growOnce species environment pose draws).1.IsClear := by
  cases grown : branch.isGrown with
  | true =>
      rw [growOnce_of_isGrown _ _ _ _ _ grown]
      exact ⟨clear, List.forall_mem_nil _⟩
  | false =>
      have shootsClear := (species.conditions environment branch.creationDepth).isClear_shootsAlong
        branch.label pose draws poseClear
      rw [Branch.growOnce, grown]
      exact ⟨clear.extend poseClear shootsClear, isClear_shootSegments _ _ shootsClear⟩

/-- A branch hands on its last node, or else the position that was handed to it. -/
theorem IsClear.exit (clear : branch.IsClear) (poseClear : pose.position.IsClear) :
    (branch.exit pose).position.IsClear := by
  cases last : branch.tip? with
  | none =>
      rw [Branch.exit, last]
      exact poseClear
  | some tip =>
      rw [Branch.exit, last]
      exact clear tip (List.mem_of_getLast? last)

end Branch

/-! ## Growth passes -/

/-- All poses of the stack are clear of the ground. -/
structure PoseStack.IsClear (stack : PoseStack) : Prop where
  base : stack.base.position.IsClear
  others : ∀ pose ∈ stack.others, pose.position.IsClear

namespace PoseStack.IsClear

variable {stack : PoseStack}

theorem top (clear : stack.IsClear) : stack.top.position.IsClear := by
  cases last : stack.others.getLast? with
  | none =>
      rw [PoseStack.top, last]
      exact clear.base
  | some pose =>
      rw [PoseStack.top, last]
      exact clear.others pose (List.mem_of_getLast? last)

theorem push (clear : stack.IsClear) {pose : Pose} (poseClear : pose.position.IsClear) :
    (stack.push pose).IsClear where
  base := clear.base
  others := List.forall_mem_append.mpr ⟨clear.others, List.forall_mem_singleton.mpr poseClear⟩

theorem unwind (clear : stack.IsClear) (nesting : Nat) : (stack.unwind nesting).IsClear where
  base := clear.base
  others pose member := clear.others pose (List.mem_of_mem_take member)

end PoseStack.IsClear

/-- Every visit of a pass takes the stack and the branch as clear as it finds them. -/
theorem Visit.isClear_along (species : Species) (environment : Environment)
    (branches : List Branch) :
    (stack : PoseStack) → (draws : Draws) → stack.IsClear →
      (∀ branch ∈ branches, branch.IsClear) →
      ∀ visit ∈ (along species environment stack branches draws).1,
        visit.toBranchGrowth.IsClear := by
  induction branches with
  | nil =>
      intro stack draws stackClear branchesClear
      exact List.forall_mem_nil _
  | cons branch rest ih =>
      intro stack draws stackClear branchesClear
      rcases List.forall_mem_cons.mp branchesClear with ⟨branchClear, restClear⟩
      have entered := stackClear.unwind branch.nesting
      have growthClear := branchClear.growOnce entered.top species environment draws
      have left := entered.push (growthClear.branch.exit entered.top)
      rw [along_cons]
      exact List.forall_mem_cons.mpr ⟨growthClear, ih _ _ left restClear⟩

/-! ## Plants -/

/-- The plant stands on the ground and none of its nodes lies below it. -/
structure Plant.IsClear (plant : Plant) : Prop where
  /-- The branches stand for brackets, so that a generation only adds buds. -/
  aligned : plant.IsAligned
  position : plant.position.IsClear
  branches : ∀ branch ∈ plant.crown.branches, branch.IsClear

/-- Neither the plant nor a segment that has grown reaches below the ground. -/
structure Growth.IsClear (growth : Growth) : Prop where
  plant : growth.plant.IsClear
  segments : ∀ segment ∈ growth.segments, segment.IsClear

theorem Growth.isClear_still {plant : Plant} (clear : plant.IsClear) : (still plant).IsClear :=
  ⟨clear, List.forall_mem_nil _⟩

namespace Plant

variable {plant : Plant}

/-- No coordinate of the point matters: a plant is sown on the ground, as buds. -/
theorem isClear_sow (species : Species) (point : Vec3) : (sow species point).IsClear where
  aligned := isAligned_sow species point
  position := .of_not_lt (by decide : ¬ groundLevel < groundLevel)
  branches branch member := by
    have empty : branch.nodes = [] := congrArg Record.nodes (record_eq_ungrown_of_sow member)
    rw [Branch.IsClear, empty]
    exact List.forall_mem_nil _

theorem IsClear.grow (clear : plant.IsClear) (environment : Environment) (draws : Draws) :
    (plant.grow environment draws).1.IsClear := by
  have ground : (PoseStack.single ⟨plant.position, Vec3.up⟩).IsClear :=
    ⟨clear.position, List.forall_mem_nil _⟩
  have visits := Visit.isClear_along plant.species environment plant.crown.branches _ draws
    ground clear.branches
  refine ⟨⟨isAligned_grow clear.aligned environment draws, clear.position, ?_⟩, ?_⟩
  · intro branch member
    rcases List.mem_map.mp member with ⟨visit, visit_mem, rfl⟩
    exact (visits visit visit_mem).branch
  · intro segment member
    rcases List.mem_flatMap.mp member with ⟨visit, visit_mem, grown⟩
    exact (visits visit visit_mem).segments segment grown

/-- A generation keeps nodes as they are and adds branches that have none. -/
theorem IsClear.advance (clear : plant.IsClear) {next : Plant} {draws : Draws}
    (advances : (plant.advance? draws).1 = some next) : next.IsClear := by
  rcases advance?_eq_some_iff.mp advances with ⟨-, rfl⟩
  have reading := Piece.reading_cut plant.species.productions plant.word draws
  refine ⟨isAligned_adopt _ _, clear.position, ?_⟩
  intro branch member node node_mem
  rcases clear.aligned.mem_records_adopt reading.flatMap_source
    (List.mem_map_of_mem member) with old | ⟨number, new⟩
  · rcases List.mem_map.mp old with ⟨before, before_mem, same⟩
    have nodes : before.nodes = branch.nodes := congrArg Record.nodes same
    exact clear.branches before before_mem node (nodes ▸ node_mem)
  · have empty : branch.nodes = [] := congrArg Record.nodes new
    rw [empty] at node_mem
    exact absurd node_mem List.not_mem_nil

theorem accounting_isClear : Accounting fun plant growth => plant.IsClear → growth.IsClear where
  still _ clear := Growth.isClear_still clear
  grow _ environment draws clear := clear.grow environment draws
  advance advances clear := Growth.isClear_still (clear.advance advances)
  followedBy beforeClear afterClear clear := by
    have before := beforeClear clear
    have after := afterClear before.plant
    exact ⟨after.plant, List.forall_mem_append.mpr ⟨before.segments, after.segments⟩⟩

/-- Whatever the numbers of the species are, wherever the sun stands and whatever is done and
drawn, no node and no end of a segment that has been reported is below the ground. -/
theorem allClear_run (species : Species) (point : Vec3) (actions : List Action)
    (draws : Draws) :
    let growth := ((sow species point).run actions draws).1
    (∀ branch ∈ growth.plant.crown.branches, ∀ node ∈ branch.nodes, node.IsClear) ∧
      ∀ segment ∈ growth.segments, segment.start.IsClear ∧ segment.finish.IsClear := by
  intro growth
  have clear := accounting_isClear.run actions _ draws (isClear_sow species point)
  refine ⟨clear.plant.branches, ?_⟩
  intro segment member
  exact ⟨(clear.segments segment member).start, (clear.segments segment member).finish⟩

end Plant

end Arbor
