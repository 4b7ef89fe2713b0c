import Arbor.Garden

/-!
# Plants without their geometry

A sketch of a plant keeps its word and, of every branch, the identity, the place and
the sizes of the lists of nodes and leaves, but no number that says where anything is.
Which words are drawn, and how many, depends on sketches alone: computations on plants
with equal sketches draw alike and lead to equal sketches again.
-/

namespace Arbor

/-! ## Computations that draw alike -/

namespace Drawing

variable {Left Right LeftResult RightResult : Type}

/-- From every source both computations take the same draws, and their results are
related. -/
def Alike (related : Left → Right → Prop) (left : Drawing Left) (right : Drawing Right) :
    Prop :=
  ∀ draws, related (left draws).1 (right draws).1 ∧ (left draws).2 = (right draws).2

namespace Alike

variable {related : Left → Right → Prop} {left : Drawing Left} {right : Drawing Right}

theorem refl (computation : Drawing Left) : Alike (· = ·) computation computation :=
  fun _ => ⟨rfl, rfl⟩

theorem pure {leftValue : Left} {rightValue : Right} (holds : related leftValue rightValue) :
    Alike related (Pure.pure leftValue) (Pure.pure rightValue) :=
  fun _ => ⟨holds, rfl⟩

theorem bind {resultsRelated : LeftResult → RightResult → Prop}
    {leftRest : Left → Drawing LeftResult} {rightRest : Right → Drawing RightResult}
    (alike : Alike related left right)
    (restAlike : ∀ {leftValue rightValue}, related leftValue rightValue →
      Alike resultsRelated (leftRest leftValue) (rightRest rightValue)) :
    Alike resultsRelated (left >>= leftRest) (right >>= rightRest) := by
  intro draws
  rcases alike draws with ⟨values, sources⟩
  rw [bind_apply, bind_apply, sources]
  exact restAlike values _

end Alike

end Drawing

open Drawing (Alike)

/-! ## Sketches -/

/-- What a species says about its plants apart from their geometry. -/
structure Scheme where
  initiator : Word
  productions : List Production
  maxDepth : Nat
  controlPoints : Nat
  leavesPerBranch : Nat
  firstLeafyDepth : Nat
  deriving DecidableEq, Inhabited, Repr

/-- Forget the numbers that shape the geometry. -/
def Species.scheme (species : Species) : Scheme :=
  ⟨species.initiator, species.productions, species.maxDepth, species.controlPoints,
    species.leavesPerBranch, species.firstLeafyDepth⟩

/-- What a branch is apart from its geometry. -/
structure BranchSketch where
  id : UInt32
  creationDepth : Nat
  label : Word
  nesting : Nat
  parent : Option Nat
  nodeCount : Nat
  leafCount : Nat
  deriving DecidableEq, Inhabited, Repr

namespace BranchSketch

/-- The sketch of a branch that has been given a place. -/
def place (sketch : BranchSketch) (opening : Opening) : BranchSketch :=
  { sketch with
    label := opening.label
    nesting := opening.nesting
    parent := opening.parent }

end BranchSketch

/-- Forget where the nodes and leaves of a branch are. -/
def Branch.sketch (branch : Branch) : BranchSketch :=
  ⟨branch.id, branch.creationDepth, branch.label, branch.nesting, branch.parent,
    branch.nodes.length, branch.leaves.length⟩

/-- The sketches of the branches, and the identifier that the next branch gets. -/
def Crown.sketch (crown : Crown) : List BranchSketch × UInt32 :=
  (crown.branches.map Branch.sketch, crown.nextId)

/-- What a plant is apart from its geometry. -/
structure PlantSketch where
  scheme : Scheme
  word : Word
  depth : Nat
  branches : List BranchSketch
  nextId : UInt32
  deriving DecidableEq, Inhabited, Repr

/-- Forget the geometry of a plant. -/
def Plant.sketch (plant : Plant) : PlantSketch :=
  ⟨plant.species.scheme, plant.word, plant.depth, plant.crown.branches.map Branch.sketch,
    plant.crown.nextId⟩

/-- The sketch of a plant after growth, and the report of the growth. -/
def Growth.sketch (growth : Growth) : PlantSketch × Tally :=
  (growth.plant.sketch, growth.tally)

namespace PlantSketch

variable {left right : Plant}

theorem scheme_eq (same : left.sketch = right.sketch) :
    left.species.scheme = right.species.scheme :=
  congrArg scheme same

theorem crown_eq (same : left.sketch = right.sketch) :
    left.crown.sketch = right.crown.sketch :=
  Prod.ext (congrArg branches same) (congrArg nextId same)

end PlantSketch

/-! ## Branches -/

namespace Conditions

/-- A shoot carries one leaf for each of its samples. -/
theorem map_leaves_run (conditions : Conditions) (samples : List ShootSample) :
    (pose : Pose) →
      (conditions.run pose samples).map (fun shoot => shoot.leaves.length) =
        samples.map (fun sample => sample.leaves.length) := by
  induction samples with
  | nil =>
      intro pose
      rfl
  | cons sample rest ih =>
      intro pose
      simp [run, shoot, ih]

/-- The number of shoots, and of the leaves on each of them, depends on neither the pose
nor anything in the circumstances but the numbers of steps and leaves. -/
theorem alike_shootsAlong {left right : Conditions}
    (steps : left.stepsPerRun = right.stepsPerRun)
    (leaves : left.leavesPerStep = right.leavesPerStep) (word : Word) :
    (leftPose rightPose : Pose) →
      Alike
        (fun leftShoots rightShoots =>
          leftShoots.map (fun shoot => shoot.leaves.length) =
            rightShoots.map (fun shoot => shoot.leaves.length))
        (left.shootsAlong leftPose word) (right.shootsAlong rightPose word) := by
  induction word with
  | nil =>
      intro leftPose rightPose
      exact .pure rfl
  | cons symbol rest ih =>
      intro leftPose rightPose
      unfold shootsAlong
      cases Command.ofSymbol symbol with
      | turn plane backward => exact ih _ _
      | ignore => exact ih _ _
      | grow =>
          simp only [steps, leaves]
          apply Alike.bind (Alike.refl _)
          rintro samples _ rfl
          apply Alike.bind (ih _ _)
          intro leftLater rightLater later
          apply Alike.pure
          simp only [List.map_append, map_leaves_run, later]

/-- The number of steps along a text depends on nothing else either. -/
theorem stepsAlong_eq {left right : Conditions} (steps : left.stepsPerRun = right.stepsPerRun)
    (word : Word) : left.stepsAlong word = right.stepsAlong word := by
  induction word with
  | nil => rfl
  | cons symbol rest ih => rw [stepsAlong, stepsAlong, steps, ih]

end Conditions

namespace Species

variable {left right : Species}

theorem stepsPerRun_eq (same : left.scheme = right.scheme) :
    left.stepsPerRun = right.stepsPerRun := by
  have points : left.controlPoints = right.controlPoints := congrArg Scheme.controlPoints same
  rw [stepsPerRun, stepsPerRun, nodesPerRun, nodesPerRun, points]

theorem leavesAt_eq (same : left.scheme = right.scheme) (creationDepth : Nat) :
    left.leavesAt creationDepth = right.leavesAt creationDepth := by
  have points : left.controlPoints = right.controlPoints := congrArg Scheme.controlPoints same
  have leaves : left.leavesPerBranch = right.leavesPerBranch :=
    congrArg Scheme.leavesPerBranch same
  have first : left.firstLeafyDepth = right.firstLeafyDepth :=
    congrArg Scheme.firstLeafyDepth same
  rw [leavesAt, leavesAt, leavesPerStep, leavesPerStep, nodesPerRun, nodesPerRun, points,
    leaves, first]

end Species

/-- The sketch of a branch that has been visited, and the report of the visit. -/
def BranchGrowth.sketch (growth : BranchGrowth) : BranchSketch × Tally :=
  (growth.branch.sketch, growth.tally)

namespace Branch

variable {left right : Branch} {leftSpecies rightSpecies : Species}

/-- A branch has grown if its sketch counts any nodes. -/
theorem isGrown_eq_of_sketch (same : left.sketch = right.sketch) :
    left.isGrown = right.isGrown := by
  have counts : left.nodes.length = right.nodes.length := congrArg BranchSketch.nodeCount same
  rw [Bool.eq_iff_iff]
  simp [isGrown, ← List.length_eq_zero_iff, counts]

/-- What extends the sketch of a branch is the number of shoots and of their leaves. -/
theorem sketch_extend_eq (same : left.sketch = right.sketch)
    {leftShoots rightShoots : List Shoot}
    (shoots : leftShoots.map (fun shoot => shoot.leaves.length) =
      rightShoots.map (fun shoot => shoot.leaves.length)) (leftStart rightStart : Vec3) :
    (left.extend leftStart leftShoots).sketch = (right.extend rightStart rightShoots).sketch := by
  have count : leftShoots.length = rightShoots.length := by
    simpa using congrArg List.length shoots
  simp only [sketch, BranchSketch.mk.injEq] at same
  rcases same with ⟨id, depth, label, nesting, parent, nodes, leaves⟩
  simp [sketch, extend, id, depth, label, nesting, parent, nodes, leaves, count,
    List.length_flatMap, shoots]

theorem alike_growOnce (scheme : leftSpecies.scheme = rightSpecies.scheme)
    (same : left.sketch = right.sketch) (leftEnvironment rightEnvironment : Environment)
    (leftPose rightPose : Pose) :
    Alike (fun leftGrowth rightGrowth => leftGrowth.sketch = rightGrowth.sketch)
      (left.growOnce leftSpecies leftEnvironment leftPose)
      (right.growOnce rightSpecies rightEnvironment rightPose) := by
  unfold growOnce
  rw [isGrown_eq_of_sketch same]
  split
  · apply Alike.pure
    simp [BranchGrowth.sketch, same]
  · have label : left.label = right.label := congrArg BranchSketch.label same
    have depth : left.creationDepth = right.creationDepth :=
      congrArg BranchSketch.creationDepth same
    have perRun := Species.stepsPerRun_eq scheme
    unfold grow
    rw [label, depth]
    apply Alike.bind
    · exact Conditions.alike_shootsAlong perRun (Species.leavesAt_eq scheme _) _ _ _
    · intro leftShoots rightShoots shoots
      have extended := sketch_extend_eq same shoots leftPose.position rightPose.position
      have steps :
          (leftSpecies.conditions leftEnvironment right.creationDepth).stepsAlong right.label =
            (rightSpecies.conditions rightEnvironment right.creationDepth).stepsAlong
              right.label :=
        Conditions.stepsAlong_eq perRun right.label
      have leavesBefore : left.leaves.length = right.leaves.length :=
        congrArg BranchSketch.leafCount same
      have leavesAfter : (left.extend leftPose.position leftShoots).leaves.length =
          (right.extend rightPose.position rightShoots).leaves.length :=
        congrArg BranchSketch.leafCount extended
      apply Alike.pure
      simp only [BranchGrowth.sketch, extended, steps, leavesBefore, leavesAfter]

end Branch

/-! ## Growth passes -/

namespace Visit

theorem alike_along {leftSpecies rightSpecies : Species}
    (scheme : leftSpecies.scheme = rightSpecies.scheme)
    (leftEnvironment rightEnvironment : Environment) (leftBranches : List Branch) :
    (rightBranches : List Branch) → (leftStack rightStack : PoseStack) →
      leftBranches.map Branch.sketch = rightBranches.map Branch.sketch →
      Alike
        (fun leftVisits rightVisits =>
          leftVisits.map (fun visit => visit.toBranchGrowth.sketch) =
            rightVisits.map (fun visit => visit.toBranchGrowth.sketch))
        (along leftSpecies leftEnvironment leftStack leftBranches)
        (along rightSpecies rightEnvironment rightStack rightBranches) := by
  induction leftBranches with
  | nil =>
      intro rightBranches leftStack rightStack same
      have empty : rightBranches = [] := by simpa using same.symm
      rw [empty]
      exact .pure rfl
  | cons left leftRest ih =>
      intro rightBranches leftStack rightStack same
      cases rightBranches with
      | nil => simp at same
      | cons right rightRest =>
          rw [List.map_cons, List.map_cons, List.cons.injEq] at same
          rcases same with ⟨first, rest⟩
          apply Alike.bind (Branch.alike_growOnce scheme first _ _ _ _)
          intro leftGrowth rightGrowth growth
          apply Alike.bind (ih rightRest _ _ rest)
          intro leftLater rightLater later
          apply Alike.pure
          rw [List.map_cons, List.map_cons, growth, later]

end Visit

/-- The sketches of the branches after a pass, and its report. -/
def Pass.sketch (pass : Pass) : List BranchSketch × Tally :=
  (pass.branches.map Branch.sketch, pass.tally)

theorem Pass.alike_run {left right : Species} (scheme : left.scheme = right.scheme)
    (leftEnvironment rightEnvironment : Environment) (leftBase rightBase : Vec3)
    {leftBranches rightBranches : List Branch}
    (same : leftBranches.map Branch.sketch = rightBranches.map Branch.sketch) :
    Alike (fun leftPass rightPass => leftPass.sketch = rightPass.sketch)
      (run left leftEnvironment leftBase leftBranches)
      (run right rightEnvironment rightBase rightBranches) := by
  apply Alike.bind (Visit.alike_along scheme _ _ _ _ _ _ same)
  intro leftVisits rightVisits visits
  apply Alike.pure
  have sketches := congrArg (List.map Prod.fst) visits
  have tallies := congrArg (List.map Prod.snd) visits
  rw [List.map_map, List.map_map] at sketches tallies
  simp only [sketch, ofVisits, List.map_map]
  exact Prod.ext sketches (congrArg Tally.sum tallies)

theorem Plant.alike_grow {left right : Plant} (same : left.sketch = right.sketch)
    (leftEnvironment rightEnvironment : Environment) :
    Alike (fun leftGrowth rightGrowth => leftGrowth.sketch = rightGrowth.sketch)
      (left.grow leftEnvironment) (right.grow rightEnvironment) := by
  have branches : left.crown.branches.map Branch.sketch =
      right.crown.branches.map Branch.sketch := congrArg PlantSketch.branches same
  apply Alike.bind (Pass.alike_run (PlantSketch.scheme_eq same) _ _ _ _ branches)
  intro leftPass rightPass pass
  apply Alike.pure
  rcases Prod.mk.inj pass with ⟨passBranches, tally⟩
  simp only [sketch, PlantSketch.mk.injEq] at same
  simp only [Growth.sketch, sketch, same, passBranches, tally]

/-! ## Generations -/

namespace Crown

variable {left right : Crown}

theorem map_sketch_buds (same : left.nextId = right.nextId) (count creationDepth : Nat) :
    (left.buds count creationDepth).map Branch.sketch =
      (right.buds count creationDepth).map Branch.sketch := by
  rw [buds, buds, same]

theorem sketch_insertBuds_eq (same : left.sketch = right.sketch)
    (count position creationDepth : Nat) :
    (left.insertBuds count position creationDepth).sketch =
      (right.insertBuds count position creationDepth).sketch := by
  rcases Prod.mk.inj same with ⟨branches, nextId⟩
  simp only [sketch, insertBuds, List.map_append, List.map_take, List.map_drop, branches,
    nextId, map_sketch_buds nextId]

theorem sketch_align_eq (same : left.sketch = right.sketch) (word : Word)
    (creationDepth : Nat) :
    (left.align word creationDepth).sketch = (right.align word creationDepth).sketch := by
  rcases Prod.mk.inj same with ⟨branches, nextId⟩
  have count : left.branches.length = right.branches.length := by
    simpa using congrArg List.length branches
  -- A place is given to a branch as it is to its sketch.
  have place : ∀ (branches : List Branch) (openings : List Opening),
      (List.zipWith Branch.place branches openings).map Branch.sketch =
        List.zipWith BranchSketch.place (branches.map Branch.sketch) openings := by
    intro branches openings
    rw [List.map_zipWith, List.zipWith_map_left]
    rfl
  simp only [sketch, align, place, List.map_append, branches, nextId, count,
    map_sketch_buds nextId]

end Crown

namespace Plant

variable {left right : Plant}

theorem sketch_adopt_eq (same : left.sketch = right.sketch) (generation : Generation) :
    (left.adopt generation).sketch = (right.adopt generation).sketch := by
  have depth : left.depth = right.depth := congrArg PlantSketch.depth same
  have budded : ∀ (buddings : List Budding) {leftCrown rightCrown : Crown},
      leftCrown.sketch = rightCrown.sketch →
      (buddings.foldl (fun (crown : Crown) budding =>
          crown.insertBuds budding.count budding.position (right.depth + 1)) leftCrown).sketch =
        (buddings.foldl (fun (crown : Crown) budding =>
          crown.insertBuds budding.count budding.position (right.depth + 1))
            rightCrown).sketch := by
    intro buddings
    induction buddings with
    | nil =>
        intro leftCrown rightCrown crown
        exact crown
    | cons budding rest ih =>
        intro leftCrown rightCrown crown
        exact ih (Crown.sketch_insertBuds_eq crown _ _ _)
  have crown := Crown.sketch_align_eq (budded generation.buddings (PlantSketch.crown_eq same))
    generation.word (right.depth + 1)
  rcases Prod.mk.inj crown with ⟨branches, nextId⟩
  simp only [sketch, adopt, depth, PlantSketch.scheme_eq same, branches, nextId]

theorem alike_advance? (same : left.sketch = right.sketch) :
    Alike (fun leftNext rightNext => leftNext.map sketch = rightNext.map sketch)
      left.advance? right.advance? := by
  have word : left.word = right.word := congrArg PlantSketch.word same
  have productions : left.species.productions = right.species.productions :=
    congrArg Scheme.productions (PlantSketch.scheme_eq same)
  have derived : left.isFullyDerived = right.isFullyDerived := by
    have depth : left.depth = right.depth := congrArg PlantSketch.depth same
    have maxDepth : left.species.maxDepth = right.species.maxDepth :=
      congrArg Scheme.maxDepth (PlantSketch.scheme_eq same)
    rw [isFullyDerived, isFullyDerived, depth, maxDepth]
  unfold advance?
  rw [derived, word, productions]
  split
  · exact .pure rfl
  · apply Alike.bind (Alike.refl _)
    rintro generation _ rfl
    apply Alike.pure
    rw [Option.map_some, Option.map_some, sketch_adopt_eq same]

theorem alike_update (same : left.sketch = right.sketch)
    (leftEnvironment rightEnvironment : Environment) :
    Alike (fun leftGrowth rightGrowth => leftGrowth.sketch = rightGrowth.sketch)
      (left.update leftEnvironment) (right.update rightEnvironment) := by
  apply Alike.bind (alike_grow same _ _)
  intro leftBefore rightBefore before
  rcases Prod.mk.inj before with ⟨plant, tally⟩
  apply Alike.bind (alike_advance? plant)
  intro leftNext? rightNext? next
  cases leftNext? with
  | none =>
      cases rightNext? with
      | some rightNext => simp at next
      | none => exact .pure before
  | some leftNext =>
      cases rightNext? with
      | none => simp at next
      | some rightNext =>
          apply Alike.bind (alike_grow (Option.some.inj next) _ _)
          intro leftAfter rightAfter after
          apply Alike.pure
          rcases Prod.mk.inj after with ⟨plantAfter, tallyAfter⟩
          simp only [Growth.sketch, plantAfter, tally, tallyAfter]

theorem sketch_sow_eq {left right : Species} (same : left.scheme = right.scheme)
    (leftPoint rightPoint : Vec3) :
    (sow left leftPoint).sketch = (sow right rightPoint).sketch := by
  have initiator : left.initiator = right.initiator := congrArg Scheme.initiator same
  simp only [sketch, sow, same, initiator]

end Plant

end Arbor
