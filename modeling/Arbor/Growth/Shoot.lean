import Arbor.Branch
import Arbor.Random
import Arbor.Species.Basic
import Arbor.Turtle

/-!
# Shoots

One `F` grows a run of shoots, each from one node to the next.  For a shoot a
point is sampled in a cone around the heading and kept above the ground; toward
it the heading bends, and the sun and the ground bend it further.  The next node
lies at the sampled distance along the bent heading.

Leaves sit on the lateral surface of a shoot at random angles and heights,
lifted off the bark by half their size, and their normals are tilted a little.

The random numbers of a shoot and of its leaves are drawn first, and its
geometry is a function of them, so the geometry has no influence on what is
drawn.
-/

namespace Arbor

/-! ## Leaves along a stem -/

/-- A cylinder with an axis, on which leaves may sit. -/
structure Stem where
  start : Vec3
  finish : Vec3
  radius : Float32
  direction : Vec3
  deriving DecidableEq, Inhabited, Repr

/-- The random numbers that place a leaf, each in the unit interval. -/
structure LeafSample where
  angle : Float32
  height : Float32
  tiltX : Float32
  tiltY : Float32
  tiltZ : Float32
  deriving DecidableEq, Inhabited, Repr

namespace LeafSample

/-- Draw the five numbers of a leaf, in the order of the fields. -/
def draw : Drawing LeafSample := do
  let angle ← Drawing.unit
  let height ← Drawing.unit
  let tiltX ← Drawing.unit
  let tiltY ← Drawing.unit
  let tiltZ ← Drawing.unit
  pure ⟨angle, height, tiltX, tiltY, tiltZ⟩

/-- The greatest tilt about one axis: fifteen degrees. -/
def maxTilt : Float32 := 15 * halfTurnAngle / 180

/-- The tilt that a number of the unit interval stands for, of either sense. -/
def tiltOf (sample : Float32) : Float32 :=
  (sample * 2 - 1) * maxTilt

end LeafSample

/-- The leaves of the given samples on a stem, with their centres at the
distance `lift` from the bark. -/
def Stem.leaves (stem : Stem) (lift : Float32) (samples : List LeafSample) : List Leaf :=
  let length := stem.start.distance stem.finish
  let rotation := Quaternion.alignUp stem.direction
  samples.map fun sample =>
    let angle := sample.angle * fullTurnAngle
    let height := sample.height * length
    let outward : Vec3 := ⟨angle.cos, 0, angle.sin⟩
    let surface := outward * stem.radius + Vec3.up * height
    let normal := rotation.rotate outward
    let tilt := Quaternion.tilt (LeafSample.tiltOf sample.tiltX)
      (LeafSample.tiltOf sample.tiltY) (LeafSample.tiltOf sample.tiltZ)
    { position := stem.start + rotation.rotate surface + normal * lift
      orientation := (tilt.rotate normal).normalizeOr normal }

@[simp] theorem Stem.length_leaves (stem : Stem) (lift : Float32) (samples : List LeafSample) :
    (stem.leaves lift samples).length = samples.length := by
  simp [Stem.leaves]

namespace Species

/-- The distance of the centre of a leaf from the bark. -/
def leafLift (species : Species) : Float32 :=
  species.leafSize * 0.5

/-- Draw the leaves of one stem of a branch of the given generation. -/
def scatter (species : Species) (creationDepth : Nat) (stem : Stem) : Drawing (List Leaf) := do
  let samples ← Drawing.replicate (species.leavesAt creationDepth) LeafSample.draw
  pure (stem.leaves species.leafLift samples)

end Species

/-! ## Shoots along a branch -/

/-- The surroundings that all plants of a garden share. -/
structure Environment where
  /-- The point toward which plants are pulled. -/
  sun : Vec3
  deriving DecidableEq, Inhabited, Repr

/-- The environment with the sun far above the origin. -/
def Environment.noon : Environment := ⟨⟨0, 100, 0⟩⟩

/-- The height of the ground, which no node lies below. -/
def groundLevel : Float32 := 0

/-- A point that is not above the ground is reflected at it. -/
def Vec3.aboveGround (point : Vec3) : Vec3 :=
  if point.y ≤ groundLevel then
    ⟨point.x, 2 * groundLevel - point.y, point.z⟩
  else
    point

/-- The random numbers of the point in the cone, each in the unit interval. -/
structure ConeSample where
  height : Float32
  spread : Float32
  angle : Float32
  deriving DecidableEq, Inhabited, Repr

/-- Draw the three numbers of a point, in the order of the fields. -/
def ConeSample.draw : Drawing ConeSample := do
  let height ← Drawing.unit
  let spread ← Drawing.unit
  let angle ← Drawing.unit
  pure ⟨height, spread, angle⟩

/-- The random numbers of one shoot and its leaves. -/
structure ShootSample where
  cone : ConeSample
  leaves : List LeafSample
  deriving DecidableEq, Inhabited, Repr

/-- Draw the numbers of a shoot with the given number of leaves. -/
def ShootSample.draw (leafCount : Nat) : Drawing ShootSample := do
  let cone ← ConeSample.draw
  let leaves ← Drawing.replicate leafCount LeafSample.draw
  pure ⟨cone, leaves⟩

/-- The growth from one node of a branch to the next. -/
structure Shoot where
  start : Vec3
  /-- The next node and the heading there. -/
  finish : Pose
  leaves : List Leaf
  deriving DecidableEq, Inhabited, Repr

/-- The pose at the end of shoots that begin at a pose. -/
def Pose.after (pose : Pose) (shoots : List Shoot) : Pose :=
  (shoots.getLast?.map Shoot.finish).getD pose

/-- The circumstances under which a branch grows. -/
structure Conditions where
  turnAngle : Float32
  /-- The number of shoots that one `F` grows. -/
  stepsPerRun : Nat
  leavesPerStep : Nat
  /-- The size of the branch relative to those of the first generation. -/
  taper : Float32
  radius : Float32
  /-- The greatest height of a point in the cone. -/
  maxHeight : Float32
  /-- The greatest spread of a point in the cone, relative to its relative height. -/
  maxDeviation : Float32
  /-- The point toward which the heading is pulled. -/
  sun : Vec3
  /-- The strength of that pull before it is tapered. -/
  phototropism : Float32
  /-- The pull toward the ground. -/
  sag : Vec3
  /-- The distance of the centre of a leaf from the bark. -/
  leafLift : Float32
  deriving DecidableEq, Inhabited, Repr

/-- The circumstances of a branch of the given generation. -/
def Species.conditions (species : Species) (environment : Environment) (creationDepth : Nat) :
    Conditions :=
  let taper := species.taper creationDepth
  { turnAngle := species.turnAngle
    stepsPerRun := species.stepsPerRun
    leavesPerStep := species.leavesAt creationDepth
    taper := taper
    radius := species.radiusAt creationDepth
    maxHeight := species.drawLength * taper / Float32.ofNat species.nodesPerRun
    maxDeviation := species.maxDeviation
    sun := environment.sun
    phototropism := species.phototropism
    sag := Vec3.down * species.gravitropism * taper
    leafLift := species.leafLift }

namespace Conditions

/-- The sampled point of the cone around the upward direction. -/
def conePoint (conditions : Conditions) (sample : ConeSample) : Vec3 :=
  let spread := sample.spread * sample.height * conditions.maxDeviation
  let angle := sample.angle * fullTurnAngle
  ⟨spread * angle.cos, sample.height * conditions.maxHeight, spread * angle.sin⟩

/-- The node that a cone sample leads to, with the heading there. -/
def step (conditions : Conditions) (pose : Pose) (sample : ConeSample) : Pose :=
  let offset := (Quaternion.alignUp pose.heading).rotate (conditions.conePoint sample)
  let candidate := (pose.position + offset).aboveGround
  let lean := (conditions.sun - candidate).normalizeOr Vec3.zero * conditions.phototropism *
    conditions.taper
  let heading := (candidate - pose.position + lean + conditions.sag).normalizeOr pose.heading
  ⟨(pose.position + heading * offset.length).aboveGround, heading⟩

/-- The shoot that grows from a pose with the given random numbers. -/
def shoot (conditions : Conditions) (pose : Pose) (sample : ShootSample) : Shoot :=
  let finish := conditions.step pose sample.cone
  { start := pose.position
    finish := finish
    leaves :=
      (⟨pose.position, finish.position, conditions.radius, finish.heading⟩ : Stem).leaves
        conditions.leafLift sample.leaves }

/-- The shoots of a list of samples, each beginning where the one before ends. -/
def run (conditions : Conditions) (pose : Pose) : List ShootSample → List Shoot
  | [] => []
  | sample :: rest =>
      let shoot := conditions.shoot pose sample
      shoot :: conditions.run shoot.finish rest

/-- Draw the shoots along a branch, from a pose, for the text of the branch. -/
def shootsAlong (conditions : Conditions) (pose : Pose) : Word → Drawing (List Shoot)
  | [] => pure []
  | symbol :: rest =>
      match Command.ofSymbol symbol with
      | .turn plane backward =>
          let angle := if backward then -conditions.turnAngle else conditions.turnAngle
          conditions.shootsAlong { pose with heading := pose.heading.turn plane angle } rest
      | .grow => do
          let samples ← Drawing.replicate conditions.stepsPerRun
            (ShootSample.draw conditions.leavesPerStep)
          let pose := { pose with heading := pose.heading.normalizeOr Vec3.up }
          let shoots := conditions.run pose samples
          let later ← conditions.shootsAlong (pose.after shoots) rest
          pure (shoots ++ later)
      | .ignore => conditions.shootsAlong pose rest

/-- The number of nodes that the text of a branch adds to its first one: all steps of
every `F`. -/
def stepsAlong (conditions : Conditions) : Word → Nat
  | [] => 0
  | symbol :: rest =>
      match Command.ofSymbol symbol with
      | .grow => conditions.stepsPerRun + conditions.stepsAlong rest
      | .turn _ _ | .ignore => conditions.stepsAlong rest

@[simp] theorem length_run (conditions : Conditions) (pose : Pose)
    (samples : List ShootSample) : (conditions.run pose samples).length = samples.length := by
  induction samples generalizing pose with
  | nil => rfl
  | cons sample rest ih => simp [run, ih]

/-- The steps are counted apart from the shoots, and there is a shoot for each. -/
@[simp] theorem length_shootsAlong (conditions : Conditions) (pose : Pose) (word : Word)
    (draws : Draws) :
    (conditions.shootsAlong pose word draws).1.length = conditions.stepsAlong word := by
  induction word generalizing pose draws with
  | nil => rfl
  | cons symbol rest ih =>
      rw [shootsAlong, stepsAlong]
      cases Command.ofSymbol symbol with
      | turn plane backward => exact ih _ _
      | grow => simp [ih]
      | ignore => exact ih _ _

end Conditions

/-- The leaves of a shoot are those that its species scatters on the stem of the shoot. -/
theorem Species.scatter_eq_leaves_shoot (species : Species) (environment : Environment)
    (creationDepth : Nat) (pose : Pose) (draws : Draws) :
    let conditions := species.conditions environment creationDepth
    let sample := ShootSample.draw conditions.leavesPerStep draws
    let shoot := conditions.shoot pose sample.1
    species.scatter creationDepth
        ⟨shoot.start, shoot.finish.position, conditions.radius, shoot.finish.heading⟩
        (ConeSample.draw draws).2 =
      (shoot.leaves, sample.2) := rfl

end Arbor
