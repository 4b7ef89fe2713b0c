import Arbor.Space
import Arbor.Word

/-!
# Branches

A branch belongs to one opening bracket of the word of its plant.  It keeps the
text and the place of its bracket, and the geometry that was grown for it: a
polyline of nodes and the leaves along it.  A branch without nodes has not grown
yet; once it has nodes it is never grown again.

A segment is the piece of a branch between two consecutive nodes.  It is drawn,
and weighed, as a cylinder whose axis joins the nodes.
-/

namespace Arbor

/-- A leaf on the bark of a branch. -/
structure Leaf where
  position : Vec3
  orientation : Vec3
  deriving DecidableEq, Inhabited, Repr

/-- The record of one opening bracket. -/
structure Branch where
  /-- The identifier, which the branch keeps while its place changes. -/
  id : UInt32
  /-- The generation in which the bracket entered the word. -/
  creationDepth : Nat
  /-- The text between the bracket and the next one. -/
  label : Word
  /-- The number of brackets around the branch. -/
  nesting : Nat
  /-- The index of the branch that this one grows from. -/
  parent : Option Nat
  /-- The nodes of the polyline, from the base to the tip. -/
  nodes : List Vec3
  leaves : List Leaf
  deriving DecidableEq, Inhabited, Repr

namespace Branch

/-- A branch that has neither a text nor any geometry. -/
def bud (id : UInt32) (creationDepth : Nat) : Branch :=
  ⟨id, creationDepth, [], 0, none, [], []⟩

/-- Whether the branch has geometry.  A branch without `F` has its first node alone. -/
def isGrown (branch : Branch) : Bool :=
  !branch.nodes.isEmpty

/-- The first node, if the branch has grown. -/
def base? (branch : Branch) : Option Vec3 :=
  branch.nodes.head?

/-- The last node, if the branch has grown. -/
def tip? (branch : Branch) : Option Vec3 :=
  branch.nodes.getLast?

/-- The difference between the last node and the first. -/
def span? (branch : Branch) : Option Vec3 := do
  let tip ← branch.tip?
  let base ← branch.base?
  pure (tip - base)

/-- Give the branch the text and the place of an opening bracket.  Its
identity and its geometry stay. -/
def place (branch : Branch) (opening : Opening) : Branch :=
  { branch with
    label := opening.label
    nesting := opening.nesting
    parent := opening.parent }

/-- The opening bracket that the branch stands for. -/
def opening (branch : Branch) : Opening :=
  ⟨branch.label, branch.nesting, branch.parent⟩

@[simp] theorem opening_place (branch : Branch) (opening : Opening) :
    (branch.place opening).opening = opening := rfl

@[simp] theorem place_opening (branch : Branch) : branch.place branch.opening = branch := rfl

@[simp] theorem isGrown_place (branch : Branch) (opening : Opening) :
    (branch.place opening).isGrown = branch.isGrown := rfl

end Branch

/-! ## Segments -/

/-- The piece of a branch between two consecutive nodes. -/
structure Segment where
  branch : UInt32
  /-- The index of the first of the two nodes within the branch. -/
  nodeIndex : Nat
  start : Vec3
  finish : Vec3
  radius : Float32
  deriving DecidableEq, Inhabited, Repr

/-- A cylinder about the upward direction. -/
structure Cylinder where
  radius : Float32
  halfHeight : Float32
  deriving DecidableEq, Inhabited, Repr

/-- The mass of a cylinder of the given density: base area, times two, times
half the height, times the density, in this order. -/
def Cylinder.mass (cylinder : Cylinder) (density : Float32) : Float32 :=
  halfTurnAngle * (cylinder.radius * cylinder.radius) * 2 * cylinder.halfHeight * density

namespace Segment

/-- The distance between the two nodes. -/
def length (segment : Segment) : Float32 :=
  segment.start.distance segment.finish

/-- The unit vector from the first node to the second; upward where the nodes
coincide. -/
def direction (segment : Segment) : Vec3 :=
  (segment.finish - segment.start).normalizeOr Vec3.up

/-- The point halfway between the two nodes. -/
def center (segment : Segment) : Vec3 :=
  segment.start.mix segment.finish 0.5

/-- The rotation that takes an upright cylinder into the direction of the
segment. -/
def rotation (segment : Segment) : Quaternion :=
  Quaternion.uprightTo segment.direction

/-- The cylinder that the segment fills before it is rotated into its direction. -/
def cylinder (segment : Segment) : Cylinder :=
  ⟨segment.radius, segment.length / 2⟩

/-- The mass of the segment, if it is of the given density. -/
def mass (segment : Segment) (density : Float32) : Float32 :=
  segment.cylinder.mass density

end Segment

/-- The segments of a branch as its nodes show them, with one radius. -/
def Branch.segments (branch : Branch) (radius : Float32) : List Segment :=
  ((branch.nodes.zip branch.nodes.tail).zipIdx).map fun ((start, finish), nodeIndex) =>
    ⟨branch.id, nodeIndex, start, finish, radius⟩

@[simp] theorem Branch.length_segments (branch : Branch) (radius : Float32) :
    (branch.segments radius).length = branch.nodes.length - 1 := by
  simp [Branch.segments]

end Arbor
