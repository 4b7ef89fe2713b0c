/-!
# Space

The numbers of the model are IEEE single-precision floats, and every operation
rounds to the nearest one, ties to even.  Points and directions are triples of
them, with `y` pointing up, and rotations are quaternions.  The order of the
operations is part of each definition, because another order rounds differently:
sums of three products associate to the left, and powers are taken by repeated
squaring.

Besides turns about one axis there are the shortest rotation that takes the
upward direction onto a given one, and the composition of three small tilts.
-/

namespace Arbor

/-! ## Scalars -/

/-- The single-precision number nearest to half a turn. -/
def halfTurnAngle : Float32 := 3.14159265358979323846

/-- The single-precision number nearest to a full turn. -/
def fullTurnAngle : Float32 := 6.28318530717958647692

/-- The angle of a number of degrees. -/
def radians (degrees : Float32) : Float32 :=
  degrees * 0.017453292519943295

/-- `accumulated * base ^ exponent`: the binary digits of the exponent, lowest
first, say which of the successive squares of the base are multiplied in. -/
def powerOnto (accumulated base : Float32) (exponent : Nat) : Float32 :=
  if exponent = 0 then
    accumulated
  else
    powerOnto (if exponent % 2 = 1 then accumulated * base else accumulated)
      (base * base) (exponent / 2)

/-- The power of a number by repeated squaring. -/
def power (base : Float32) (exponent : Nat) : Float32 :=
  powerOnto 1 base exponent

/-! ## Vectors -/

/-- A point or a direction of space. -/
structure Vec3 where
  x : Float32
  y : Float32
  z : Float32
  deriving DecidableEq, Inhabited, Repr

namespace Vec3

/-- The origin. -/
def zero : Vec3 := ⟨0, 0, 0⟩

/-- The direction in which plants head first. -/
def up : Vec3 := ⟨0, 1, 0⟩

/-- The direction in which branches sag. -/
def down : Vec3 := ⟨0, -1, 0⟩

/-- The componentwise sum. -/
def add (left right : Vec3) : Vec3 :=
  ⟨left.x + right.x, left.y + right.y, left.z + right.z⟩

/-- The vector from the right point to the left one. -/
def sub (left right : Vec3) : Vec3 :=
  ⟨left.x - right.x, left.y - right.y, left.z - right.z⟩

/-- The vector with every component multiplied by a factor. -/
def scale (vector : Vec3) (factor : Float32) : Vec3 :=
  ⟨vector.x * factor, vector.y * factor, vector.z * factor⟩

instance : Add Vec3 := ⟨add⟩
instance : Sub Vec3 := ⟨sub⟩
instance : HMul Vec3 Float32 Vec3 := ⟨scale⟩

/-- The scalar product, its three products added from left to right. -/
def dot (left right : Vec3) : Float32 :=
  left.x * right.x + left.y * right.y + left.z * right.z

/-- The vector product. -/
def cross (left right : Vec3) : Vec3 :=
  ⟨left.y * right.z - right.y * left.z,
   left.z * right.x - right.z * left.x,
   left.x * right.y - right.x * left.y⟩

/-- The length, zero for the zero vector. -/
def length (vector : Vec3) : Float32 :=
  (dot vector vector).sqrt

/-- The length of the vector between two points. -/
def distance (left right : Vec3) : Float32 :=
  (left - right).length

/-- The vector scaled to unit length, or the fallback where the reciprocal of
its length is not a positive finite number (no length, an infinite or an
undefined one). -/
def normalizeOr (vector fallback : Vec3) : Vec3 :=
  let reciprocal := 1 / vector.length
  if reciprocal.isFinite && reciprocal > 0 then vector * reciprocal else fallback

/-- The weighted mean of two points; weight `0` gives the first one. -/
def mix (left right : Vec3) (weight : Float32) : Vec3 :=
  left * (1 - weight) + right * weight

/-- Whether every component compares equal to zero, of either sign. -/
def isZero (vector : Vec3) : Bool :=
  vector.x == 0 && vector.y == 0 && vector.z == 0

end Vec3

/-! ## Rotations -/

/-- A rotation of space: the vector part `x`, `y`, `z` and the scalar part `w`. -/
structure Quaternion where
  x : Float32
  y : Float32
  z : Float32
  w : Float32
  deriving DecidableEq, Inhabited, Repr

/-- The plane in which a heading is turned. -/
inductive Plane where
  | xy
  | yz
  | xz
  deriving DecidableEq, Inhabited, Repr

namespace Quaternion

/-- The rotation that leaves every vector as it is. -/
def identity : Quaternion := ⟨0, 0, 0, 1⟩

/-- The turn within a plane, that is about the axis across it. -/
def inPlane (plane : Plane) (angle : Float32) : Quaternion :=
  let sine := (angle * 0.5).sin
  let cosine := (angle * 0.5).cos
  match plane with
  | .xy => ⟨0, 0, sine, cosine⟩
  | .yz => ⟨sine, 0, 0, cosine⟩
  | .xz => ⟨0, sine, 0, cosine⟩

/-- The image of a vector under a rotation. -/
def rotate (rotation : Quaternion) (vector : Vec3) : Vec3 :=
  let axis : Vec3 := ⟨rotation.x, rotation.y, rotation.z⟩
  vector * (rotation.w * rotation.w - axis.dot axis) + axis * (vector.dot axis * 2) +
    axis.cross vector * (rotation.w * 2)

/-- The length of a quaternion, its four squares added in pairs. -/
def length (rotation : Quaternion) : Float32 :=
  (rotation.x * rotation.x + rotation.z * rotation.z +
    (rotation.y * rotation.y + rotation.w * rotation.w)).sqrt

/-- The quaternion scaled to unit length. -/
def normalize (rotation : Quaternion) : Quaternion :=
  let length := rotation.length
  ⟨rotation.x / length, rotation.y / length, rotation.z / length, rotation.w / length⟩

/-- The cosine beyond which a unit vector counts as upright or as hanging
straight down: two units in the last place of `1` below `1`. -/
def uprightCosine : Float32 := 1 - 2 * 1.1920929e-7

/-- The half turn that takes the upward direction to the downward one. -/
def overturn : Quaternion :=
  let axis : Vec3 := (⟨-0, 0, -1⟩ : Vec3) * (halfTurnAngle * 0.5).sin
  ⟨axis.x, axis.y, axis.z, (halfTurnAngle * 0.5).cos⟩

/-- The shortest rotation that takes the upward direction onto a unit vector. -/
def uprightTo (target : Vec3) : Quaternion :=
  let cosine := Vec3.up.dot target
  if cosine > uprightCosine then
    identity
  else if cosine < -uprightCosine then
    overturn
  else
    let axis := Vec3.up.cross target
    normalize ⟨axis.x, axis.y, axis.z, 1 + cosine⟩

/-- The shortest rotation that takes the upward direction onto the direction of
a vector.  A vector without a direction counts as upright. -/
def alignUp (direction : Vec3) : Quaternion :=
  uprightTo (direction.normalizeOr Vec3.up)

/-- The composition of a turn about `x`, one about `y` and one about `z`. -/
def tilt (aroundX aroundY aroundZ : Float32) : Quaternion :=
  let sineX := (aroundX * 0.5).sin
  let cosineX := (aroundX * 0.5).cos
  let sineY := (-aroundY * 0.5).sin
  let cosineY := (-aroundY * 0.5).cos
  let sineZ := (aroundZ * 0.5).sin
  let cosineZ := (aroundZ * 0.5).cos
  let cc := cosineX * cosineZ
  let cs := cosineX * sineZ
  let sc := sineX * cosineZ
  let ss := sineX * sineZ
  ⟨cosineY * sc - sineY * cs,
   -(cosineY * ss + sineY * cc),
   cosineY * cs - sineY * sc,
   cosineY * cc + sineY * ss⟩

end Quaternion

/-- Turn a heading within a plane. -/
def Vec3.turn (heading : Vec3) (plane : Plane) (angle : Float32) : Vec3 :=
  (Quaternion.inPlane plane angle).rotate heading

end Arbor
