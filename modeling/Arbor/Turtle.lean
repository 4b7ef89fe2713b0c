import Arbor.Space
import Arbor.Word

/-!
# The turtle

Every symbol of a branch's text is a command to the turtle that draws the
branch.  Each plane has one symbol for either sense of turning, `F` grows, and
all other symbols mean nothing to the turtle.

A pose is where the turtle stands and where it heads.  While the branches of a
plant are visited in order, a stack keeps the poses at which the enclosing
branches end, so that a branch begins where the branch around it ends.  The
lowest pose, that of the plant itself, is never removed.
-/

namespace Arbor

/-! ## Commands -/

/-- What a symbol tells the turtle to do. -/
inductive Command where
  /-- Turn the heading within a plane, against the positive sense if `backward`. -/
  | turn (plane : Plane) (backward : Bool)
  | grow
  | ignore
  deriving DecidableEq, Inhabited, Repr

namespace Command

/-- The command of a symbol. -/
def ofSymbol (symbol : Symbol) : Command :=
  if symbol = '/' then turn .xy false
  else if symbol = '\\' then turn .xy true
  else if symbol = '+' then turn .yz false
  else if symbol = '-' then turn .yz true
  else if symbol = '&' then turn .xz false
  else if symbol = '^' then turn .xz true
  else if symbol = 'F' then grow
  else ignore

end Command

/-! ## Poses and their stack -/

/-- A place and a heading of the turtle. -/
structure Pose where
  position : Vec3
  heading : Vec3
  deriving DecidableEq, Inhabited, Repr

/-- A stack of poses that is never empty. -/
structure PoseStack where
  base : Pose
  /-- The other poses, from the lowest to the highest. -/
  others : List Pose
  deriving DecidableEq, Inhabited, Repr

namespace PoseStack

/-- The stack with the lowest pose alone. -/
def single (base : Pose) : PoseStack := ⟨base, []⟩

/-- The number of poses, the lowest one included. -/
def size (stack : PoseStack) : Nat :=
  stack.others.length + 1

/-- The highest pose. -/
def top (stack : PoseStack) : Pose :=
  stack.others.getLast?.getD stack.base

/-- Put a pose on top. -/
def push (stack : PoseStack) (pose : Pose) : PoseStack :=
  { stack with others := stack.others ++ [pose] }

/-- Remove poses until at most one more than `nesting` remain.  What is then on
top belongs to the branch around one with that nesting. -/
def unwind (stack : PoseStack) (nesting : Nat) : PoseStack :=
  { stack with others := stack.others.take nesting }

@[simp] theorem top_single (base : Pose) : (single base).top = base := rfl

@[simp] theorem top_push (stack : PoseStack) (pose : Pose) : (stack.push pose).top = pose := by
  simp [top, push]

@[simp] theorem size_push (stack : PoseStack) (pose : Pose) :
    (stack.push pose).size = stack.size + 1 := by
  simp [size, push]

@[simp] theorem size_unwind (stack : PoseStack) (nesting : Nat) :
    (stack.unwind nesting).size = min (nesting + 1) stack.size := by
  simp [size, unwind]

end PoseStack

end Arbor
