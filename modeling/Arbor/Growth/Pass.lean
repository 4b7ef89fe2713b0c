import Arbor.Crown
import Arbor.Growth.Shoot

/-!
# A growth pass

A growth pass visits the branches of a crown in order.  A branch that has no
geometry yet grows from the pose at which the branch around it ends; a grown one
stays as it is and only hands on its own end.

A tally counts what a growth pass, or several of them, have brought forth.
Tallies are added componentwise, in the order of the growth.
-/

namespace Arbor

/-! ## Tallies -/

/-- What growth has brought forth. -/
structure Tally where
  branches : Nat
  segments : Nat
  leaves : Nat
  deriving DecidableEq, Inhabited, Repr

namespace Tally

/-- The tally of no growth. -/
def zero : Tally := ⟨0, 0, 0⟩

/-- What two growths have brought forth together. -/
def add (left right : Tally) : Tally :=
  ⟨left.branches + right.branches, left.segments + right.segments, left.leaves + right.leaves⟩

instance : Zero Tally := ⟨zero⟩
instance : Add Tally := ⟨add⟩

/-- What a list of growths has brought forth. -/
def sum (tallies : List Tally) : Tally :=
  tallies.foldl (· + ·) 0

end Tally

/-! ## The growth of a branch -/

/-- A branch after it has been given the occasion to grow, and what has grown. -/
structure BranchGrowth where
  branch : Branch
  /-- The segments that have grown, in the order of their growth. -/
  segments : List Segment
  tally : Tally
  deriving DecidableEq, Inhabited, Repr

namespace Branch

/-- Append a first node and the nodes and leaves of the shoots from there. -/
def extend (branch : Branch) (start : Vec3) (shoots : List Shoot) : Branch :=
  { branch with
    nodes := branch.nodes ++ start :: shoots.map (·.finish.position)
    leaves := branch.leaves ++ shoots.flatMap (·.leaves) }

/-- The segments of shoots that are about to be appended after a first node. -/
def shootSegments (branch : Branch) (radius : Float32) (shoots : List Shoot) : List Segment :=
  (shoots.zipIdx branch.nodes.length).map fun (shoot, nodeIndex) =>
    ⟨branch.id, nodeIndex, shoot.start, shoot.finish.position, radius⟩

/-- Grow a branch from a pose, whether or not it has nodes already.  The segments are counted
along the text, and the leaves by comparing the branch with what it was. -/
def grow (species : Species) (environment : Environment) (pose : Pose) (branch : Branch) :
    Drawing BranchGrowth := do
  let conditions := species.conditions environment branch.creationDepth
  let shoots ← conditions.shootsAlong pose branch.label
  let grown := branch.extend pose.position shoots
  pure
    { branch := grown
      segments := branch.shootSegments conditions.radius shoots
      tally :=
        ⟨1, conditions.stepsAlong branch.label, grown.leaves.length - branch.leaves.length⟩ }

/-- Grow a branch unless it has grown before; then it reports nothing. -/
def growOnce (species : Species) (environment : Environment) (pose : Pose) (branch : Branch) :
    Drawing BranchGrowth :=
  if branch.isGrown then
    pure ⟨branch, [], 0⟩
  else
    branch.grow species environment pose

/-- The reported number of segments, which is counted along the text, is that of the segments
that have grown. -/
theorem segments_tally_growOnce (species : Species) (environment : Environment) (pose : Pose)
    (branch : Branch) (draws : Draws) :
    let growth := (branch.growOnce species environment pose draws).1
    growth.tally.segments = growth.segments.length := by
  unfold growOnce
  split
  · rfl
  · simp [grow, shootSegments]

/-- The pose that a branch hands on to those that grow from it, given the pose
that was handed to itself: its last node and the direction from its first node
to its last, if there is one. -/
def exit (branch : Branch) (entry : Pose) : Pose where
  position := branch.tip?.getD entry.position
  heading := (branch.span?.filter fun span => !span.isZero).getD entry.heading

end Branch

/-- What happens to one branch in a growth pass. -/
structure Visit extends BranchGrowth where
  /-- The poses at which the branches around this one end, above the lowest one.
  The branch starts from the highest. -/
  stack : PoseStack
  deriving DecidableEq, Inhabited, Repr

namespace Visit

/-- Visit branches in order, given the stack that the branch before has left. -/
def along (species : Species) (environment : Environment) (stack : PoseStack) :
    List Branch → Drawing (List Visit)
  | [] => pure []
  | branch :: rest => do
      let stack := stack.unwind branch.nesting
      let growth ← branch.growOnce species environment stack.top
      let later ← along species environment (stack.push (growth.branch.exit stack.top)) rest
      pure (⟨growth, stack⟩ :: later)

end Visit

/-- What a growth pass makes of the branches, and what has grown in it. -/
structure Pass where
  branches : List Branch
  /-- The segments that have grown, in the order of their growth. -/
  segments : List Segment
  tally : Tally
  deriving DecidableEq, Inhabited, Repr

namespace Pass

/-- The pass that consists of the given visits. -/
def ofVisits (visits : List Visit) : Pass where
  branches := visits.map (·.branch)
  segments := visits.flatMap (·.segments)
  tally := Tally.sum (visits.map (·.tally))

/-- Grow every branch that has not grown.  Branches around which there is no
other start at the given point and head upward. -/
def run (species : Species) (environment : Environment) (base : Vec3)
    (branches : List Branch) : Drawing Pass := do
  let visits ← Visit.along species environment (PoseStack.single ⟨base, Vec3.up⟩) branches
  pure (ofVisits visits)

end Pass

end Arbor
