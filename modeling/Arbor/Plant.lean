import Arbor.Derivation
import Arbor.Growth.Pass

/-!
# Plants

A plant derives its word generation by generation and grows a branch for every
bracket of it.  In each generation buds enter the crown where the successors
begin branches, the crown is aligned with the new word, and the next growth pass
gives geometry to the buds.  Geometry that has grown is never changed.
-/

namespace Arbor

/-- A plant: its word, how often that was derived, and its branches. -/
structure Plant where
  species : Species
  /-- The point of the ground from which the plant grows. -/
  position : Vec3
  word : Word
  /-- The number of generations derived so far. -/
  depth : Nat
  /-- One branch for each opening bracket of the word. -/
  crown : Crown
  deriving DecidableEq, Inhabited, Repr

/-- A plant after growth, and what has grown. -/
structure Growth where
  plant : Plant
  /-- The segments that have grown, in the order of their growth. -/
  segments : List Segment
  tally : Tally
  deriving DecidableEq, Inhabited, Repr

namespace Plant

/-- A plant that has not grown yet, below or above the given point on the
ground. -/
def sow (species : Species) (point : Vec3) : Plant :=
  let word := species.initiator.enclosed
  { species := species
    position := ⟨point.x, groundLevel, point.z⟩
    word := word
    depth := 0
    crown := Crown.ofWord word 0 }

/-- Whether all generations of the species have been derived. -/
def isFullyDerived (plant : Plant) : Bool :=
  plant.depth ≥ plant.species.maxDepth

/-- Whether all generations have been derived and every branch has grown. -/
def isMature (plant : Plant) : Bool :=
  plant.isFullyDerived && plant.crown.branches.all Branch.isGrown

/-- Replace the word by that of a generation and bring the crown in step. -/
def adopt (plant : Plant) (generation : Generation) : Plant :=
  let depth := plant.depth + 1
  let budded := generation.buddings.foldl
    (fun crown budding => crown.insertBuds budding.count budding.position depth) plant.crown
  { plant with
    word := generation.word
    depth := depth
    crown := budded.align generation.word depth }

/-- Derive the next generation, if not all have been derived. -/
def advance? (plant : Plant) : Drawing (Option Plant) :=
  if plant.isFullyDerived then
    pure none
  else do
    let generation ← Generation.next plant.species.productions plant.word
    pure (some (plant.adopt generation))

/-- Grow every branch that has not grown, from the ground point of the plant. -/
def grow (environment : Environment) (plant : Plant) : Drawing Growth := do
  let pass ← Pass.run plant.species environment plant.position plant.crown.branches
  pure
    { plant := { plant with crown := { plant.crown with branches := pass.branches } }
      segments := pass.segments
      tally := pass.tally }

/-- Grow what has not grown, derive the next generation if there is one, and
grow its branches. -/
def update (environment : Environment) (plant : Plant) : Drawing Growth := do
  let before ← plant.grow environment
  let advanced? ← before.plant.advance?
  match advanced? with
  | none => pure before
  | some advanced => do
      let after ← advanced.grow environment
      pure
        { plant := after.plant
          segments := before.segments ++ after.segments
          tally := before.tally + after.tally }

/-- Update a plant until it is mature, but no more than `limit` times.  The
number of updates is returned with the plant. -/
def ripen (environment : Environment) (limit : Nat) (plant : Plant) : Drawing (Plant × Nat) :=
  match limit with
  | 0 => pure (plant, 0)
  | limit + 1 =>
      if plant.isMature then
        pure (plant, 0)
      else do
        let growth ← plant.update environment
        let (ripe, updates) ← growth.plant.ripen environment limit
        pure (ripe, updates + 1)

/-- Every segment of the plant, branch by branch, as the nodes show them. -/
def segments (plant : Plant) : List Segment :=
  plant.crown.branches.flatMap fun branch =>
    branch.segments (plant.species.radiusAt branch.creationDepth)

/-- The mass of all wood, added up in the order of the segments. -/
def woodMass (plant : Plant) : Float32 :=
  (plant.segments.map (·.mass plant.species.woodDensity)).foldl (· + ·) 0

/-- The number of leaves on all branches. -/
def leafCount (plant : Plant) : Nat :=
  (plant.crown.branches.flatMap (·.leaves)).length

end Plant

end Arbor
