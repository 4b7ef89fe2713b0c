import Arbor.Grammar
import Arbor.Space

/-!
# Species

A species holds everything that its plants have in common: the word from which
they start, the productions that derive their words, and the numbers that shape
their growth.  The plants never change it.
-/

namespace Arbor

/-- The parameters of a kind of plant. -/
structure Species where
  /-- The word from which plants start. -/
  initiator : Word
  /-- The productions, in the order in which they are tried. -/
  productions : List Production
  /-- The number of generations that a plant derives. -/
  maxDepth : Nat
  /-- The length of the growth of one `F` on a branch of the first generation. -/
  drawLength : Float32
  /-- The angle of a turn, in degrees. -/
  turnDegrees : Float32
  /-- The radius of the branches of the first generation. -/
  rootRadius : Float32
  /-- The factor by which length, radius and tropisms shrink with each generation. -/
  decay : Float32
  /-- The greatest spread of a step, relative to its relative height. -/
  maxDeviation : Float32
  /-- The number of nodes that one `F` spans, its first one included. -/
  controlPoints : Nat
  /-- The number of leaves on a branch, spread over its steps. -/
  leavesPerBranch : Nat
  /-- The first generation whose branches carry leaves. -/
  firstLeafyDepth : Nat
  /-- The size of a leaf.  Leaves keep half of it away from the bark. -/
  leafSize : Float32
  /-- The strength of the pull toward the sun. -/
  phototropism : Float32
  /-- The strength of the pull toward the ground. -/
  gravitropism : Float32
  woodDensity : Float32
  deriving DecidableEq, Repr

namespace Species

/-- The species from which others are described by what differs: a single stem
without productions. -/
def plain : Species where
  initiator := "[FA]".toList
  productions := []
  maxDepth := 5
  drawLength := 1
  turnDegrees := 30
  rootRadius := 0.05
  decay := 1.4
  maxDeviation := 0.1
  controlPoints := 4
  leavesPerBranch := 0
  firstLeafyDepth := 3
  leafSize := 0.03
  phototropism := 0
  gravitropism := 0
  woodDensity := 700

instance : Inhabited Species := ⟨plain⟩

/-- The angle of a turn, in radians. -/
def turnAngle (species : Species) : Float32 :=
  radians species.turnDegrees

/-- Start from another word, enclosed in brackets unless it begins with one. -/
def withInitiator (species : Species) (word : Word) : Species :=
  { species with initiator := word.enclosed }

/-- Add a production, to be tried after all others. -/
def withProduction (species : Species) (production : Production) : Species :=
  { species with productions := species.productions ++ [production] }

/-- Add productions, to be tried after all others. -/
def withProductions (species : Species) (productions : List Production) : Species :=
  { species with productions := species.productions ++ productions }

/-- The number of nodes that one `F` spans.  It is at least one. -/
def nodesPerRun (species : Species) : Nat :=
  max species.controlPoints 1

/-- The number of shoots that one `F` grows, from each of its nodes to the next. -/
def stepsPerRun (species : Species) : Nat :=
  species.nodesPerRun - 1

/-- The number of leaves along one step, on branches that carry leaves. -/
def leavesPerStep (species : Species) : Nat :=
  species.leavesPerBranch / species.nodesPerRun

/-- The number of leaves along one step of a branch of the given generation. -/
def leavesAt (species : Species) (creationDepth : Nat) : Nat :=
  if creationDepth < species.firstLeafyDepth then 0 else species.leavesPerStep

/-- The greatest exponent of the decay.  Later generations are of the size of that one. -/
def maxDecayExponent : Nat := 2147483647

/-- The size of a branch of generation `depth` relative to one of the first
generation, for a given decay: the reciprocal of the power of the decay.  The
first generation and the decay `1` have relative size `1` exactly. -/
def relativeSize (decay : Float32) (depth : Nat) : Float32 :=
  if decay == 1 || depth == 0 then 1
  else 1 / power decay (min depth maxDecayExponent)

/-- The size of the branches of a generation relative to those of the first one. -/
def taper (species : Species) (creationDepth : Nat) : Float32 :=
  relativeSize species.decay creationDepth

/-- The radius of the branches of a generation. -/
def radiusAt (species : Species) (creationDepth : Nat) : Float32 :=
  species.rootRadius * species.taper creationDepth

end Species

end Arbor
