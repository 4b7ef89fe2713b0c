import Arbor.Plant
import Arbor.Species.Library

/-!
# Gardens

The plants of a garden grow side by side in one environment, from species of one
library.  They draw from one source of random numbers, one after the other in
the order of the list.
-/

namespace Arbor

/-- Plants that share a library, an environment and a source of draws. -/
structure Garden where
  library : Library
  plants : List Plant
  environment : Environment
  draws : Draws
  deriving Inhabited

namespace Garden

/-- A garden without plants, at noon, with the draws of a seed. -/
def empty (library : Library) (seed : UInt64) : Garden :=
  ⟨library, [], Environment.noon, Draws.ofSeed seed⟩

/-- A garden without plants whose library holds the preset species. -/
def withPresets (seed : UInt64) : Garden :=
  empty Library.presets seed

/-- Move the sun.  What has grown already stays as it is. -/
def setSun (garden : Garden) (sun : Vec3) : Garden :=
  { garden with environment := { garden.environment with sun := sun } }

/-- Sow a plant of a named species at a point of the ground.  The new plant is
the last one; its index is returned. -/
def sow (garden : Garden) (name : String) (x z : Float32) :
    Except SpeciesError (Garden × Nat) :=
  (garden.library.find name).map fun species =>
    ({ garden with plants := garden.plants ++ [Plant.sow species ⟨x, 0, z⟩] },
      garden.plants.length)

/-- Take out the plant with the given index.  Later plants move down. -/
def remove? (garden : Garden) (index : Nat) : Option (Plant × Garden) :=
  garden.plants[index]?.map fun plant =>
    (plant, { garden with plants := garden.plants.eraseIdx index })

/-- Update plants in order, each with the draws that the one before has left. -/
def updatePlants (environment : Environment) : List Plant → Drawing (List Growth)
  | [] => pure []
  | plant :: rest => do
      let growth ← plant.update environment
      let later ← updatePlants environment rest
      pure (growth :: later)

/-- Update every plant once.  The report covers all of them. -/
def update (garden : Garden) : Garden × Tally :=
  let (growths, draws) := updatePlants garden.environment garden.plants garden.draws
  ({ garden with plants := growths.map (·.plant), draws := draws },
    Tally.sum (growths.map (·.tally)))

end Garden

end Arbor
