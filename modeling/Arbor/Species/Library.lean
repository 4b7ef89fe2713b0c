import Std.Data.TreeMap
import Arbor.Species.Basic

/-!
# A library of species

Species are registered under names.  Names are compared by their code points,
and a name that is used again stands for the later species.  Three preset
species show what the parameters do: a rigid one with straight branches, a
tangle without leaves, and a leafy tree.  This module also holds the errors that
a library and the files of its grammars can cause.
-/

namespace Arbor

/-! ## Preset species -/

namespace Species

/-- Straight branches of one step each, in a rigid pattern, without tropisms. -/
def rigidShrub : Species :=
  { plain with
    initiator := "[FFA]".toList
    productions := [.certain "A".toList "[+FA][-FA][/FA][\\FA]".toList]
    maxDepth := 5
    drawLength := 0.7
    turnDegrees := 45
    rootRadius := 0.1
    decay := 1.5
    maxDeviation := 0
    controlPoints := 2
    leavesPerBranch := 30
    firstLeafyDepth := 2
    leafSize := 0.05 }

/-- Thin, wandering branches of many steps, without leaves. -/
def tangle : Species :=
  { plain with
    initiator := "[FA]".toList
    productions := [.clamped "A".toList "[+/FA][-&FA][\\^FA]".toList 0.8]
    maxDepth := 4
    drawLength := 0.8
    turnDegrees := 30
    rootRadius := 0.05
    decay := 1.4
    maxDeviation := 0.1
    controlPoints := 8
    leavesPerBranch := 0
    firstLeafyDepth := 0
    leafSize := 0.03 }

/-- A leafy tree that leans a little toward the sun. -/
def leafyTree : Species :=
  { plain with
    initiator := "[FFA]".toList
    productions := [.certain "A".toList "[+FA][-/FA][\\&FA]".toList]
    maxDepth := 5
    drawLength := 1.2
    turnDegrees := 45
    rootRadius := 0.04
    decay := 1.4
    maxDeviation := 0.1
    controlPoints := 6
    leavesPerBranch := 30
    firstLeafyDepth := 3
    leafSize := 0.03
    phototropism := 0.005 }

/-- The name under which the rigid shrub is registered. -/
def rigidShrubName : String := "LSystemClone"

/-- The name under which the tangle is registered. -/
def tangleName : String := "TangledBranches"

/-- The name under which the leafy tree is registered. -/
def leafyTreeName : String := "GenericTree"

end Species

/-! ## Libraries -/

/-- Why a species could not be found or completed. -/
inductive SpeciesError where
  | missingFile
  | malformedFile
  | unknownName (name : String)
  deriving DecidableEq, Inhabited, Repr

/-- The text of an error. -/
def SpeciesError.message : SpeciesError → String
  | missingFile => "failed to read grammar file: No such file or directory (os error 2)"
  | malformedFile => "failed to read grammar file: stream did not contain valid UTF-8"
  | unknownName name =>
      "no blueprint named " ++ String.ofList (Text.quote name.toList)

namespace Species

/-- Add the productions of a text after the others, and return with the species
what was read. -/
def readProductions (species : Species) (text : Text) : Species × RuleList :=
  let rules := RuleList.read text
  (species.withProductions rules.productions, rules)

/-- Add the productions of a file, given by its contents if it exists. -/
def readProductionsFile (species : Species) (contents? : Option ByteArray) :
    Except SpeciesError (Species × RuleList) :=
  match contents? with
  | none => .error .missingFile
  | some contents =>
      match String.fromUTF8? contents with
      | none => .error .malformedFile
      | some text => .ok (species.readProductions text.toList)

end Species

/-- Species by their names. -/
structure Library where
  entries : Std.TreeMap String Species

namespace Library

/-- The library without species. -/
def empty : Library := ⟨∅⟩

instance : Inhabited Library := ⟨empty⟩

/-- Register a species under a name, in place of an earlier one. -/
def insert (library : Library) (name : String) (species : Species) : Library :=
  ⟨library.entries.insert name species⟩

/-- The species of a name, if it is registered. -/
def get? (library : Library) (name : String) : Option Species :=
  library.entries[name]?

/-- The species of a name, which is expected to be registered. -/
def find (library : Library) (name : String) : Except SpeciesError Species :=
  match library.get? name with
  | some species => .ok species
  | none => .error (.unknownName name)

/-- The names, in ascending order. -/
def names (library : Library) : List String :=
  library.entries.keys

/-- The number of names. -/
def size (library : Library) : Nat :=
  library.entries.size

/-- Whether no name is registered. -/
def isEmpty (library : Library) : Bool :=
  library.entries.isEmpty

/-- The library of the preset species. -/
def presets : Library :=
  ((empty.insert Species.rigidShrubName Species.rigidShrub).insert
    Species.tangleName Species.tangle).insert Species.leafyTreeName Species.leafyTree

end Library

end Arbor
