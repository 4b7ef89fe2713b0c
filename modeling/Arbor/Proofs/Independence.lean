import Arbor.Proofs.Sketch
import Mathlib.Data.List.Forall2
import Mathlib.Data.List.InsertIdx

/-!
# Geometry has no influence on structure

All plants of a garden draw from one source, so a single draw more in one of them would
change every later decision in all others.  Here two gardens are compared, move by move.
Their species may differ in every number that only shapes plants, their plants may stand
at different places and their sun may move differently.  The sketches of the plants, the
reports and the source of draws are then the same after every move.
-/

namespace Arbor

/-- What can be done with a garden. -/
inductive Move where
  /-- Sow a plant of a named species. -/
  | sow (name : String) (x z : Float32)
  | remove (index : Nat)
  | setSun (sun : Vec3)
  | update
  deriving DecidableEq, Inhabited, Repr

/-- Moves that differ at most in coordinates. -/
inductive Move.Matches : Move → Move → Prop where
  | sow (name : String) (leftX leftZ rightX rightZ : Float32) :
      Matches (.sow name leftX leftZ) (.sow name rightX rightZ)
  | remove (index : Nat) : Matches (.remove index) (.remove index)
  | setSun (leftSun rightSun : Vec3) : Matches (.setSun leftSun) (.setSun rightSun)
  | update : Matches .update .update

/-- What a move answers. -/
inductive Answer (Taken : Type) where
  /-- The index of the new plant, or why there is none. -/
  | sown (index : Except SpeciesError Nat)
  /-- The plant that was taken out, if there was one. -/
  | removed (plant? : Option Taken)
  | sunSet
  /-- The report of the growth of all plants. -/
  | updated (tally : Tally)
  deriving Inhabited

/-- The answer with another view of the plant that was taken out. -/
def Answer.map {Taken Image : Type} (image : Taken → Image) : Answer Taken → Answer Image
  | sown index => sown index
  | removed plant? => removed (plant?.map image)
  | sunSet => sunSet
  | updated tally => updated tally

namespace Garden

/-- Make a move.  Where it is refused, the garden stays as it is. -/
def move (garden : Garden) : Move → Garden × Answer Plant
  | .sow name x z =>
      match garden.sow name x z with
      | .ok (next, index) => (next, .sown (.ok index))
      | .error error => (garden, .sown (.error error))
  | .remove index =>
      match garden.remove? index with
      | some (plant, next) => (next, .removed (some plant))
      | none => (garden, .removed none)
  | .setSun sun => (garden.setSun sun, .sunSet)
  | .update => (garden.update.1, .updated garden.update.2)

theorem move_sow (garden : Garden) (name : String) (x z : Float32) :
    garden.move (.sow name x z) =
      match garden.library.get? name with
      | some species =>
          ({ garden with plants := garden.plants ++ [Plant.sow species ⟨x, 0, z⟩] },
            .sown (.ok garden.plants.length))
      | none => (garden, .sown (.error (.unknownName name))) := by
  rw [move, Garden.sow, Library.find]
  cases garden.library.get? name <;> rfl

theorem move_remove (garden : Garden) (index : Nat) :
    garden.move (.remove index) =
      match garden.plants[index]? with
      | some plant =>
          ({ garden with plants := garden.plants.eraseIdx index }, .removed (some plant))
      | none => (garden, .removed none) := by
  rw [move, remove?]
  cases garden.plants[index]? <;> rfl

theorem update_eq (garden : Garden) :
    garden.update =
      let grown := updatePlants garden.environment garden.plants garden.draws
      ({ garden with plants := grown.1.map (·.plant), draws := grown.2 },
        Tally.sum (grown.1.map (·.tally))) := rfl

/-- The garden after each of the moves, with the answer to the move. -/
def history (garden : Garden) : List Move → List (Garden × Answer Plant)
  | [] => []
  | move :: rest => garden.move move :: (garden.move move).1.history rest

end Garden

/-- What a garden is apart from geometry. -/
structure GardenSketch where
  plants : List PlantSketch
  draws : Draws

/-- Forget the geometry of all plants of a garden. -/
def Garden.sketch (garden : Garden) : GardenSketch :=
  ⟨garden.plants.map Plant.sketch, garden.draws⟩

/-- Both libraries have the same names, with species that differ in geometry alone. -/
def Library.SameSchemes (left right : Library) : Prop :=
  ∀ name, (left.get? name).map Species.scheme = (right.get? name).map Species.scheme

theorem Library.SameSchemes.insert {left right : Library} (same : left.SameSchemes right)
    (name : String) {leftSpecies rightSpecies : Species}
    (scheme : leftSpecies.scheme = rightSpecies.scheme) :
    (left.insert name leftSpecies).SameSchemes (right.insert name rightSpecies) := by
  intro other
  have before := same other
  simp only [Library.get?, Library.insert, Std.TreeMap.getElem?_insert] at before ⊢
  split
  · rw [Option.map_some, Option.map_some, scheme]
  · exact before

/-- The gardens differ in geometry alone, and so do all plants that can be sown. -/
structure Garden.Matches (left right : Garden) : Prop where
  library : left.library.SameSchemes right.library
  sketch : left.sketch = right.sketch

namespace Garden.Matches

variable {left right : Garden}

theorem plants (same : left.Matches right) :
    left.plants.map Plant.sketch = right.plants.map Plant.sketch :=
  congrArg GardenSketch.plants same.sketch

theorem draws (same : left.Matches right) : left.draws = right.draws :=
  congrArg GardenSketch.draws same.sketch

end Garden.Matches

namespace Garden

open Drawing (Alike)

variable {left right : Garden}

theorem alike_updatePlants (leftEnvironment rightEnvironment : Environment)
    (leftPlants : List Plant) :
    (rightPlants : List Plant) →
      leftPlants.map Plant.sketch = rightPlants.map Plant.sketch →
      Alike
        (fun leftGrowths rightGrowths =>
          leftGrowths.map Growth.sketch = rightGrowths.map Growth.sketch)
        (updatePlants leftEnvironment leftPlants)
        (updatePlants rightEnvironment rightPlants) := by
  induction leftPlants with
  | nil =>
      intro rightPlants same
      have empty : rightPlants = [] := by simpa using same.symm
      rw [empty]
      exact .pure rfl
  | cons left leftRest ih =>
      intro rightPlants same
      cases rightPlants with
      | nil => simp at same
      | cons right rightRest =>
          rw [List.map_cons, List.map_cons, List.cons.injEq] at same
          rcases same with ⟨first, rest⟩
          apply Alike.bind (Plant.alike_update first _ _)
          intro leftGrowth rightGrowth growth
          apply Alike.bind (ih rightRest rest)
          intro leftLater rightLater later
          apply Alike.pure
          rw [List.map_cons, List.map_cons, growth, later]

theorem Matches.update (same : left.Matches right) :
    left.update.1.Matches right.update.1 ∧ left.update.2 = right.update.2 := by
  obtain ⟨leftLibrary, leftPlants, leftEnvironment, draws⟩ := left
  obtain ⟨rightLibrary, rightPlants, rightEnvironment, _⟩ := right
  obtain rfl : draws = _ := same.draws
  rcases alike_updatePlants leftEnvironment rightEnvironment _ _ same.plants draws with
    ⟨growths, sources⟩
  have sketches := congrArg (List.map Prod.fst) growths
  have tallies := congrArg (List.map Prod.snd) growths
  rw [List.map_map, List.map_map] at sketches tallies
  refine ⟨⟨same.library, congrArg₂ GardenSketch.mk ?_ sources⟩, congrArg Tally.sum tallies⟩
  rw [update_eq, update_eq, List.map_map, List.map_map]
  exact sketches

theorem Matches.sow (same : left.Matches right) (name : String)
    (leftX leftZ rightX rightZ : Float32) :
    (left.move (.sow name leftX leftZ)).1.Matches (right.move (.sow name rightX rightZ)).1 ∧
      (left.move (.sow name leftX leftZ)).2.map Plant.sketch =
        (right.move (.sow name rightX rightZ)).2.map Plant.sketch := by
  have schemes := same.library name
  have count : left.plants.length = right.plants.length := by
    simpa using congrArg List.length same.plants
  rw [move_sow, move_sow]
  cases leftSpecies : left.library.get? name with
  | none =>
      cases rightSpecies : right.library.get? name with
      | some species => simp [leftSpecies, rightSpecies] at schemes
      | none => exact ⟨same, rfl⟩
  | some species =>
      cases rightSpecies : right.library.get? name with
      | none => simp [leftSpecies, rightSpecies] at schemes
      | some otherSpecies =>
          rw [leftSpecies, rightSpecies] at schemes
          have sown := Plant.sketch_sow_eq (Option.some.inj schemes) ⟨leftX, 0, leftZ⟩
            ⟨rightX, 0, rightZ⟩
          refine ⟨⟨same.library, ?_⟩, ?_⟩
          · simp [Garden.sketch, same.plants, same.draws, sown]
          · simp [Answer.map, count]

theorem Matches.remove (same : left.Matches right) (index : Nat) :
    (left.move (.remove index)).1.Matches (right.move (.remove index)).1 ∧
      (left.move (.remove index)).2.map Plant.sketch =
        (right.move (.remove index)).2.map Plant.sketch := by
  have entries := congrArg (fun plants => plants[index]?) same.plants
  simp only [List.getElem?_map] at entries
  rw [move_remove, move_remove]
  cases leftPlant : left.plants[index]? with
  | none =>
      cases rightPlant : right.plants[index]? with
      | some plant => simp [leftPlant, rightPlant] at entries
      | none => exact ⟨same, rfl⟩
  | some plant =>
      cases rightPlant : right.plants[index]? with
      | none => simp [leftPlant, rightPlant] at entries
      | some otherPlant =>
          rw [leftPlant, rightPlant] at entries
          refine ⟨⟨same.library, ?_⟩, ?_⟩
          · simp only [Garden.sketch, ← List.eraseIdx_map, same.plants, same.draws]
          · exact congrArg Answer.removed entries

/-- Moves that differ in coordinates alone lead from gardens that differ in geometry alone
to such gardens, with the same answers. -/
theorem Matches.move (same : left.Matches right) {leftMove rightMove : Move}
    (moves : leftMove.Matches rightMove) :
    (left.move leftMove).1.Matches (right.move rightMove).1 ∧
      (left.move leftMove).2.map Plant.sketch = (right.move rightMove).2.map Plant.sketch := by
  cases moves with
  | sow name leftX leftZ rightX rightZ => exact same.sow name leftX leftZ rightX rightZ
  | remove index => exact same.remove index
  | setSun leftSun rightSun => exact ⟨⟨same.library, same.sketch⟩, rfl⟩
  | update =>
      rcases same.update with ⟨gardens, tallies⟩
      exact ⟨gardens, congrArg Answer.updated tallies⟩

theorem Matches.history {leftMoves rightMoves : List Move}
    (moves : List.Forall₂ Move.Matches leftMoves rightMoves) :
    {left right : Garden} → left.Matches right →
      (left.history leftMoves).map (fun entry => (entry.1.sketch, entry.2.map Plant.sketch)) =
        (right.history rightMoves).map
          (fun entry => (entry.1.sketch, entry.2.map Plant.sketch)) := by
  induction moves with
  | nil =>
      intro left right same
      rfl
  | cons first rest ih =>
      intro left right same
      rcases same.move first with ⟨gardens, answers⟩
      rw [Garden.history, Garden.history, List.map_cons, List.map_cons, gardens.sketch, answers,
        ih gardens]

/-- Two gardens of the same seed, with species of the same schemes under the same names,
are driven by moves that differ in coordinates alone.  After every move they have the same
plants apart from geometry and the same source of draws, and they give the same answers. -/
theorem sketch_history_eq (seed : UInt64) (left right : Library)
    (schemes : left.SameSchemes right) (leftMoves rightMoves : List Move)
    (moves : List.Forall₂ Move.Matches leftMoves rightMoves) :
    ((empty left seed).history leftMoves).map
        (fun entry => (entry.1.sketch, entry.2.map Plant.sketch)) =
      ((empty right seed).history rightMoves).map
        (fun entry => (entry.1.sketch, entry.2.map Plant.sketch)) :=
  Matches.history moves ⟨schemes, rfl⟩

/-- A tree of undefined and infinite proportions, far from where the other one stands. -/
theorem sketch_history_boundless_eq :
    let boundless := { Species.leafyTree with
      decay := 0 / 0, maxDeviation := 1 / 0, gravitropism := 0 / 0, turnDegrees := -1 / 0 }
    let left := Library.empty.insert "tree" Species.leafyTree
    let right := Library.empty.insert "tree" boundless
    let leftMoves := [Move.sow "tree" 0 0, .sow "fern" 0 0, .update, .setSun .zero, .update,
      .sow "tree" 1 1, .remove 0, .update]
    let rightMoves := [Move.sow "tree" (0 / 0) (1 / 0), .sow "fern" 5 5, .update, .setSun .up,
      .update, .sow "tree" 2 (-3), .remove 0, .update]
    ((empty left 7).history leftMoves).map
        (fun entry => (entry.1.sketch, entry.2.map Plant.sketch)) =
      ((empty right 7).history rightMoves).map
        (fun entry => (entry.1.sketch, entry.2.map Plant.sketch)) := by
  intro boundless left right leftMoves rightMoves
  have schemes : left.SameSchemes right :=
    Library.SameSchemes.insert (fun _ => rfl) "tree" (by decide)
  have moves : List.Forall₂ Move.Matches leftMoves rightMoves :=
    .cons (.sow ..) <| .cons (.sow ..) <| .cons .update <| .cons (.setSun ..) <|
      .cons .update <| .cons (.sow ..) <| .cons (.remove 0) <| .cons .update .nil
  exact sketch_history_eq 7 left right schemes leftMoves rightMoves moves

end Garden

end Arbor
