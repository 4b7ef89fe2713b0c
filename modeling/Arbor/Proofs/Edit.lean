import Arbor.Proofs.Run

/-!
# Edits of a crown

A crown is changed in three ways: buds are inserted, it is aligned with a word, and a pass
grows its branches.  Whatever is done with a plant makes such edits to its crown and no
others, so what holds of all lists of edits holds of all runs.
-/

namespace Arbor

namespace Crown

/-- A change of a crown. -/
inductive Edit where
  | insert (count position creationDepth : Nat)
  | align (word : Word) (creationDepth : Nat)
  | grow (species : Species) (environment : Environment) (base : Vec3) (draws : Draws)

/-- Make a change of a crown. -/
def edit (crown : Crown) : Edit → Crown
  | .insert count position creationDepth => crown.insertBuds count position creationDepth
  | .align word creationDepth => crown.align word creationDepth
  | .grow species environment base draws =>
      { crown with
        branches := (Pass.run species environment base crown.branches draws).1.branches }

/-- Make changes one after the other. -/
def editAll (crown : Crown) (edits : List Edit) : Crown :=
  edits.foldl edit crown

/-- The number of identifiers that an edit gives away. -/
def demand (crown : Crown) : Edit → Nat
  | .insert count _ _ => count
  | .align word _ => word.branchCount - crown.branches.length
  | .grow _ _ _ _ => 0

/-- The number of identifiers that edits give away, one after the other. -/
def allocated (crown : Crown) : List Edit → Nat
  | [] => 0
  | edit :: rest => crown.demand edit + (crown.edit edit).allocated rest

@[simp] theorem editAll_nil (crown : Crown) : crown.editAll [] = crown := rfl

@[simp] theorem editAll_cons (crown : Crown) (edit : Edit) (rest : List Edit) :
    crown.editAll (edit :: rest) = (crown.edit edit).editAll rest := rfl

theorem editAll_append (crown : Crown) (first second : List Edit) :
    crown.editAll (first ++ second) = (crown.editAll first).editAll second :=
  List.foldl_append

theorem allocated_append (first second : List Edit) :
    (crown : Crown) →
      crown.allocated (first ++ second) =
        crown.allocated first + (crown.editAll first).allocated second := by
  induction first with
  | nil =>
      intro crown
      simp [allocated]
  | cons edit rest ih =>
      intro crown
      simp [allocated, ih, Nat.add_assoc]

end Crown

namespace Plant

/-! ## The edits of a run -/

/-- The edits that bring the crown in step with a generation. -/
def adoptEdits (plant : Plant) (generation : Generation) : List Crown.Edit :=
  generation.buddings.map
      (fun budding => .insert budding.count budding.position (plant.depth + 1)) ++
    [.align generation.word (plant.depth + 1)]

/-- The edits of the next generation, if not all have been derived. -/
def advanceEdits (plant : Plant) (draws : Draws) : List Crown.Edit :=
  if plant.isFullyDerived then
    []
  else
    plant.adoptEdits (Generation.next plant.species.productions plant.word draws).1

/-- The edit that a growth pass makes. -/
def growEdit (plant : Plant) (environment : Environment) (draws : Draws) : Crown.Edit :=
  .grow plant.species environment plant.position draws

/-- The edits of an update that follow its first growth pass. -/
def renewEdits (plant : Plant) (environment : Environment) (draws : Draws) :
    List Crown.Edit :=
  match (plant.advance? draws).1 with
  | none => []
  | some next =>
      plant.advanceEdits draws ++ [next.growEdit environment (plant.advance? draws).2]

/-- The edits of one action. -/
def actEdits (plant : Plant) : Action → Draws → List Crown.Edit
  | .advance, draws => plant.advanceEdits draws
  | .grow environment, draws => [plant.growEdit environment draws]
  | .update environment, draws =>
      plant.growEdit environment draws ::
        (plant.grow environment draws).1.plant.renewEdits environment
          (plant.grow environment draws).2

/-- The edits of actions that are applied one after the other. -/
def runEdits (plant : Plant) : List Action → Draws → List Crown.Edit
  | [], _ => []
  | action :: rest, draws =>
      plant.actEdits action draws ++
        (plant.act action draws).1.plant.runEdits rest (plant.act action draws).2

/-- All edits that have ever been made to the crown of a plant, beginning with those that
have made it. -/
def history (species : Species) (point : Vec3) (actions : List Action) (draws : Draws) :
    List Crown.Edit :=
  .align species.initiator.enclosed 0 :: (sow species point).runEdits actions draws

/-! ## Runs make their edits -/

theorem crown_adopt_eq_editAll (plant : Plant) (generation : Generation) :
    (plant.adopt generation).crown = plant.crown.editAll (plant.adoptEdits generation) := by
  simp only [adoptEdits, Crown.editAll, List.foldl_append, List.foldl_map]
  rfl

theorem crown_advance? (plant : Plant) (draws : Draws) :
    ((plant.advance? draws).1.getD plant).crown =
      plant.crown.editAll (plant.advanceEdits draws) := by
  unfold advance? advanceEdits
  split
  · rfl
  · exact crown_adopt_eq_editAll plant _

theorem crown_grow (plant : Plant) (environment : Environment) (draws : Draws) :
    (plant.grow environment draws).1.plant.crown =
      plant.crown.edit (plant.growEdit environment draws) := rfl

theorem crown_update (plant : Plant) (environment : Environment) (draws : Draws) :
    (plant.update environment draws).1.plant.crown =
      plant.crown.editAll (plant.actEdits (.update environment) draws) := by
  have advanced := crown_advance? (plant.grow environment draws).1.plant
    (plant.grow environment draws).2
  rw [plant_update, actEdits, Crown.editAll_cons, ← crown_grow, renewEdits]
  cases advances : ((plant.grow environment draws).1.plant.advance?
      (plant.grow environment draws).2).1 with
  | none => rfl
  | some next =>
      rw [advances, Option.getD_some] at advanced
      rw [Crown.editAll_append, ← advanced]
      rfl

theorem crown_act (plant : Plant) (action : Action) (draws : Draws) :
    (plant.act action draws).1.plant.crown =
      plant.crown.editAll (plant.actEdits action draws) := by
  cases action with
  | advance => exact crown_advance? plant draws
  | grow environment => exact crown_grow plant environment draws
  | update environment => exact crown_update plant environment draws

theorem crown_run (actions : List Action) :
    (plant : Plant) → (draws : Draws) →
      (plant.run actions draws).1.plant.crown =
        plant.crown.editAll (plant.runEdits actions draws) := by
  induction actions with
  | nil =>
      intro plant draws
      rfl
  | cons action rest ih =>
      intro plant draws
      rw [plant_run_cons, ih, crown_act, runEdits, Crown.editAll_append]

/-- The crown of a plant is what its history makes of the empty one. -/
theorem crown_eq_editAll_history (species : Species) (point : Vec3) (actions : List Action)
    (draws : Draws) :
    ((sow species point).run actions draws).1.plant.crown =
      Crown.empty.editAll (history species point actions draws) := by
  rw [crown_run]
  rfl

theorem runEdits_append (first second : List Action) :
    (plant : Plant) → (draws : Draws) →
      plant.runEdits (first ++ second) draws =
        plant.runEdits first draws ++
          (plant.run first draws).1.plant.runEdits second (plant.run first draws).2 := by
  induction first with
  | nil =>
      intro plant draws
      rfl
  | cons action rest ih =>
      intro plant draws
      rw [List.cons_append, runEdits, ih, runEdits, List.append_assoc]
      rfl

/-- A longer run makes more edits, and first those of the shorter one. -/
theorem exists_history_append (species : Species) (point : Vec3) (first second : List Action)
    (draws : Draws) :
    ∃ later, history species point (first ++ second) draws =
      history species point first draws ++ later := by
  rw [history, runEdits_append]
  exact ⟨_, rfl⟩

end Plant

end Arbor
