import Arbor.Plant
import Arbor.Proofs.Derivation

/-!
# Runs of a plant

A run applies any sequence of actions to a plant.  An update is a growth pass, a
generation if there is one left, and another growth pass, so that a property
which growth passes and generations preserve holds after every run.
-/

namespace Arbor

/-- What can be done with a plant. -/
inductive Action where
  | advance
  | grow (environment : Environment)
  | update (environment : Environment)
  deriving DecidableEq, Inhabited, Repr

namespace Growth

/-- Nothing has grown. -/
def still (plant : Plant) : Growth := ⟨plant, [], 0⟩

/-- A growth followed by another one of the plant that it has left. -/
def followedBy (before after : Growth) : Growth where
  plant := after.plant
  segments := before.segments ++ after.segments
  tally := before.tally + after.tally

@[simp] theorem plant_still (plant : Plant) : (still plant).plant = plant := rfl

theorem still_followedBy (plant : Plant) (growth : Growth) :
    (still plant).followedBy growth = growth := by
  have tally : (0 : Tally) + growth.tally = growth.tally := by
    change Tally.mk (0 + _) (0 + _) (0 + _) = _
    simp only [Nat.zero_add]
  rw [followedBy, still, List.nil_append, tally]

end Growth

namespace Plant

/-- Apply an action.  Where no generation is left, to advance does nothing. -/
def act (plant : Plant) : Action → Drawing Growth
  | .advance => do
      let advanced? ← plant.advance?
      pure (Growth.still (advanced?.getD plant))
  | .grow environment => plant.grow environment
  | .update environment => plant.update environment

/-- Apply actions one after the other. -/
def run (plant : Plant) : List Action → Drawing Growth
  | [] => pure (Growth.still plant)
  | action :: rest => do
      let before ← plant.act action
      let after ← before.plant.run rest
      pure (before.followedBy after)

/-- The plant after a run is that after the rest of the run. -/
theorem plant_run_cons (plant : Plant) (action : Action) (rest : List Action) (draws : Draws) :
    (plant.run (action :: rest) draws).1.plant =
      ((plant.act action draws).1.plant.run rest (plant.act action draws).2).1.plant := rfl

/-! ## What one action does -/

/-- To derive a generation, the word is cut into pieces. -/
theorem advance?_eq (plant : Plant) :
    plant.advance? =
      if plant.isFullyDerived then
        pure none
      else
        (fun pieces => some (plant.adopt (Generation.ofPieces pieces))) <$>
          Piece.cut plant.species.productions plant.word := by
  rw [advance?, Generation.next_eq_ofPieces]
  rfl

/-- A generation is derived exactly where one is left. -/
theorem advance?_eq_some_iff {plant next : Plant} {draws : Draws} :
    (plant.advance? draws).1 = some next ↔
      plant.isFullyDerived = false ∧
        next = plant.adopt
          (Generation.ofPieces (Piece.cut plant.species.productions plant.word draws).1) := by
  rw [advance?_eq]
  cases derived : plant.isFullyDerived with
  | true => simp
  | false =>
      simp only [Bool.false_eq_true, if_false, Drawing.map_apply, Option.some.injEq,
        true_and]
      exact eq_comm

/-- The plant after an update, seen as growth, a generation and growth. -/
theorem plant_update (plant : Plant) (environment : Environment) (draws : Draws) :
    (plant.update environment draws).1.plant =
      match ((plant.grow environment draws).1.plant.advance?
          (plant.grow environment draws).2).1 with
      | none => (plant.grow environment draws).1.plant
      | some advanced =>
          (advanced.grow environment
            ((plant.grow environment draws).1.plant.advance?
              (plant.grow environment draws).2).2).1.plant := by
  simp only [update, Drawing.bind_apply]
  cases ((plant.grow environment draws).1.plant.advance? (plant.grow environment draws).2).1 <;>
    rfl

/-! ## What every run preserves -/

/-- A property of plants that growth passes and generations preserve. -/
structure Invariant (property : Plant → Prop) : Prop where
  grow : ∀ {plant : Plant} (environment : Environment) (draws : Draws),
    property plant → property (plant.grow environment draws).1.plant
  advance : ∀ {plant next : Plant} {draws : Draws},
    (plant.advance? draws).1 = some next → property plant → property next

namespace Invariant

variable {property : Plant → Prop}

theorem update (invariant : Invariant property) {plant : Plant} (environment : Environment)
    (draws : Draws) (holds : property plant) :
    property (plant.update environment draws).1.plant := by
  have grown := invariant.grow environment draws holds
  rw [plant_update]
  split
  next => exact grown
  next advanced advances =>
    exact invariant.grow environment _ (invariant.advance advances grown)

theorem act (invariant : Invariant property) {plant : Plant} (action : Action) (draws : Draws)
    (holds : property plant) : property (plant.act action draws).1.plant := by
  cases action with
  | advance =>
      simp only [Plant.act, Drawing.bind_apply, Drawing.pure_apply, Growth.plant_still]
      cases advances : (plant.advance? draws).1 with
      | none => exact holds
      | some next => exact invariant.advance advances holds
  | grow environment => exact invariant.grow environment draws holds
  | update environment => exact invariant.update environment draws holds

/-- An invariant that holds of a plant holds after every run of it. -/
theorem run (invariant : Invariant property) (actions : List Action) :
    {plant : Plant} → (draws : Draws) → property plant →
      property (plant.run actions draws).1.plant := by
  induction actions with
  | nil =>
      intro plant draws holds
      exact holds
  | cons action rest ih =>
      intro plant draws holds
      rw [plant_run_cons]
      apply ih
      exact invariant.act action draws holds

end Invariant

/-! ## What every run accounts for -/

/-- A relation between plants and what has become of them.  Growth passes and generations
satisfy it, and it carries over from two growths to both of them together. -/
structure Accounting (holds : Plant → Growth → Prop) : Prop where
  still : ∀ plant, holds plant (Growth.still plant)
  grow : ∀ (plant : Plant) (environment : Environment) (draws : Draws),
    holds plant (plant.grow environment draws).1
  advance : ∀ {plant next : Plant} {draws : Draws},
    (plant.advance? draws).1 = some next → holds plant (Growth.still next)
  followedBy : ∀ {plant : Plant} {before after : Growth},
    holds plant before → holds before.plant after → holds plant (before.followedBy after)

namespace Accounting

variable {holds : Plant → Growth → Prop}

theorem update (accounting : Accounting holds) (plant : Plant) (environment : Environment)
    (draws : Draws) : holds plant (plant.update environment draws).1 := by
  have before := accounting.grow plant environment draws
  simp only [Plant.update, Drawing.bind_apply]
  cases advances : ((plant.grow environment draws).1.plant.advance?
      (plant.grow environment draws).2).1 with
  | none => exact before
  | some advanced =>
      have after := accounting.grow advanced environment
        ((plant.grow environment draws).1.plant.advance? (plant.grow environment draws).2).2
      have later := accounting.followedBy (accounting.advance advances) after
      rw [Growth.still_followedBy] at later
      exact accounting.followedBy before later

theorem act (accounting : Accounting holds) (plant : Plant) (action : Action)
    (draws : Draws) : holds plant (plant.act action draws).1 := by
  cases action with
  | advance =>
      simp only [Plant.act, Drawing.bind_apply, Drawing.pure_apply]
      cases advances : (plant.advance? draws).1 with
      | none => exact accounting.still plant
      | some next => exact accounting.advance advances
  | grow environment => exact accounting.grow plant environment draws
  | update environment => exact accounting.update plant environment draws

/-- What single actions account for, runs account for as well. -/
theorem run (accounting : Accounting holds) (actions : List Action) :
    (plant : Plant) → (draws : Draws) → holds plant (plant.run actions draws).1 := by
  induction actions with
  | nil =>
      intro plant draws
      exact accounting.still plant
  | cons action rest ih =>
      intro plant draws
      exact accounting.followedBy (accounting.act plant action draws) (ih _ _)

end Accounting

end Plant

end Arbor
