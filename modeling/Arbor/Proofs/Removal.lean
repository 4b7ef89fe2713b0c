import Arbor.Proofs.Accounts
import Arbor.Proofs.Independence
import Arbor.Proofs.Maturity

/-!
# Taking out mature plants

All plants of a garden draw from one source, and taking one out can therefore change how all
others grow.  Not so if it was mature.  Two gardens are compared here, one in which a mature
plant still stands and one from which it has been taken out.  Whatever is done with both,
they differ in nothing but that plant.
-/

namespace Arbor

/-- What can be done with a garden and with its library. -/
inductive Deed where
  | move (move : Move)
  /-- Register a species in the library of the garden. -/
  | register (name : String) (species : Species)

/-- The report of an answer that has one. -/
def Answer.tally? {Taken : Type} : Answer Taken → Option Tally
  | updated tally => some tally
  | _ => none

namespace Garden

/-- Do a deed.  If it was an update, its report is returned. -/
def perform (garden : Garden) : Deed → Garden × Option Tally
  | .move move => ((garden.move move).1, (garden.move move).2.tally?)
  | .register name species =>
      ({ garden with library := garden.library.insert name species }, none)

/-- The garden after all of the deeds, and the reports of the updates among them. -/
def tend (garden : Garden) : List Deed → Garden × List Tally
  | [] => (garden, [])
  | deed :: rest =>
      let (next, tally?) := garden.perform deed
      let (last, tallies) := next.tend rest
      (last, tally?.toList ++ tallies)

/-! ## Indices -/

/-- The index of a plant when the one with another index has been taken out. -/
def indexWithout (removed index : Nat) : Nat :=
  if removed < index then index - 1 else index

section Indices

variable {Item : Type} (items : List Item) {removed index : Nat}

theorem getElem?_eraseIdx_indexWithout (other : index ≠ removed) :
    (items.eraseIdx removed)[indexWithout removed index]? = items[index]? := by
  rw [indexWithout, List.getElem?_eraseIdx]
  grind

/-- Of two items, either can be taken out first. -/
theorem eraseIdx_eraseIdx_indexWithout (other : index ≠ removed) :
    (items.eraseIdx removed).eraseIdx (indexWithout removed index) =
      (items.eraseIdx index).eraseIdx (indexWithout index removed) := by
  apply List.ext_getElem?
  intro place
  simp only [indexWithout, List.getElem?_eraseIdx]
  grind

end Indices

/-- The garden without one of its plants. -/
def without (garden : Garden) (index : Nat) : Garden :=
  { garden with plants := garden.plants.eraseIdx index }

theorem remove?_eq_some_iff {garden rest : Garden} {index : Nat} {plant : Plant} :
    garden.remove? index = some (plant, rest) ↔
      garden.plants[index]? = some plant ∧ rest = garden.without index := by
  rw [remove?, Option.map_eq_some_iff]
  constructor
  · rintro ⟨other, present, same⟩
    cases same
    exact ⟨present, rfl⟩
  · rintro ⟨present, rfl⟩
    exact ⟨plant, present, rfl⟩

end Garden

namespace Deed

/-- The deed leaves the plant with the given index in the garden. -/
def Spares (index : Nat) (deed : Deed) : Prop :=
  deed ≠ .move (.remove index)

/-- Where the plant with the given index stands after the deed. -/
def indexAfter (index : Nat) : Deed → Nat
  | move (.remove removed) => Garden.indexWithout removed index
  | _ => index

/-- The same deed in the garden without the plant with the given index. -/
def without (index : Nat) : Deed → Deed
  | move (.remove removed) => move (.remove (Garden.indexWithout index removed))
  | deed => deed

/-! ## Lists of deeds -/

/-- Where the plant stands after all deeds. -/
def indexAfterAll (index : Nat) (deeds : List Deed) : Nat :=
  deeds.foldl indexAfter index

/-- All deeds leave the plant that has the given index at first in the garden. -/
def SpareAll (index : Nat) : List Deed → Prop
  | [] => True
  | deed :: rest => deed.Spares index ∧ SpareAll (deed.indexAfter index) rest

/-- The same deeds in the garden without the plant that has the given index at first. -/
def withoutAll (index : Nat) : List Deed → List Deed
  | [] => []
  | deed :: rest => deed.without index :: withoutAll (deed.indexAfter index) rest

theorem SpareAll.take {deeds : List Deed} :
    {index : Nat} → SpareAll index deeds → (count : Nat) → SpareAll index (deeds.take count) := by
  induction deeds with
  | nil =>
      intro index spared count
      rw [List.take_nil]
      exact spared
  | cons deed rest ih =>
      intro index spared count
      cases count with
      | zero => trivial
      | succ count => exact ⟨spared.1, ih spared.2 count⟩

theorem take_withoutAll (deeds : List Deed) :
    (index count : Nat) →
      (withoutAll index deeds).take count = withoutAll index (deeds.take count) := by
  induction deeds with
  | nil =>
      intro index count
      simp only [withoutAll, List.take_nil]
  | cons deed rest ih =>
      intro index count
      cases count with
      | zero => rfl
      | succ count => exact congrArg _ (ih _ count)

end Deed

/-! ## Updates -/

theorem Tally.sum_eraseIdx {tallies : List Tally} {index : Nat}
    (nothing : tallies[index]? = some 0) : sum (tallies.eraseIdx index) = sum tallies := by
  obtain ⟨bound, zero⟩ := List.getElem?_eq_some_iff.mp nothing
  rw [sum_eq, sum_eq, ← List.CommMonoid.add_sum_eraseIdx bound, zero, zero_add]

namespace Garden

variable {plant : Plant}

/-- The draws of the other plants do not depend on a mature one. -/
theorem updatePlants_eraseIdx (mature : plant.isMature = true) (environment : Environment)
    (plants : List Plant) :
    {index : Nat} → (draws : Draws) → plants[index]? = some plant →
      (updatePlants environment plants draws).1[index]? = some (Growth.still plant) ∧
        updatePlants environment (plants.eraseIdx index) draws =
          ((updatePlants environment plants draws).1.eraseIdx index,
            (updatePlants environment plants draws).2) := by
  induction plants with
  | nil =>
      intro index draws present
      cases present
  | cons first rest ih =>
      intro index draws present
      cases index with
      | zero =>
          obtain rfl : first = plant := Option.some.inj present
          have update := Plant.update_of_isMature mature environment draws
          simp only [updatePlants, Drawing.bind_apply, Drawing.pure_apply, update]
          exact ⟨rfl, rfl⟩
      | succ index =>
          rcases ih (first.update environment draws).2 present with ⟨still, without⟩
          refine ⟨still, ?_⟩
          rw [List.eraseIdx_cons_succ]
          simp only [updatePlants, Drawing.bind_apply, Drawing.pure_apply, without,
            List.eraseIdx_cons_succ]

variable {garden : Garden} {index : Nat}

theorem update_without (present : garden.plants[index]? = some plant)
    (mature : plant.isMature = true) :
    garden.update.1.plants[index]? = some plant ∧
      (garden.without index).update = (garden.update.1.without index, garden.update.2) := by
  obtain ⟨still, others⟩ :=
    updatePlants_eraseIdx mature garden.environment garden.plants garden.draws present
  have nothing : ((updatePlants garden.environment garden.plants garden.draws).1.map
      (·.tally))[index]? = some 0 := by
    rw [List.getElem?_map, still]
    rfl
  rw [update_eq, update_eq]
  constructor
  · rw [List.getElem?_map, still]
    rfl
  · simp only [without, others, ← List.eraseIdx_map, Tally.sum_eraseIdx nothing]

/-! ## Deeds -/

theorem tally?_move_sow (garden : Garden) (name : String) (x z : Float32) :
    (garden.move (.sow name x z)).2.tally? = none := by
  rw [move_sow]
  cases garden.library.get? name <;> rfl

theorem tally?_move_remove (garden : Garden) (removed : Nat) :
    (garden.move (.remove removed)).2.tally? = none := by
  rw [move_remove]
  cases garden.plants[removed]? <;> rfl

theorem sow_without (present : garden.plants[index]? = some plant) (name : String)
    (x z : Float32) :
    (garden.move (.sow name x z)).1.plants[index]? = some plant ∧
      ((garden.without index).move (.sow name x z)).1 =
        (garden.move (.sow name x z)).1.without index := by
  have bound := (List.getElem?_eq_some_iff.mp present).1
  have library : (garden.without index).library = garden.library := rfl
  rw [move_sow, move_sow, library]
  cases garden.library.get? name with
  | none => exact ⟨present, rfl⟩
  | some species =>
      constructor
      · exact (List.getElem?_append_left bound).trans present
      · simp only [without, List.eraseIdx_append_of_lt_length bound]

theorem remove_without (present : garden.plants[index]? = some plant) {removed : Nat}
    (other : removed ≠ index) :
    (garden.move (.remove removed)).1.plants[indexWithout removed index]? = some plant ∧
      ((garden.without index).move (.remove (indexWithout index removed))).1 =
        (garden.move (.remove removed)).1.without (indexWithout removed index) := by
  have entry : (garden.without index).plants[indexWithout index removed]? =
      garden.plants[removed]? := getElem?_eraseIdx_indexWithout garden.plants other
  rw [move_remove, move_remove, entry]
  cases taken : garden.plants[removed]? with
  | none =>
      -- An index beyond the last plant is beyond it in both gardens.
      have bound := (List.getElem?_eq_some_iff.mp present).1
      have before : index < removed := bound.trans_le (List.getElem?_eq_none_iff.mp taken)
      rw [indexWithout, if_neg before.asymm]
      exact ⟨present, rfl⟩
  | some taken =>
      constructor
      · exact (getElem?_eraseIdx_indexWithout garden.plants other.symm).trans present
      · simp only [without, eraseIdx_eraseIdx_indexWithout garden.plants other]

/-- A deed has the same effect where the mature plant has been taken out, and its report is
the same. -/
theorem perform_without (present : garden.plants[index]? = some plant)
    (mature : plant.isMature = true) {deed : Deed} (spared : deed.Spares index) :
    (garden.perform deed).1.plants[deed.indexAfter index]? = some plant ∧
      (garden.without index).perform (deed.without index) =
        ((garden.perform deed).1.without (deed.indexAfter index), (garden.perform deed).2) := by
  cases deed with
  | register name species => exact ⟨present, rfl⟩
  | move move =>
      cases move with
      | sow name x z =>
          obtain ⟨stands, same⟩ := sow_without present name x z
          refine ⟨stands, ?_⟩
          simp only [perform, Deed.without, Deed.indexAfter, same, tally?_move_sow]
      | remove removed =>
          have other : removed ≠ index := by
            rintro rfl
            exact spared rfl
          obtain ⟨stands, same⟩ := remove_without present other
          refine ⟨stands, ?_⟩
          simp only [perform, Deed.without, Deed.indexAfter, same, tally?_move_remove]
      | setSun sun => exact ⟨present, rfl⟩
      | update =>
          obtain ⟨stands, same⟩ := update_without present mature
          refine ⟨stands, ?_⟩
          simp only [perform, Deed.without, Deed.indexAfter, move, same]

theorem tend_without (mature : plant.isMature = true) (deeds : List Deed) :
    {garden : Garden} → {index : Nat} → garden.plants[index]? = some plant →
      Deed.SpareAll index deeds →
        (garden.tend deeds).1.plants[Deed.indexAfterAll index deeds]? = some plant ∧
          (garden.without index).tend (Deed.withoutAll index deeds) =
            ((garden.tend deeds).1.without (Deed.indexAfterAll index deeds),
              (garden.tend deeds).2) := by
  induction deeds with
  | nil =>
      intro garden index present spared
      exact ⟨present, rfl⟩
  | cons deed rest ih =>
      intro garden index present spared
      obtain ⟨stands, performed⟩ := perform_without present mature spared.1
      obtain ⟨last, tended⟩ := ih stands spared.2
      refine ⟨last, ?_⟩
      simp only [Deed.withoutAll, tend, performed, tended]
      rfl

/-- A mature plant is taken out of a garden, and the same deeds are done where it has been
taken out and where it still stands.  After any number of them it still stands in the one
garden as it was.  The other garden has all other plants, the same library and sun, and the
same source of draws, and its updates have reported the same. -/
theorem tend_removed_eq {garden rest : Garden} {index : Nat} {plant : Plant}
    (removed : garden.remove? index = some (plant, rest)) (mature : plant.isMature = true)
    {deeds : List Deed} (spared : Deed.SpareAll index deeds) (count : Nat) :
    let done := deeds.take count
    (garden.tend done).1.plants[Deed.indexAfterAll index done]? = some plant ∧
      rest.tend ((Deed.withoutAll index deeds).take count) =
        ((garden.tend done).1.without (Deed.indexAfterAll index done), (garden.tend done).2) := by
  intro done
  obtain ⟨present, rfl⟩ := remove?_eq_some_iff.mp removed
  rw [Deed.take_withoutAll]
  exact tend_without mature done present (spared.take count)

/-- A small tree among tangles has stopped growing.  It is taken out, and then the plants on
both sides of it are. -/
theorem tend_removed_leafyTree_eq :
    let species := { Species.leafyTree with maxDepth := 1 }
    let tree := ((Plant.sow species ⟨1, 0, 2⟩).run [.update .noon] (Draws.ofSeed 1)).1.plant
    let tangle := Plant.sow Species.tangle .zero
    let garden := { empty Library.presets 7 with plants := [tangle, tree, tangle] }
    let rest := garden.without 1
    let deeds := [Deed.move .update, .register "tree" species, .move (.sow "tree" 3 3),
      .move (.remove 2), .move (.setSun .up), .move (.remove 0), .move .update]
    Deed.indexAfterAll 1 deeds = 0 ∧
      Deed.withoutAll 1 deeds = [.move .update, .register "tree" species,
        .move (.sow "tree" 3 3), .move (.remove 1), .move (.setSun .up), .move (.remove 0),
        .move .update] ∧
      ∀ count, rest.tend ((Deed.withoutAll 1 deeds).take count) =
        ((garden.tend (deeds.take count)).1.without
            (Deed.indexAfterAll 1 (deeds.take count)),
          (garden.tend (deeds.take count)).2) := by
  intro species tree tangle garden rest deeds
  have removed : garden.remove? 1 = some (tree, rest) := rfl
  have mature : tree.isMature = true := by decide +kernel
  have spared : Deed.SpareAll 1 deeds := by
    simp [deeds, Deed.SpareAll, Deed.Spares, Deed.indexAfter, indexWithout]
  exact ⟨rfl, rfl, fun count => (tend_removed_eq removed mature spared count).2⟩

end Garden

end Arbor
