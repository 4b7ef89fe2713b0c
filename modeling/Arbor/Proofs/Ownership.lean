import Arbor.Proofs.Alignment
import Arbor.Species.Library

/-!
# Which record belongs to which bracket

A marked plant has no list of branches.  It attaches the records of the branches to
the brackets themselves, and a record stays with its bracket for as long as that
bracket is copied.  As long as productions do not consume brackets, the crown of a
plant is the list of the records of a marked plant, whatever is done and drawn.
-/

namespace Arbor

/-- What an opening bracket holds: its record, and the generation in which the
bracket has entered the word. -/
structure Holding where
  record : Record
  entered : Nat
  deriving DecidableEq, Inhabited, Repr

/-- The holding of a bracket that enters the word. -/
def Holding.fresh (id : UInt32) (generation : Nat) : Holding :=
  ⟨.ungrown id generation, generation⟩

/-- A plant whose records are attached to the brackets of its word. -/
structure MarkedPlant where
  species : Species
  position : Vec3
  marking : Marking Holding
  depth : Nat
  nextId : UInt32

namespace MarkedPlant

/-- The branches that the records make at their brackets. -/
def branches (marked : MarkedPlant) : List Branch :=
  List.zipWith Record.branchAt (marked.marking.owners.map Holding.record)
    marked.marking.word.outline

/-- The plant whose crown lists the records in the order of their brackets. -/
def toPlant (marked : MarkedPlant) : Plant where
  species := marked.species
  position := marked.position
  word := marked.marking.word
  depth := marked.depth
  crown := ⟨marked.branches, marked.nextId⟩

/-- A marked plant that has not grown yet.  Every bracket of the first word gets a
fresh record. -/
def sow (species : Species) (point : Vec3) : MarkedPlant where
  species := species
  position := ⟨point.x, groundLevel, point.z⟩
  marking := Marking.number (fun ordinal => .fresh (UInt32.ofNat ordinal) 0) 0
    species.initiator.enclosed
  depth := 0
  nextId := UInt32.ofNat species.initiator.enclosed.branchCount

/-- A generation: copied brackets keep what they hold, and those of successors get
fresh records of the new generation. -/
def adopt (marked : MarkedPlant) (pieces : List Piece) : MarkedPlant :=
  { marked with
    marking := marked.marking.derive
      (fun number => .fresh (marked.nextId + UInt32.ofNat number) (marked.depth + 1)) 0 pieces
    depth := marked.depth + 1
    nextId := marked.nextId + UInt32.ofNat (Word.branchCount (pieces.flatMap Piece.begun)) }

/-- Derive the next generation, if not all have been derived. -/
def advance? (marked : MarkedPlant) : Drawing (Option MarkedPlant) :=
  if marked.depth ≥ marked.species.maxDepth then
    pure none
  else do
    let pieces ← Piece.cut marked.species.productions marked.marking.word
    pure (some (marked.adopt pieces))

/-- A marking whose records have been replaced, one by one, by those of branches. -/
def restock (marking : Marking Holding) (branches : List Branch) : Marking Holding :=
  marking.zipWith (fun holding branch => { holding with record := branch.record }) branches

/-- Grow every record that has not grown, where it is attached. -/
def grow (environment : Environment) (marked : MarkedPlant) : Drawing MarkedPlant := do
  let pass ← Pass.run marked.species environment marked.position marked.branches
  pure { marked with marking := restock marked.marking pass.branches }

/-- Update a plant whose records are attached to its brackets. -/
def update (environment : Environment) (marked : MarkedPlant) : Drawing MarkedPlant := do
  let grown ← marked.grow environment
  let advanced? ← grown.advance?
  match advanced? with
  | none => pure grown
  | some advanced => advanced.grow environment

/-- Apply an action to a plant whose records are attached to its brackets. -/
def act (marked : MarkedPlant) : Action → Drawing MarkedPlant
  | .advance => do
      let advanced? ← marked.advance?
      pure (advanced?.getD marked)
  | .grow environment => marked.grow environment
  | .update environment => marked.update environment

/-- Apply actions one after the other. -/
def run (marked : MarkedPlant) : List Action → Drawing MarkedPlant
  | [] => pure marked
  | action :: rest => do
      let next ← marked.act action
      next.run rest

/-! ## Marked plants and plants -/

variable {marked : MarkedPlant}

theorem length_branches (marked : MarkedPlant) :
    marked.branches.length = marked.marking.word.branchCount := by
  simp [branches]

theorem map_record_branches (marked : MarkedPlant) :
    marked.branches.map Branch.record = marked.marking.owners.map Holding.record := by
  apply List.ext_getElem
  · simp [branches]
  · intro index _ _
    simp [branches, Record.branchAt, Branch.record]

theorem map_opening_branches (marked : MarkedPlant) :
    marked.branches.map Branch.opening = marked.marking.word.outline := by
  apply List.ext_getElem
  · simp [branches]
  · intro index _ _
    simp [branches, Record.branchAt, Branch.opening]

theorem toPlant_sow (species : Species) (point : Vec3) :
    (sow species point).toPlant = Plant.sow species point := by
  have records : (sow species point).marking.owners.map Holding.record =
      (Crown.empty.buds species.initiator.enclosed.branchCount 0).map Branch.record := by
    simp only [sow, Marking.owners_number, Crown.buds, Crown.empty, List.range_eq_range',
      List.map_map]
    apply List.map_congr_left
    intro ordinal _
    simp [Holding.fresh, Record.ungrown, Branch.record, Branch.bud]
  have word : (sow species point).marking.word = species.initiator.enclosed :=
    Marking.word_number _ _ _
  simp only [toPlant, branches, records, word, Plant.sow, Crown.ofWord, Crown.align]
  simp [sow, Crown.empty, List.zipWith_map_left, Record.branchAt_record]

theorem map_record_restock {marking : Marking Holding} {branches : List Branch}
    (same : branches.length = marking.owners.length) :
    (restock marking branches).owners.map Holding.record = branches.map Branch.record := by
  rw [restock, Marking.owners_zipWith]
  apply List.ext_getElem
  · simp [same]
  · intro index _ _
    simp

theorem map_entered_restock {marking : Marking Holding} {branches : List Branch}
    (same : branches.length = marking.owners.length) :
    (restock marking branches).owners.map Holding.entered =
      marking.owners.map Holding.entered := by
  rw [restock, Marking.owners_zipWith]
  apply List.ext_getElem
  · simp [same]
  · intro index _ _
    simp

/-- Growing the records where they are attached grows the branches of the crown. -/
theorem toPlant_grow (marked : MarkedPlant) (environment : Environment) (draws : Draws) :
    (marked.grow environment draws).1.toPlant =
      (marked.toPlant.grow environment draws).1.plant := by
  let grown := (Pass.run marked.species environment marked.position marked.branches draws).1
  have same : grown.branches.length = marked.marking.owners.length := by
    rw [Pass.length_branches_run, length_branches, Marking.length_owners]
  have word : (restock marked.marking grown.branches).word = marked.marking.word :=
    Marking.word_zipWith _ _ _ (Nat.le_of_eq same.symm)
  have openings : grown.branches.map Branch.opening = marked.marking.word.outline := by
    rw [Pass.map_branches_run Branch.opening (fun _ _ _ => rfl), map_opening_branches]
  have grownBranches :
      branches { marked with marking := restock marked.marking grown.branches } =
        grown.branches := by
    rw [branches, map_record_restock same, word, ← openings, Record.zipWith_branchAt]
  change toPlant { marked with marking := restock marked.marking grown.branches } =
    { marked.toPlant with crown := ⟨grown.branches, marked.nextId⟩ }
  simp only [toPlant, grownBranches, word]

/-- Deriving the marking deals the records as the buddings of the crown do. -/
theorem toPlant_adopt {productions : List Production} {pieces : List Piece}
    (reading : Marking.Reading productions marked.marking pieces)
    (unbracketed : ∀ production ∈ productions, '[' ∉ production.predecessor) :
    (marked.adopt pieces).toPlant = marked.toPlant.adopt (Generation.ofPieces pieces) := by
  have word : (marked.adopt pieces).marking.word = pieces.flatMap Piece.result :=
    Marking.word_derive reading _ _
  have records : (marked.adopt pieces).marking.owners.map Holding.record =
      (Piece.deal (fun number =>
          Branch.bud (marked.nextId + UInt32.ofNat number) (marked.depth + 1))
        0 pieces marked.branches).map Branch.record := by
    rw [Piece.map_deal, map_record_branches]
    simp only [adopt]
    rw [← Marking.deal_owners reading unbracketed, Piece.map_deal]
    rfl
  have crown := Plant.crown_adopt marked.toPlant (Marking.flatMap_source reading)
    marked.length_branches
  have branchesEq : (marked.adopt pieces).branches =
      (marked.toPlant.adopt (Generation.ofPieces pieces)).crown.branches := by
    rw [crown, branches, records, word, List.zipWith_map_left]
    rfl
  change (⟨_, _, (marked.adopt pieces).marking.word, _, ⟨(marked.adopt pieces).branches, _⟩⟩ :
    Plant) = ⟨_, _, pieces.flatMap Piece.result, _,
      (marked.toPlant.adopt (Generation.ofPieces pieces)).crown⟩
  rw [branchesEq, word, crown]
  rfl

/-! ## Simulation -/

/-- The marked plant is the plant with records attached, its rules consume no opening
bracket, and every record is as old as its bracket. -/
structure Follows (marked : MarkedPlant) (plant : Plant) : Prop where
  toPlant_eq : marked.toPlant = plant
  unbracketed : ∀ production ∈ marked.species.productions, '[' ∉ production.predecessor
  entered : ∀ holding ∈ marked.marking.owners,
    holding.record.creationDepth = holding.entered

namespace Follows

variable {plant : Plant}

theorem sow (species : Species) (point : Vec3)
    (unbracketed : ∀ production ∈ species.productions, '[' ∉ production.predecessor) :
    Follows (sow species point) (Plant.sow species point) where
  toPlant_eq := toPlant_sow species point
  unbracketed := unbracketed
  entered := by
    intro holding member
    simp only [MarkedPlant.sow, Marking.owners_number, List.mem_map] at member
    rcases member with ⟨ordinal, -, rfl⟩
    rfl

theorem grow (follows : Follows marked plant) (environment : Environment) (draws : Draws) :
    Follows (marked.grow environment draws).1 (plant.grow environment draws).1.plant ∧
      (marked.grow environment draws).2 = (plant.grow environment draws).2 := by
  rcases follows with ⟨rfl, unbracketed, entered⟩
  refine ⟨⟨toPlant_grow marked environment draws, unbracketed, ?_⟩, rfl⟩
  let grown := (Pass.run marked.species environment marked.position marked.branches draws).1
  have same : grown.branches.length = marked.marking.owners.length := by
    simp [grown, length_branches]
  apply List.map_inj_left.mp
  calc (restock marked.marking grown.branches).owners.map (·.record.creationDepth)
      = ((restock marked.marking grown.branches).owners.map Holding.record).map
          Record.creationDepth := by rw [List.map_map]; rfl
    _ = grown.branches.map Branch.creationDepth := by
        rw [map_record_restock same, List.map_map]; rfl
    _ = marked.branches.map Branch.creationDepth :=
        Pass.map_branches_run Branch.creationDepth (fun _ _ _ => rfl) _ _ _ _ _
    _ = (marked.branches.map Branch.record).map Record.creationDepth := by
        rw [List.map_map]; rfl
    _ = marked.marking.owners.map Holding.entered := by
        rw [map_record_branches, List.map_map]
        exact List.map_inj_left.mpr entered
    _ = (restock marked.marking grown.branches).owners.map Holding.entered :=
        (map_entered_restock same).symm

theorem advance? (follows : Follows marked plant) (draws : Draws) :
    Option.Rel Follows (marked.advance? draws).1 (plant.advance? draws).1 ∧
      (marked.advance? draws).2 = (plant.advance? draws).2 := by
  rcases follows with ⟨rfl, unbracketed, entered⟩
  rw [MarkedPlant.advance?, Plant.advance?_eq]
  by_cases derived : marked.depth ≥ marked.species.maxDepth
  · have fully : marked.toPlant.isFullyDerived = true := by
      simpa [Plant.isFullyDerived, toPlant] using derived
    rw [if_pos derived, if_pos fully]
    exact ⟨.none, rfl⟩
  · have notFully : ¬ marked.toPlant.isFullyDerived = true := by
      simpa [Plant.isFullyDerived, toPlant] using derived
    rw [if_neg derived, if_neg notFully]
    have reading := Marking.reading_cut marked.species.productions marked.marking draws
    refine ⟨.some ⟨toPlant_adopt reading unbracketed, unbracketed, ?_⟩, rfl⟩
    intro holding member
    rcases Marking.mem_owners_derive reading _ _ _ member with ⟨number, rfl⟩ | old
    · rfl
    · exact entered holding old

theorem update (follows : Follows marked plant) (environment : Environment) (draws : Draws) :
    Follows (marked.update environment draws).1 (plant.update environment draws).1.plant ∧
      (marked.update environment draws).2 = (plant.update environment draws).2 := by
  rcases follows.grow environment draws with ⟨grown, grownDraws⟩
  rcases grown.advance? (marked.grow environment draws).2 with ⟨advanced, advancedDraws⟩
  simp only [MarkedPlant.update, Plant.update, Drawing.bind_apply]
  rw [← grownDraws, ← advancedDraws]
  generalize ((marked.grow environment draws).1.advance? _).1 = markedNext at advanced ⊢
  generalize ((plant.grow environment draws).1.plant.advance? _).1 = next at advanced ⊢
  cases advanced with
  | none => exact ⟨grown, rfl⟩
  | some later => exact later.grow environment _

theorem act (follows : Follows marked plant) (action : Action) (draws : Draws) :
    Follows (marked.act action draws).1 (plant.act action draws).1.plant ∧
      (marked.act action draws).2 = (plant.act action draws).2 := by
  cases action with
  | grow environment => exact follows.grow environment draws
  | update environment => exact follows.update environment draws
  | advance =>
      rcases follows.advance? draws with ⟨advanced, advancedDraws⟩
      simp only [MarkedPlant.act, Plant.act, Drawing.bind_apply, Drawing.pure_apply]
      refine ⟨?_, advancedDraws⟩
      generalize (marked.advance? draws).1 = markedNext at advanced ⊢
      generalize (plant.advance? draws).1 = next at advanced ⊢
      cases advanced with
      | none => exact follows
      | some later => exact later

theorem run (actions : List Action) :
    {marked : MarkedPlant} → {plant : Plant} → Follows marked plant → (draws : Draws) →
      Follows (marked.run actions draws).1 (plant.run actions draws).1.plant := by
  induction actions with
  | nil =>
      intro marked plant follows draws
      exact follows
  | cons action rest ih =>
      intro marked plant follows draws
      rcases follows.act action draws with ⟨next, nextDraws⟩
      rw [Plant.plant_run_cons, ← nextDraws]
      exact ih next _

end Follows

end MarkedPlant

/-- Whatever is done and drawn, the branches of a plant are, in order, the records that
its brackets hold, and each record dates from the generation of its bracket. -/
theorem Plant.records_run_eq_attached (species : Species) (point : Vec3)
    (unbracketed : ∀ production ∈ species.productions, '[' ∉ production.predecessor)
    (actions : List Action) (draws : Draws) :
    let plant := ((Plant.sow species point).run actions draws).1.plant
    let marked := ((MarkedPlant.sow species point).run actions draws).1
    marked.marking.word = plant.word ∧ marked.depth = plant.depth ∧
      plant.crown.branches.map Branch.record = marked.marking.owners.map Holding.record ∧
      plant.crown.branches.map Branch.opening = plant.word.outline ∧
      ∀ holding ∈ marked.marking.owners, holding.record.creationDepth = holding.entered := by
  intro plant marked
  have follows := MarkedPlant.Follows.run actions
    (MarkedPlant.Follows.sow species point unbracketed) draws
  have equal : marked.toPlant = plant := follows.toPlant_eq
  refine ⟨?_, ?_, ?_, ?_, follows.entered⟩
  · rw [← equal]
    rfl
  · rw [← equal]
    rfl
  · rw [← equal]
    exact MarkedPlant.map_record_branches marked
  · rw [← equal]
    exact MarkedPlant.map_opening_branches marked

/-- In a tangle the buds of a later generation stand between older branches. -/
theorem Plant.records_tangle_eq_attached :
    let actions := [Action.advance, .grow .noon, .advance]
    let plant := ((Plant.sow Species.tangle ⟨1, 0, 2⟩).run actions (Draws.ofSeed 7)).1.plant
    let marked :=
      ((MarkedPlant.sow Species.tangle ⟨1, 0, 2⟩).run actions (Draws.ofSeed 7)).1
    plant.crown.branches.map Branch.creationDepth = [0, 1, 2, 2, 2, 1, 2, 2, 2, 1] ∧
      plant.crown.branches.map Branch.record = marked.marking.owners.map Holding.record := by
  refine ⟨by decide +kernel, ?_⟩
  exact (Plant.records_run_eq_attached Species.tangle _ (by decide) _ _).2.2.1

end Arbor
