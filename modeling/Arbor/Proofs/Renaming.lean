import Arbor.Proofs.Run
import Arbor.Species.Library
import Mathlib.Logic.Equiv.Basic

/-!
# Names of symbols

Only nine symbols mean something outside the productions: the brackets, `F` and the six
turns.  All others are names, and a species whose names are exchanged for others, in the
word from which it starts and in all productions, has the same plants.  Their words are
spelled with the new names, and nothing else differs.
-/

namespace Arbor

/-- The symbols that mean something outside the productions. -/
def Word.meaningful : Word := ['[', ']', 'F', '+', '-', '/', '\\', '&', '^']

/-- A permutation of the symbols that leaves those with a meaning alone. -/
structure Renaming where
  image : Symbol → Symbol
  bijective : Function.Bijective image
  fixes : ∀ symbol ∈ Word.meaningful, image symbol = symbol

namespace Renaming

/-- Exchange two symbols without a meaning for one another. -/
def swap (left right : Symbol) (leftMeaningless : left ∉ Word.meaningful)
    (rightMeaningless : right ∉ Word.meaningful) : Renaming where
  image := Equiv.swap left right
  bijective := (Equiv.swap left right).bijective
  fixes symbol member := by
    apply Equiv.swap_apply_of_ne_of_ne
    · rintro rfl
      exact leftMeaningless member
    · rintro rfl
      exact rightMeaningless member

/-- Nothing else is renamed to a symbol with a meaning. -/
theorem image_eq_iff (naming : Renaming) {meaning : Symbol}
    (meaningful : meaning ∈ Word.meaningful) {symbol : Symbol} :
    naming.image symbol = meaning ↔ symbol = meaning := by
  constructor
  · intro same
    apply naming.bijective.injective
    rw [same, naming.fixes meaning meaningful]
  · rintro rfl
    exact naming.fixes symbol meaningful

end Renaming

variable (naming : Renaming)

/-! ## Words -/

namespace Word

/-- Rename every symbol of a word. -/
def rename (word : Word) : Word :=
  word.map naming.image

@[simp] theorem rename_nil : rename naming [] = [] := rfl

@[simp] theorem rename_cons (symbol : Symbol) (rest : Word) :
    rename naming (symbol :: rest) = naming.image symbol :: rename naming rest := rfl

theorem image_eq_opening_iff {symbol : Symbol} :
    naming.image symbol = '[' ↔ symbol = '[' :=
  naming.image_eq_iff (by decide)

theorem image_eq_closing_iff {symbol : Symbol} :
    naming.image symbol = ']' ↔ symbol = ']' :=
  naming.image_eq_iff (by decide)

@[simp] theorem isBracket_image (symbol : Symbol) :
    isBracket (naming.image symbol) = isBracket symbol := by
  simp [isBracket, image_eq_opening_iff, image_eq_closing_iff]

@[simp] theorem branchCount_rename (word : Word) :
    branchCount (rename naming word) = branchCount word := by
  induction word with
  | nil => rfl
  | cons symbol rest ih =>
      simp only [rename_cons, branchCount_cons, ih, image_eq_opening_iff]

theorem leadingText_rename (word : Word) :
    leadingText (rename naming word) = rename naming (leadingText word) := by
  rw [leadingText, rename, List.takeWhile_map]
  simp [leadingText, rename, Function.comp_def]

theorem enclosed_rename (word : Word) :
    enclosed (rename naming word) = rename naming (enclosed word) := by
  have head : (rename naming word).head? = some '[' ↔ word.head? = some '[' := by
    cases word with
    | nil => simp
    | cons symbol rest => simp [image_eq_opening_iff]
  have fixes : naming.image '[' = '[' ∧ naming.image ']' = ']' :=
    ⟨naming.fixes _ (by decide), naming.fixes _ (by decide)⟩
  simp only [enclosed, head]
  split
  · rfl
  · simp [rename, fixes]

end Word

/-- The opening with its text renamed. -/
def Opening.rename (opening : Opening) : Opening :=
  { opening with label := Word.rename naming opening.label }

/-- Renaming changes the texts in an outline and no places. -/
theorem Word.outlineFrom_rename (word : Word) :
    (unclosed : List Nat) → (ordinal : Nat) →
      outlineFrom unclosed ordinal (rename naming word) =
        (outlineFrom unclosed ordinal word).map (Opening.rename naming) := by
  induction word with
  | nil =>
      intro unclosed ordinal
      rfl
  | cons symbol rest ih =>
      intro unclosed ordinal
      simp only [rename_cons, outlineFrom, image_eq_opening_iff, image_eq_closing_iff, ih,
        leadingText_rename]
      split
      · rfl
      · split <;> rfl

/-- The turtle does not tell names apart. -/
theorem Command.ofSymbol_image (symbol : Symbol) :
    ofSymbol (naming.image symbol) = ofSymbol symbol := by
  have same : ∀ meaning ∈ Word.meaningful,
      naming.image symbol = meaning ↔ symbol = meaning :=
    fun _ meaningful => naming.image_eq_iff meaningful
  simp only [Word.meaningful, List.forall_mem_cons] at same
  simp only [ofSymbol, same]

/-! ## Derivations -/

/-- The production between renamed words. -/
def Production.rename (production : Production) : Production :=
  { production with
    predecessor := Word.rename naming production.predecessor
    successor := Word.rename naming production.successor }

namespace Production

@[simp] theorem branchCount_rename (production : Production) :
    (production.rename naming).branchCount = production.branchCount :=
  Word.branchCount_rename naming _

/-- A renamed predecessor stands where the predecessor stood. -/
theorem applies_rename (word : Word) (production : Production) :
    applies (Word.rename naming word) (production.rename naming) =
      applies word production := by
  have nonempty : (production.rename naming).predecessor = [] ↔ production.predecessor = [] :=
    List.map_eq_nil_iff
  have stands : (production.rename naming).predecessor.isPrefixOf (Word.rename naming word) =
      production.predecessor.isPrefixOf word := by
    rw [Bool.eq_iff_iff, List.isPrefixOf_iff_prefix, List.isPrefixOf_iff_prefix]
    exact List.prefix_map_iff_of_injective naming.bijective.injective
  rw [applies, applies, stands]
  simp only [ne_eq, nonempty]

theorem candidate?_rename (productions : List Production) (word : Word) :
    candidate? (productions.map (Production.rename naming)) (Word.rename naming word) =
      (candidate? productions word).map (Production.rename naming) := by
  rw [candidate?, candidate?, List.find?_map]
  congr 2
  funext production
  exact applies_rename naming word production

end Production

/-- Rename what the piece was and what it becomes. -/
def Piece.rename : Piece → Piece
  | copied symbol => copied (naming.image symbol)
  | replaced production => replaced (production.rename naming)

/-- A renamed word is cut where the word was cut, with the same draws. -/
theorem Piece.cutFrom_rename (productions : List Production) (word : Word) :
    (covered : Nat) →
      cutFrom (productions.map (Production.rename naming)) covered (Word.rename naming word) =
        List.map (Piece.rename naming) <$> cutFrom productions covered word := by
  induction word with
  | nil =>
      intro covered
      rfl
  | cons symbol rest ih =>
      intro covered
      cases covered with
      | succ covered => exact ih covered
      | zero =>
          have candidate := Production.candidate?_rename naming productions (symbol :: rest)
          rw [Word.rename_cons] at candidate ⊢
          rw [cutFrom, cutFrom, candidate]
          cases Production.candidate? productions (symbol :: rest) with
          | none => simp [ih, Piece.rename]
          | some production =>
              -- The renamed candidate covers as many symbols and is decided by the same draw.
              have covered : (production.rename naming).predecessor.length =
                  production.predecessor.length := List.length_map _
              have fires : (production.rename naming).fires = production.fires := rfl
              simp only [Option.map_some, covered, fires, ih, map_bind, bind_map_left]
              apply bind_congr
              intro fired
              cases fired <;> simp [Piece.rename]

theorem Piece.cut_rename (productions : List Production) (word : Word) :
    cut (productions.map (Production.rename naming)) (Word.rename naming word) =
      List.map (Piece.rename naming) <$> cut productions word :=
  Piece.cutFrom_rename naming productions word 0

/-- The generation with its word renamed. -/
def Generation.rename (generation : Generation) : Generation :=
  { generation with word := Word.rename naming generation.word }

namespace Generation

theorem buddingsFrom_rename (pieces : List Piece) :
    (emitted : Nat) →
      buddingsFrom emitted (pieces.map (Piece.rename naming)) = buddingsFrom emitted pieces := by
  induction pieces with
  | nil =>
      intro emitted
      rfl
  | cons piece rest ih =>
      intro emitted
      cases piece with
      | copied symbol =>
          have count : Word.branchCount [naming.image symbol] = Word.branchCount [symbol] :=
            Word.branchCount_rename naming [symbol]
          simp only [List.map_cons, Piece.rename, buddingsFrom, count, ih]
      | replaced production =>
          simp only [List.map_cons, Piece.rename, buddingsFrom, Production.branchCount_rename, ih]

theorem ofPieces_rename (pieces : List Piece) :
    ofPieces (pieces.map (Piece.rename naming)) = (ofPieces pieces).rename naming := by
  have result : ∀ piece : Piece,
      (piece.rename naming).result = Word.rename naming piece.result := by
    intro piece
    cases piece <;> rfl
  have replaced : ∀ piece : Piece, (piece.rename naming).isReplaced = piece.isReplaced := by
    intro piece
    cases piece <;> rfl
  simp only [ofPieces, rename, buddingsFrom_rename, List.flatMap_map, List.countP_map,
    Function.comp_def, result, replaced, Word.rename, List.map_flatMap]

theorem next_rename (productions : List Production) (word : Word) :
    next (productions.map (Production.rename naming)) (Word.rename naming word) =
      rename naming <$> next productions word := by
  simp [next_eq_ofPieces, Piece.cut_rename, ofPieces_rename]

end Generation

/-! ## Crowns -/

/-- The branch with its text renamed. -/
def Branch.rename (branch : Branch) : Branch :=
  { branch with label := Word.rename naming branch.label }

@[simp] theorem Branch.isGrown_rename (branch : Branch) :
    (branch.rename naming).isGrown = branch.isGrown := rfl

/-- Rename the texts of all branches. -/
def Crown.rename (crown : Crown) : Crown :=
  { crown with branches := crown.branches.map (Branch.rename naming) }

namespace Crown

/-- Buds have no text to rename. -/
theorem map_rename_buds (crown : Crown) (count creationDepth : Nat) :
    (crown.buds count creationDepth).map (Branch.rename naming) =
      (crown.rename naming).buds count creationDepth := by
  simp only [buds, List.map_map]
  rfl

theorem insertBuds_rename (crown : Crown) (count position creationDepth : Nat) :
    (crown.rename naming).insertBuds count position creationDepth =
      (crown.insertBuds count position creationDepth).rename naming := by
  simp only [insertBuds, ← map_rename_buds]
  simp only [rename, List.map_append, List.map_take, List.map_drop]

theorem align_rename (crown : Crown) (word : Word) (creationDepth : Nat) :
    (crown.rename naming).align (Word.rename naming word) creationDepth =
      (crown.align word creationDepth).rename naming := by
  have outline : (Word.rename naming word).outline = word.outline.map (Opening.rename naming) :=
    Word.outlineFrom_rename naming word [] 0
  have place : ∀ (branch : Branch) (opening : Opening),
      (branch.rename naming).place (opening.rename naming) =
        (branch.place opening).rename naming := by
    intro branch opening
    rfl
  simp only [align, Word.branchCount_rename, outline, ← map_rename_buds]
  simp only [rename, List.length_map, ← List.map_append, List.zipWith_map, List.map_zipWith,
    place]

end Crown

/-! ## Growth -/

/-- The turtle draws and goes the same along a renamed text. -/
theorem Conditions.shootsAlong_rename (conditions : Conditions) (word : Word) :
    (pose : Pose) →
      conditions.shootsAlong pose (Word.rename naming word) =
        conditions.shootsAlong pose word := by
  induction word with
  | nil =>
      intro pose
      rfl
  | cons symbol rest ih =>
      intro pose
      simp only [Word.rename_cons, shootsAlong, Command.ofSymbol_image, ih]

/-- As many nodes grow along a renamed text. -/
theorem Conditions.stepsAlong_rename (conditions : Conditions) (word : Word) :
    conditions.stepsAlong (Word.rename naming word) = conditions.stepsAlong word := by
  induction word with
  | nil => rfl
  | cons symbol rest ih => simp only [Word.rename_cons, stepsAlong, Command.ofSymbol_image, ih]

/-- Rename the text of the branch; what has grown stays. -/
def BranchGrowth.rename (growth : BranchGrowth) : BranchGrowth :=
  { growth with branch := growth.branch.rename naming }

/-- Rename the text of the branch that is visited. -/
def Visit.rename (visit : Visit) : Visit :=
  { visit with toBranchGrowth := visit.toBranchGrowth.rename naming }

/-- The species with its words renamed. -/
def Species.rename (species : Species) : Species :=
  { species with
    initiator := Word.rename naming species.initiator
    productions := species.productions.map (Production.rename naming) }

theorem Branch.growOnce_rename (species : Species) (environment : Environment) (pose : Pose)
    (branch : Branch) :
    (branch.rename naming).growOnce (species.rename naming) environment pose =
      BranchGrowth.rename naming <$> branch.growOnce species environment pose := by
  have conditions : (species.rename naming).conditions = species.conditions := rfl
  have shoots := Conditions.shootsAlong_rename naming
    (species.conditions environment branch.creationDepth) branch.label pose
  have steps := Conditions.stepsAlong_rename naming
    (species.conditions environment branch.creationDepth) branch.label
  rw [growOnce, growOnce, isGrown_rename]
  split
  · rfl
  · rw [grow, grow, conditions]
    simp only [map_bind, rename, shoots, steps]
    rfl

theorem Visit.along_rename (species : Species) (environment : Environment)
    (branches : List Branch) :
    (stack : PoseStack) →
      along (species.rename naming) environment stack (branches.map (Branch.rename naming)) =
        List.map (Visit.rename naming) <$> along species environment stack branches := by
  induction branches with
  | nil =>
      intro stack
      rfl
  | cons branch rest ih =>
      intro stack
      have nesting : (branch.rename naming).nesting = branch.nesting := rfl
      have exit : ∀ (growth : BranchGrowth) (entry : Pose),
          (growth.rename naming).branch.exit entry = growth.branch.exit entry := by
        intro growth entry
        rfl
      simp only [List.map_cons, along, nesting, Branch.growOnce_rename, exit, ih, map_bind,
        bind_map_left, map_pure]
      rfl

/-- The pass with the texts of its branches renamed. -/
def Pass.rename (pass : Pass) : Pass :=
  { pass with branches := pass.branches.map (Branch.rename naming) }

theorem Pass.run_rename (species : Species) (environment : Environment) (base : Vec3)
    (branches : List Branch) :
    run (species.rename naming) environment base (branches.map (Branch.rename naming)) =
      rename naming <$> run species environment base branches := by
  have ofVisits_rename : ∀ visits : List Visit,
      ofVisits (visits.map (Visit.rename naming)) = (ofVisits visits).rename naming := by
    intro visits
    simp only [ofVisits, rename, List.map_map, List.flatMap_map]
    rfl
  simp only [run, Visit.along_rename, bind_map_left, ofVisits_rename, map_bind, map_pure]

/-! ## Plants -/

namespace Plant

/-- The plant with all its words renamed. -/
def rename (plant : Plant) : Plant :=
  { plant with
    species := plant.species.rename naming
    word := Word.rename naming plant.word
    crown := plant.crown.rename naming }

end Plant

/-- Rename the plant; what has grown stays. -/
def Growth.rename (growth : Growth) : Growth :=
  { growth with plant := growth.plant.rename naming }

namespace Plant

theorem isMature_rename (plant : Plant) : (plant.rename naming).isMature = plant.isMature := by
  have grown : (plant.rename naming).crown.branches.all Branch.isGrown =
      plant.crown.branches.all Branch.isGrown := by
    simp only [rename, Crown.rename, List.all_map, Function.comp_def, Branch.isGrown_rename]
  rw [isMature, grown]
  rfl

theorem sow_rename (species : Species) (point : Vec3) :
    sow (species.rename naming) point = (sow species point).rename naming := by
  have crown := Crown.align_rename naming Crown.empty species.initiator.enclosed 0
  have initiator : (species.rename naming).initiator.enclosed =
      Word.rename naming species.initiator.enclosed := Word.enclosed_rename naming _
  simp only [sow, rename, initiator]
  rw [Crown.ofWord, Crown.ofWord, ← crown]
  rfl

theorem adopt_rename (plant : Plant) (generation : Generation) :
    (plant.rename naming).adopt (generation.rename naming) =
      (plant.adopt generation).rename naming := by
  have budded : ∀ (buddings : List Budding) (crown : Crown),
      buddings.foldl (fun (crown : Crown) budding =>
          crown.insertBuds budding.count budding.position (plant.depth + 1))
            (crown.rename naming) =
        (buddings.foldl (fun (crown : Crown) budding =>
          crown.insertBuds budding.count budding.position (plant.depth + 1))
            crown).rename naming := by
    intro buddings
    induction buddings with
    | nil =>
        intro crown
        rfl
    | cons budding rest ih =>
        intro crown
        rw [List.foldl_cons, Crown.insertBuds_rename, ih, List.foldl_cons]
  simp only [adopt, rename, Generation.rename, budded, Crown.align_rename]

theorem advance?_rename (plant : Plant) :
    (plant.rename naming).advance? = Option.map (rename naming) <$> plant.advance? := by
  have derived : (plant.rename naming).isFullyDerived = plant.isFullyDerived := rfl
  have next := Generation.next_rename naming plant.species.productions plant.word
  rw [advance?, advance?, derived]
  split
  · rfl
  · simp only [map_bind, map_pure, Option.map_some, ← adopt_rename]
    exact (congrArg (· >>= _) next).trans (bind_map_left _ _ _)

theorem grow_rename (plant : Plant) (environment : Environment) :
    (plant.rename naming).grow environment = Growth.rename naming <$> plant.grow environment := by
  have pass := Pass.run_rename naming plant.species environment plant.position
    plant.crown.branches
  simp only [grow, map_bind, map_pure]
  exact (congrArg (· >>= _) pass).trans (bind_map_left _ _ _)

theorem update_rename (plant : Plant) (environment : Environment) :
    (plant.rename naming).update environment =
      Growth.rename naming <$> plant.update environment := by
  have advance : ∀ growth : Growth, (growth.rename naming).plant.advance? =
      Option.map (rename naming) <$> growth.plant.advance? := by
    intro growth
    exact advance?_rename naming growth.plant
  simp only [update, grow_rename, advance, bind_map_left, map_bind]
  apply bind_congr
  intro before
  apply bind_congr
  intro advanced?
  cases advanced? with
  | none => rfl
  | some advanced =>
      simp only [Option.map_some, grow_rename, bind_map_left, map_bind, map_pure]
      rfl

theorem act_rename (plant : Plant) (action : Action) :
    (plant.rename naming).act action = Growth.rename naming <$> plant.act action := by
  cases action with
  | advance =>
      simp only [act, advance?_rename, bind_map_left, map_bind, map_pure, Option.getD_map]
      rfl
  | grow environment => exact grow_rename naming plant environment
  | update environment => exact update_rename naming plant environment

/-- The growth in each of a list of actions, with the source of draws that it has left. -/
def steps (plant : Plant) : List Action → Draws → List (Growth × Draws)
  | [], _ => []
  | action :: rest, draws =>
      plant.act action draws ::
        (plant.act action draws).1.plant.steps rest (plant.act action draws).2

theorem steps_rename (actions : List Action) :
    (plant : Plant) → (draws : Draws) →
      (plant.rename naming).steps actions draws =
        (plant.steps actions draws).map fun (growth, draws) => (growth.rename naming, draws) := by
  induction actions with
  | nil =>
      intro plant draws
      rfl
  | cons action rest ih =>
      intro plant draws
      have step := act_rename naming plant action
      rw [steps, step, Drawing.map_apply]
      exact congrArg _ (ih _ _)

/-- A species and its renaming have the same plants but for the names.  After every action
they have the same words with the names exchanged, and the same depths, crowns, segments,
reports and sources of draws.  They are mature at the same time. -/
theorem steps_sow_rename (species : Species) (point : Vec3) (actions : List Action)
    (draws : Draws) :
    sow (species.rename naming) point = (sow species point).rename naming ∧
    (sow (species.rename naming) point).steps actions draws =
      ((sow species point).steps actions draws).map
        (fun (growth, draws) => (growth.rename naming, draws)) ∧
    ((sow (species.rename naming) point).steps actions draws).map
        (fun (growth, _) => growth.plant.isMature) =
      ((sow species point).steps actions draws).map
        (fun (growth, _) => growth.plant.isMature) := by
  have steps : (sow (species.rename naming) point).steps actions draws =
      ((sow species point).steps actions draws).map
        (fun (growth, draws) => (growth.rename naming, draws)) := by
    rw [sow_rename, steps_rename]
  refine ⟨sow_rename naming species point, steps, ?_⟩
  rw [steps, List.map_map]
  apply List.map_congr_left
  intro entry _
  exact isMature_rename naming entry.1.plant

/-- In a leafy tree, a symbol of two bytes takes the place of one of a single byte. -/
theorem steps_sow_rename_leafyTree :
    let naming := Renaming.swap 'A' 'Ω' (by decide) (by decide)
    let species := Species.leafyTree.rename naming
    let actions := [Action.advance, .update .noon]
    let draws := Draws.ofSeed 0
    species.initiator = "[FFΩ]".toList ∧
      species.productions = [.certain "Ω".toList "[+FΩ][-/FΩ][\\&FΩ]".toList] ∧
      ((sow species ⟨0, 0, 0⟩).act .advance draws).1.plant.word =
        "[FF[+FΩ][-/FΩ][\\&FΩ]]".toList ∧
      (sow species ⟨0, 0, 0⟩).steps actions draws =
        ((sow Species.leafyTree ⟨0, 0, 0⟩).steps actions draws).map
          fun (growth, draws) => (growth.rename naming, draws) := by
  intro naming species actions draws
  have renamed := steps_sow_rename naming Species.leafyTree ⟨0, 0, 0⟩ actions draws
  exact ⟨by decide, by decide, by decide +kernel, renamed.2.1⟩

end Plant

end Arbor
