import Arbor.Proofs.Budding
import Arbor.Proofs.Edit
import Arbor.Proofs.Growth
import Arbor.Proofs.Sketch
import Arbor.Species.Library
import Mathlib.Data.List.Induction

/-!
# The numbers of nodes and leaves

A branch gets all its nodes and leaves in one pass, and how many they are is decided by the
text that it has there.  Later generations move the branch and give it other texts, but its
geometry stays.  So the numbers are found by following a branch back, through the edits of
its crown, to the pass in which it has grown.
-/

namespace Arbor

/-! ## What a text grows -/

/-- Where every item looks the same in some view, so do all of them together. -/
theorem Drawing.map_replicate {Item Value : Type} (item : Drawing Item) (view : Item → Value)
    {value : Value} (constant : ∀ draws, view (item draws).1 = value) (count : Nat) :
    (draws : Draws) → (replicate count item draws).1.map view = List.replicate count value := by
  induction count with
  | zero =>
      intro draws
      rfl
  | succ count ih =>
      intro draws
      simp only [replicate, bind_apply, pure_apply, List.map_cons, constant, ih]
      rfl

/-- A shoot has as many samples of leaves as it is asked for. -/
theorem ShootSample.length_leaves_draw (leafCount : Nat) (draws : Draws) :
    (draw leafCount draws).1.leaves.length = leafCount := by
  simp [draw]

theorem Command.ofSymbol_eq_grow_iff {symbol : Symbol} :
    ofSymbol symbol = grow ↔ symbol = 'F' := by
  constructor
  · intro grows
    by_contra other
    rw [ofSymbol, if_neg other] at grows
    grind
  · rintro rfl
    rfl

theorem Command.count_grow_cons (symbol : Symbol) (rest : Word) :
    (symbol :: rest).count 'F' = rest.count 'F' + if ofSymbol symbol = grow then 1 else 0 := by
  simp only [List.count_cons, ofSymbol_eq_grow_iff, beq_iff_eq]

namespace Conditions

/-- Every `F` of a text grows the same number of shoots, and each shoot has the same number
of leaves, wherever the branch begins. -/
theorem map_length_leaves_shootsAlong (conditions : Conditions) (text : Word) :
    (pose : Pose) → (draws : Draws) →
      (conditions.shootsAlong pose text draws).1.map (fun shoot => shoot.leaves.length) =
        List.replicate (text.count 'F' * conditions.stepsPerRun) conditions.leavesPerStep := by
  induction text with
  | nil =>
      intro pose draws
      simp [shootsAlong]
  | cons symbol rest ih =>
      intro pose draws
      unfold shootsAlong
      rw [Command.count_grow_cons]
      cases Command.ofSymbol symbol with
      | turn plane backward => exact ih _ draws
      | ignore => exact ih pose draws
      | grow =>
          have first := Drawing.map_replicate (ShootSample.draw conditions.leavesPerStep)
            (fun sample => sample.leaves.length) (ShootSample.length_leaves_draw _)
            conditions.stepsPerRun draws
          rw [if_pos rfl, Nat.succ_mul, Nat.add_comm, ← List.replicate_append_replicate]
          simp only [Drawing.bind_apply, Drawing.pure_apply, List.map_append, map_leaves_run,
            first, ih]

end Conditions

/-! ## Branches -/

theorem Species.mul_leavesAt (species : Species) (steps creationDepth : Nat) :
    steps * species.leavesAt creationDepth =
      if species.firstLeafyDepth ≤ creationDepth then
        steps * (species.leavesPerBranch / max species.controlPoints 1)
      else 0 := by
  by_cases young : creationDepth < species.firstLeafyDepth
  · rw [leavesAt, if_pos young, if_neg (Nat.not_le_of_lt young), Nat.mul_zero]
  · rw [leavesAt, if_neg young, if_pos (Nat.le_of_not_lt young)]
    rfl

/-- The numbers of nodes and leaves of a branch that has grown from a text. -/
structure Record.IsMeasured (species : Species) (text : Word) (record : Record) : Prop where
  length_nodes : record.nodes.length = 1 + text.count 'F' * species.stepsPerRun
  length_leaves :
    record.leaves.length = (record.nodes.length - 1) * species.leavesAt record.creationDepth

namespace Branch

/-- The branch has no geometry yet. -/
def IsBare (branch : Branch) : Prop :=
  branch.nodes = [] ∧ branch.leaves = []

variable (species : Species) {branch : Branch}

theorem isMeasured_extend (bare : branch.IsBare) {text : Word}
    {shoots : List Shoot}
    (counts : shoots.map (fun shoot => shoot.leaves.length) =
      List.replicate (text.count 'F' * species.stepsPerRun)
        (species.leavesAt branch.creationDepth)) (start : Vec3) :
    (branch.extend start shoots).record.IsMeasured species text := by
  have length_shoots : shoots.length = text.count 'F' * species.stepsPerRun := by
    simpa using congrArg List.length counts
  constructor
  · simp [record, extend, bare.1, length_shoots, Nat.add_comm]
  · simp [record, extend, bare.1, bare.2, List.length_flatMap, counts, length_shoots]

/-- A branch without geometry gets in one pass everything that its text grows. -/
theorem isMeasured_growOnce (bare : branch.IsBare) (environment : Environment)
    (pose : Pose) (draws : Draws) :
    (branch.growOnce species environment pose draws).1.branch.record.IsMeasured species
      branch.label := by
  have ungrown : branch.isGrown = false := by
    simp [isGrown, bare.1]
  rw [growOnce, if_neg (by simp [ungrown])]
  apply isMeasured_extend species bare
  exact Conditions.map_length_leaves_shootsAlong _ branch.label pose draws

end Branch

namespace Crown

/-! ## Following a branch through edits -/

namespace Edit

/-- The index to which an edit moves the branch of an index, unless it drops the branch. -/
def move? : Edit → Nat → Option Nat
  | .insert count position _, index => some (if index < position then index else index + count)
  | .align word _, index => if index < word.branchCount then some index else none
  | .grow _ _ _ _, index => some index

/-- The index to which edits move the branch of an index, one after the other. -/
def moveAll? (edits : List Edit) (index : Nat) : Option Nat :=
  edits.foldlM (fun index edit => edit.move? index) index

theorem moveAll?_concat {edits : List Edit} {edit : Edit} {origin index moved : Nat}
    (earlier : moveAll? edits origin = some index) (last : edit.move? index = some moved) :
    moveAll? (edits ++ [edit]) origin = some moved := by
  rw [moveAll?] at earlier ⊢
  rw [List.foldlM_append, earlier]
  simpa using last

end Edit

variable {crown : Crown} {index : Nat} {branch : Branch}

theorem isBare_of_mem_buds {count creationDepth : Nat}
    (member : branch ∈ crown.buds count creationDepth) : branch.IsBare := by
  rcases List.mem_map.mp member with ⟨offset, -, rfl⟩
  exact ⟨rfl, rfl⟩

theorem exists_origin_of_insert {count position creationDepth : Nat}
    (branch_at : (crown.insertBuds count position creationDepth).branches[index]? = some branch) :
    branch.IsBare ∨
      ∃ origin, crown.branches[origin]? = some branch ∧
        (Edit.insert count position creationDepth).move? origin = some index := by
  simp only [insertBuds, List.append_assoc] at branch_at
  -- The index lies before the buds, among them or after them.
  rcases Nat.lt_or_ge index (min position crown.branches.length) with before | notBefore
  · right
    rw [List.getElem?_append_left (by simpa using before),
      List.getElem?_take_of_lt (Nat.lt_of_lt_of_le before (Nat.min_le_left _ _))] at branch_at
    refine ⟨index, branch_at, ?_⟩
    rw [Edit.move?, if_pos (Nat.lt_of_lt_of_le before (Nat.min_le_left _ _))]
  · rw [List.getElem?_append_right (by simpa using notBefore), List.length_take] at branch_at
    rcases Nat.lt_or_ge (index - min position crown.branches.length) count with among | after
    · left
      rw [List.getElem?_append_left (by simpa using among)] at branch_at
      exact isBare_of_mem_buds (List.mem_of_getElem? branch_at)
    · right
      rw [List.getElem?_append_right (by simpa using after), length_buds,
        List.getElem?_drop] at branch_at
      have present := (List.getElem?_eq_some_iff.mp branch_at).1
      refine ⟨_, branch_at, ?_⟩
      rw [Edit.move?, if_neg (by omega)]
      exact congrArg some (by omega)

theorem exists_origin_of_align {word : Word} {creationDepth : Nat}
    (branch_at : (crown.align word creationDepth).branches[index]? = some branch) :
    branch.IsBare ∨
      ∃ before, crown.branches[index]? = some before ∧
        (Edit.align word creationDepth).move? index = some index ∧
        branch.record = before.record := by
  have inWord := (List.getElem?_eq_some_iff.mp branch_at).1
  rw [length_align] at inWord
  rcases List.getElem?_zipWith_eq_some.mp branch_at with ⟨before, opening, before_at, -, rfl⟩
  rcases Nat.lt_or_ge index crown.branches.length with old | new
  · right
    rw [List.getElem?_append_left old] at before_at
    exact ⟨before, before_at, if_pos inWord, rfl⟩
  · left
    rw [List.getElem?_append_right new] at before_at
    have bare : before.IsBare := isBare_of_mem_buds (List.mem_of_getElem? before_at)
    exact bare

theorem exists_growOnce_of_grow {species : Species} {environment : Environment} {base : Vec3}
    {draws : Draws} (branch_at :
      (crown.edit (.grow species environment base draws)).branches[index]? = some branch) :
    ∃ before, crown.branches[index]? = some before ∧ ∃ pose drawsThen,
      branch = (before.growOnce species environment pose drawsThen).1.branch := by
  have inCrown := (List.getElem?_eq_some_iff.mp branch_at).1
  simp only [edit, Pass.length_branches_run] at inCrown
  have before_at := List.getElem?_eq_getElem inCrown
  simp only [edit, Pass.run, Drawing.bind_apply, Drawing.pure_apply, Pass.ofVisits,
    List.getElem?_map, Option.map_eq_some_iff] at branch_at
  rcases branch_at with ⟨visit, visit_at, rfl⟩
  rcases Visit.growOnce_of_along species environment _ _ draws index before_at visit_at with
    ⟨drawsThen, growth⟩
  exact ⟨_, before_at, visit.stack.top, drawsThen, congrArg BranchGrowth.branch growth⟩

/-- A pass of the edits has found a branch without nodes, with the given text.  Later edits
have moved it to the index, with all that it has got in the pass. -/
def GrewFrom (crown : Crown) (edits : List Edit) (species : Species) (text : Word)
    (index : Nat) (branch : Branch) : Prop :=
  ∃ earlier environment base draws later origin bud grown,
    edits = earlier ++ .grow species environment base draws :: later ∧
      (crown.editAll earlier).branches[origin]? = some bud ∧
      bud.isGrown = false ∧ bud.label = text ∧
      ((crown.editAll earlier).edit (.grow species environment base draws)).branches[origin]? =
        some grown ∧
      Edit.moveAll? later origin = some index ∧ branch.record = grown.record

/-- What is known of a branch at an index of the crown that edits have made. -/
inductive Traced (edits : List Edit) (index : Nat) (branch : Branch) : Prop where
  | bare (empty : branch.IsBare)
  | grown (species : Species) (text : Word)
      (grew : Crown.empty.GrewFrom edits species text index branch)
      (measured : branch.record.IsMeasured species text)

theorem Traced.concat {edits : List Edit} {edit : Edit} {origin : Nat} {before : Branch}
    (traced : Traced edits origin before) (moved : edit.move? origin = some index)
    (same : branch.record = before.record) : Traced (edits ++ [edit]) index branch := by
  cases traced with
  | bare empty =>
      have nodes : branch.nodes = before.nodes := congrArg Record.nodes same
      have leaves : branch.leaves = before.leaves := congrArg Record.leaves same
      exact .bare ⟨nodes.trans empty.1, leaves.trans empty.2⟩
  | grown species text grew measured =>
      rcases grew with ⟨earlier, environment, base, draws, later, first, bud, grown, edits_eq,
        bud_at, ungrown, label, grown_at, followed, kept⟩
      refine .grown species text ⟨earlier, environment, base, draws, later ++ [edit], first, bud,
        grown, ?_, bud_at, ungrown, label, grown_at, ?_, same.trans kept⟩ (same ▸ measured)
      · rw [edits_eq, List.append_assoc, List.cons_append]
      · exact Edit.moveAll?_concat followed moved

/-- A pass gives geometry to a branch that has none, and leaves any other one alone. -/
theorem Traced.concat_grow {edits : List Edit} {species : Species} {environment : Environment}
    {base : Vec3} {draws : Draws}
    (traced : ∀ {before}, (empty.editAll edits).branches[index]? = some before →
      Traced edits index before)
    (branch_at : ((empty.editAll edits).edit
      (.grow species environment base draws)).branches[index]? = some branch) :
    Traced (edits ++ [.grow species environment base draws]) index branch := by
  rcases exists_growOnce_of_grow branch_at with ⟨before, before_at, pose, drawsThen, growth⟩
  cases grown : before.isGrown with
  | true =>
      rw [Branch.growOnce_of_isGrown _ _ _ _ _ grown] at growth
      exact (traced before_at).concat rfl (congrArg Branch.record growth)
  | false =>
      have bare : before.IsBare := by
        cases traced before_at with
        | bare empty => exact empty
        | grown _ _ _ measured =>
            -- A branch that has been measured has at least one node.
            have nodes : before.nodes = [] := by
              simpa [Branch.isGrown] using grown
            have count := measured.length_nodes
            simp [Branch.record, nodes] at count
            omega
      have measured := Branch.isMeasured_growOnce species bare environment pose drawsThen
      rw [← growth] at measured
      exact .grown species before.label ⟨edits, environment, base, draws, [], index, before,
        branch, rfl, before_at, grown, rfl, branch_at, rfl, rfl⟩ measured

/-- Every branch of a crown that edits have made can be followed back to the pass in which it
has grown, if it has. -/
theorem traced_editAll (edits : List Edit) :
    {index : Nat} → {branch : Branch} →
      (empty.editAll edits).branches[index]? = some branch → Traced edits index branch := by
  induction edits using List.reverseRecOn with
  | nil =>
      intro index branch branch_at
      simp [empty] at branch_at
  | append_singleton edits edit ih =>
      intro index branch branch_at
      rw [editAll_append] at branch_at
      cases edit with
      | insert count position creationDepth =>
          rcases exists_origin_of_insert branch_at with bare | ⟨origin, before_at, moved⟩
          · exact .bare bare
          · exact (ih before_at).concat moved rfl
      | align word creationDepth =>
          rcases exists_origin_of_align branch_at with bare | ⟨before, before_at, moved, same⟩
          · exact .bare bare
          · exact (ih before_at).concat moved same
      | grow species environment base draws => exact Traced.concat_grow ih branch_at

end Crown

namespace Plant

/-! ## The passes of a run -/

theorem species_act (plant : Plant) (action : Action) (draws : Draws) :
    (plant.act action draws).1.plant.species = plant.species := by
  have invariant : Invariant fun later => later.species = plant.species :=
    { grow := fun _ _ same => same
      advance := fun advances same => by
        rw [(advance?_eq_some_iff.mp advances).2]
        exact same }
  exact invariant.act action draws rfl

variable {grown : Species} {environment : Environment} {base : Vec3} {draws drawsThen : Draws}

theorem grow_not_mem_advanceEdits (plant : Plant) :
    Crown.Edit.grow grown environment base drawsThen ∉ plant.advanceEdits draws := by
  unfold advanceEdits
  split <;> simp [adoptEdits]

theorem species_of_grow_mem_actEdits {plant : Plant} {action : Action}
    (member : .grow grown environment base drawsThen ∈ plant.actEdits action draws) :
    grown = plant.species := by
  cases action with
  | advance => exact absurd member (grow_not_mem_advanceEdits plant)
  | grow there => exact (Crown.Edit.grow.inj (List.mem_singleton.mp member)).1
  | update there =>
      rcases List.mem_cons.mp member with first | renewal
      · exact (Crown.Edit.grow.inj first).1
      · simp only [renewEdits] at renewal
        split at renewal
        next => exact absurd renewal List.not_mem_nil
        next next advances =>
          rcases List.mem_append.mp renewal with derived | last
          · exact absurd derived (grow_not_mem_advanceEdits _)
          · have species := (Crown.Edit.grow.inj (List.mem_singleton.mp last)).1
            rw [species, (advance?_eq_some_iff.mp advances).2]
            rfl

/-- All passes of a run grow branches of the same species. -/
theorem species_of_grow_mem_runEdits (actions : List Action) :
    {plant : Plant} → {draws : Draws} →
      .grow grown environment base drawsThen ∈ plant.runEdits actions draws →
      grown = plant.species := by
  induction actions with
  | nil =>
      intro plant draws member
      exact absurd member List.not_mem_nil
  | cons action rest ih =>
      intro plant draws member
      rcases List.mem_append.mp member with now | later
      · exact species_of_grow_mem_actEdits now
      · exact (ih later).trans (species_act plant action draws)

/-- Whatever is done with a plant, a branch has no geometry at all or everything that the
text grows with which one of the passes has found it. -/
theorem measured_run (species : Species) (point : Vec3) (actions : List Action)
    (draws : Draws) :
    let plant := ((sow species point).run actions draws).1.plant
    let edits := history species point actions draws
    let points := max species.controlPoints 1
    ∀ (index : Nat) (branch : Branch), plant.crown.branches[index]? = some branch →
      (branch.isGrown = false ∧ branch.nodes = [] ∧ branch.leaves = []) ∨
        ∃ text, Crown.empty.GrewFrom edits species text index branch ∧
          branch.nodes.length = 1 + text.count 'F' * (points - 1) ∧
          branch.leaves.length =
            if species.firstLeafyDepth ≤ branch.creationDepth then
              (branch.nodes.length - 1) * (species.leavesPerBranch / points)
            else 0 := by
  intro plant edits points index branch branch_at
  rw [crown_eq_editAll_history] at branch_at
  cases Crown.traced_editAll edits branch_at with
  | bare empty => exact .inl ⟨by simp [Branch.isGrown, empty.1], empty⟩
  | grown passSpecies text grew measured =>
      have same : passSpecies = species := by
        rcases grew with ⟨earlier, environment, base, drawsThen, later, -, -, -, edits_eq, -⟩
        have made : .grow passSpecies environment base drawsThen ∈ edits := by
          simp [edits_eq]
        rcases List.mem_cons.mp made with sown | later
        · exact absurd sown (by simp)
        · exact species_of_grow_mem_runEdits actions later
      subst same
      exact .inr ⟨text, grew, measured.length_nodes,
        measured.length_leaves.trans (Species.mul_leavesAt _ _ _)⟩

/-- A branch that grew from a text with two `F` keeps its size where no `F` is left. -/
theorem measured_of_rewritten :
    let species := { Species.plain with
      initiator := "[FF]".toList, productions := [.certain "F".toList "G".toList]
      controlPoints := 3, leavesPerBranch := 7, firstLeafyDepth := 0 }
    let draws := Draws.start fun _ => 0
    let plant := ((sow species ⟨0, 0, 0⟩).run [.update .noon] draws).1.plant
    let edits := history species ⟨0, 0, 0⟩ [.update .noon] draws
    plant.word = "[GG]".toList ∧ ∃ branch, plant.crown.branches = [branch] ∧
      branch.nodes.length = 5 ∧ branch.leaves.length = 8 ∧
        ∃ text, Crown.empty.GrewFrom edits species text 0 branch ∧ text.count 'F' = 2 := by
  intro species draws plant edits
  have sizes : plant.crown.branches.map (fun branch =>
      (branch.nodes.length, branch.leaves.length)) = [(5, 8)] := by decide +kernel
  rcases List.map_eq_singleton_iff.mp sizes with ⟨branch, alone, size⟩
  rcases Prod.mk.inj size with ⟨nodes, leaves⟩
  refine ⟨by decide +kernel, branch, alone, nodes, leaves, ?_⟩
  rcases measured_run species ⟨0, 0, 0⟩ [.update .noon] draws 0 branch (by rw [alone]; rfl) with
    ⟨-, empty, -⟩ | ⟨text, grew, count, -⟩
  · simp [empty] at nodes
  · refine ⟨text, grew, ?_⟩
    have counted : 5 = 1 + text.count 'F' * 2 := nodes.symm.trans count
    omega

end Plant

end Arbor
