import Arbor.Proofs.Growth
import Arbor.Proofs.Lineage

/-!
# The stack of a growth pass

A pass never looks up the parent of a branch.  It keeps a stack of poses and cuts it
down to the nesting of the next branch.  What makes this right is that the stack, above
its base, lists the poses that the branches around the current one hand on, from the
outermost to the innermost.
-/

namespace Arbor

namespace Visit

/-- The pose that the branch hands on after its visit. -/
def exit (visit : Visit) : Pose :=
  visit.branch.exit visit.stack.top

variable (species : Species) (environment : Environment)

/-- Where the brackets below are as they were, so are their exits on the stack. -/
theorem take_others_tail {others : List Pose} {enclosing : List Visit}
    (stack_eq : others.take enclosing.length = enclosing.reverse.map exit) :
    others.take enclosing.tail.length = enclosing.tail.reverse.map exit := by
  cases enclosing with
  | nil => rfl
  | cons visit enclosing =>
      have shorter := congrArg (List.take enclosing.length) stack_eq
      rw [List.take_take, List.length_cons, Nat.min_eq_left (Nat.le_succ _),
        List.reverse_cons, List.map_append, List.take_left' (by simp)] at shorter
      exact shorter

/-- The stack of every visit holds the exits of the visits to the branches around. -/
theorem stack_of_lineage (marking : Marking Visit) :
    (enclosing : List Visit) → (stack : PoseStack) → (branches : List Branch) →
      (draws : Draws) →
      marking.owners = (along species environment stack branches draws).1 →
      branches.map Branch.nesting =
        (marking.lineage enclosing).map (fun entry => entry.2.length) →
      stack.others.take enclosing.length = enclosing.reverse.map exit →
      ∀ entry ∈ marking.lineage enclosing,
        entry.1.stack = ⟨stack.base, entry.2.reverse.map exit⟩ := by
  induction marking with
  | nil =>
      intro enclosing stack branches draws visits_eq nesting_eq stack_eq entry member
      simp [Marking.lineage] at member
  | cons mark rest ih =>
      intro enclosing stack branches draws visits_eq nesting_eq stack_eq
      cases mark with
      | plain symbol notOpening =>
          apply ih _ stack branches draws visits_eq nesting_eq
          split
          · exact take_others_tail stack_eq
          · exact stack_eq
      | opening visit =>
          cases branches with
          | nil => simp at visits_eq
          | cons branch branches =>
              simp only [Marking.lineage, List.map_cons, List.cons.injEq] at nesting_eq
              rcases nesting_eq with ⟨nesting, restNesting⟩
              have unwound : stack.unwind branch.nesting =
                  ⟨stack.base, enclosing.reverse.map exit⟩ := by
                rw [PoseStack.unwind, nesting, stack_eq]
              rw [Marking.owners_opening, along_cons] at visits_eq
              rcases List.cons.inj visits_eq with ⟨rfl, later⟩
              intro entry member
              rcases List.mem_cons.mp member with rfl | member
              · exact unwound
              · apply ih _ _ branches _ later restNesting _ entry member
                simp [PoseStack.push, unwound, exit]

variable {species environment} {base : Vec3} {branches : List Branch} {word : Word}
  {draws : Draws}

/-- In a crown that stands for a word, every branch starts from a stack of as many
poses as brackets are around it, and the topmost is what its parent hands on. -/
theorem stack_of_aligned (aligned : branches.map Branch.opening = word.outline)
    {visits : List Visit}
    (visits_eq : visits =
      (along species environment (PoseStack.single ⟨base, Vec3.up⟩) branches draws).1)
    {index : Nat} {visit : Visit} {branch : Branch}
    (visit_at : visits[index]? = some visit) (branch_at : branches[index]? = some branch) :
    visit.stack.size = branch.nesting + 1 ∧
      match branch.parent with
      | none => visit.stack.top = ⟨base, Vec3.up⟩
      | some parent => ∃ around, parent < index ∧ visits[parent]? = some around ∧
          visit.stack.top = around.exit := by
  let marking := Marking.number (fun ordinal => visits.getD ordinal default) 0 word
  have word_eq : marking.word = word := Marking.word_number _ _ _
  have owners_eq : marking.owners = visits := by
    apply Marking.owners_number_getD
    rw [visits_eq, length_along, ← Word.length_outline, ← aligned, List.length_map]
  have nesting_eq : branches.map Branch.nesting =
      (marking.lineage []).map fun entry => entry.2.length := by
    have columns := congrArg (List.map Prod.fst)
      (Marking.map_outlineFrom marking.owners marking [] [] 0 rfl List.drop_zero.symm)
    rw [List.map_map, List.map_map, word_eq] at columns
    have openings := congrArg (List.map Opening.nesting) aligned
    rw [List.map_map] at openings
    exact openings.trans columns
  have listed := stack_of_lineage species environment marking [] (PoseStack.single _) branches
    draws (owners_eq.trans visits_eq) nesting_eq rfl
  rcases Marking.exists_lineage (owners_eq ▸ visit_at) with ⟨around, entry⟩
  rcases Marking.outline_of_lineage entry with
    ⟨opening, opening_at, opening_nesting, opening_parent⟩
  have opening_eq : opening = branch.opening := by
    rw [word_eq, ← aligned, List.getElem?_map, branch_at] at opening_at
    exact (Option.some.inj opening_at).symm
  subst opening_eq
  have stack_eq : visit.stack = ⟨⟨base, Vec3.up⟩, around.reverse.map exit⟩ :=
    listed _ (List.mem_of_getElem? entry)
  constructor
  · rw [stack_eq, PoseStack.size, List.length_map, List.length_reverse, ← opening_nesting]
    rfl
  · cases parent_eq : branch.parent with
    | none =>
        cases around with
        | nil => simp [stack_eq, PoseStack.top]
        | cons innermost outer => simp [Branch.opening, parent_eq] at opening_parent
    | some parent =>
        cases around with
        | nil => simp [Branch.opening, parent_eq] at opening_parent
        | cons innermost outer =>
            refine ⟨innermost, Word.parent_lt_of_outline opening_at parent_eq, ?_, ?_⟩
            · simpa [Branch.opening, parent_eq, owners_eq] using opening_parent
            · simp [stack_eq, PoseStack.top]

/-- After its visit a branch hands on its last node, and the direction from its first
node to its last unless that is zero. -/
theorem exit_of_along {stack : PoseStack} {visit : Visit}
    (member : visit ∈ (along species environment stack branches draws).1) :
    ∃ first last, visit.branch.base? = some first ∧ visit.branch.tip? = some last ∧
      visit.exit =
        ⟨last, if (last - first).isZero then visit.stack.top.heading else last - first⟩ := by
  have grown := isGrown_of_along species environment member
  rcases visit.branch.isGrown_iff_base?.mp grown with ⟨first, base_eq⟩
  rcases visit.branch.isGrown_iff_tip?.mp grown with ⟨last, tip_eq⟩
  refine ⟨first, last, base_eq, tip_eq, ?_⟩
  rw [exit, Branch.exit, Branch.span?, base_eq, tip_eq]
  cases zero : (last - first).isZero with
  | true => simp [Option.filter, zero]
  | false => simp [Option.filter, zero]

end Visit

/-- In a pass over branches that stand for a word, whatever has grown before, every
branch starts from a stack of one pose more than there are brackets around it.  The
topmost pose is the base, heading upward, where there is no parent.  Otherwise it is the
last node of the parent, heading from its first node to its last unless these coincide,
and then heading as the parent itself was told to. -/
theorem Pass.start_eq_end_of_parent (species : Species) (environment : Environment)
    (base : Vec3) (crown : Crown) (word : Word) (creationDepth : Nat)
    (geometry : Nat → List Vec3 × List Leaf) (draws : Draws) :
    let branches := (crown.align word creationDepth).branches.mapIdx fun index branch =>
      { branch with nodes := (geometry index).1, leaves := (geometry index).2 }
    let visits :=
      (Visit.along species environment (PoseStack.single ⟨base, Vec3.up⟩) branches draws).1
    (Pass.run species environment base branches draws).1 = Pass.ofVisits visits ∧
      ∀ index : Fin branches.length, ∃ visit, visits[index.val]? = some visit ∧
        (∃ draws, visit.toBranchGrowth =
          (branches[index].growOnce species environment visit.stack.top draws).1) ∧
        visit.stack.size = branches[index].nesting + 1 ∧
        match branches[index].parent with
        | none => visit.stack.top = ⟨base, Vec3.up⟩
        | some parent => ∃ around first last,
            parent < index.val ∧ visits[parent]? = some around ∧
            around.branch.base? = some first ∧ around.branch.tip? = some last ∧
            visit.stack.top.position = last ∧
            visit.stack.top.heading =
              if (last - first).isZero then around.stack.top.heading else last - first := by
  intro branches visits
  refine ⟨rfl, ?_⟩
  intro index
  have aligned : branches.map Branch.opening = word.outline := by
    rw [← Crown.map_opening_align crown word creationDepth]
    apply List.ext_getElem
    · simp [branches]
    · intro position _ _
      simp only [branches, List.getElem_map, List.getElem_mapIdx]
      rfl
  have inVisits : index.val < visits.length := by
    simp [visits]
  have visit_at : visits[index.val]? = some visits[index.val] :=
    List.getElem?_eq_getElem inVisits
  have branch_at : branches[index.val]? = some branches[index.val] :=
    List.getElem?_eq_getElem index.isLt
  rcases Visit.stack_of_aligned aligned rfl visit_at branch_at with ⟨size, start⟩
  refine ⟨visits[index.val], visit_at, ?_, size, ?_⟩
  · exact Visit.growOnce_of_along species environment branches _ draws _ branch_at visit_at
  · change match branches[index.val].parent with
      | none => _
      | some parent => _
    cases parent_eq : branches[index.val].parent with
    | none => simpa [parent_eq] using start
    | some parent =>
        simp only [parent_eq] at start
        rcases start with ⟨around, parent_lt, around_at, top_eq⟩
        rcases Visit.exit_of_along (List.mem_of_getElem? around_at) with
          ⟨first, last, base_eq, tip_eq, exit_eq⟩
        rw [top_eq, exit_eq]
        exact ⟨around, first, last, parent_lt, around_at, base_eq, tip_eq, rfl, rfl⟩

end Arbor
