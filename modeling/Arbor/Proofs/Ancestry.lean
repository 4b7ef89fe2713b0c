import Arbor.Proofs.Alignment
import Mathlib.Logic.Relation

/-!
# Branches below branches

From every branch, parents lead to a root.  The lineage of a bracket lists the owners of
the brackets that are passed on the way, so a branch lies below another one if the
bracket of that one is around its own.
-/

namespace Arbor

namespace Crown

/-- The branch with the index stands within no other bracket. -/
def IsRoot (crown : Crown) (index : Nat) : Prop :=
  ∃ branch, crown.branches[index]? = some branch ∧ branch.parent = none

/-- From the first branch, parents lead to the second one. -/
def IsBelow (crown : Crown) : Nat → Nat → Prop :=
  Relation.TransGen fun child parent =>
    ∃ branch, crown.branches[child]? = some branch ∧ branch.parent = some parent

end Crown

/-! ## Lineages lead along parents -/

namespace Marking

variable {Owner : Type} {marking : Marking Owner}

/-- Where all owners are different, an owner determines its index. -/
theorem index_eq_of_owner (distinct : marking.owners.Nodup) {owner : Owner}
    {first second : Nat} (first_at : marking.owners[first]? = some owner)
    (second_at : marking.owners[second]? = some owner) : first = second :=
  (List.getElem?_inj (List.getElem?_eq_some_iff.mp first_at).1 distinct).mp
    (first_at.trans second_at.symm)

end Marking

namespace Plant

variable {Owner : Type} {plant : Plant} {marking : Marking Owner}

/-- Parents are branches of the plant. -/
theorem IsAligned.exists_parent (aligned : plant.IsAligned) {branch : Branch}
    (member : branch ∈ plant.crown.branches) {parent : Nat}
    (parent_eq : branch.parent = some parent) :
    ∃ around, plant.crown.branches[parent]? = some around := by
  rcases List.getElem?_of_mem member with ⟨index, branch_at⟩
  have opening_at : plant.word.outline[index]? = some branch.opening := by
    rw [← aligned, List.getElem?_map, branch_at, Option.map_some]
  have before := Word.parent_lt_of_outline opening_at parent_eq
  have inRange := (List.getElem?_eq_some_iff.mp branch_at).1
  exact ⟨_, List.getElem?_eq_getElem (before.trans inRange)⟩

theorem IsAligned.exists_branch (aligned : plant.IsAligned)
    (word_eq : marking.word = plant.word) {index : Nat} {owner : Owner}
    (owner_at : marking.owners[index]? = some owner) :
    ∃ branch, plant.crown.branches[index]? = some branch := by
  have inRange : index < plant.crown.branches.length := by
    rw [aligned.length_branches, ← word_eq, ← Marking.length_owners]
    exact (List.getElem?_eq_some_iff.mp owner_at).1
  exact ⟨_, List.getElem?_eq_getElem inRange⟩

/-- A branch whose bracket is within others has the innermost of them as its parent. -/
theorem IsAligned.parent_of_lineage (aligned : plant.IsAligned)
    (word_eq : marking.word = plant.word) (distinct : marking.owners.Nodup)
    {index : Nat} {owner outer : Owner} {rest : List Owner}
    (entry : (marking.lineage [])[index]? = some (owner, outer :: rest)) {outerIndex : Nat}
    (outer_at : marking.owners[outerIndex]? = some outer) :
    ∃ branch, plant.crown.branches[index]? = some branch ∧
      branch.parent = some outerIndex := by
  rcases aligned.exists_branch word_eq (Marking.owner_of_lineage entry) with
    ⟨branch, branch_at⟩
  have place := (aligned.place_of_lineage word_eq branch_at entry).2
  rw [List.head?_cons, Option.map_some, Option.map_eq_some_iff] at place
  rcases place with ⟨parent, parent_eq, parent_at⟩
  rw [Marking.index_eq_of_owner distinct parent_at outer_at] at parent_eq
  exact ⟨branch, branch_at, parent_eq⟩

/-- A branch lies below those of the brackets around its own. -/
theorem IsAligned.isBelow_of_lineage (aligned : plant.IsAligned)
    (word_eq : marking.word = plant.word) (distinct : marking.owners.Nodup)
    {outer : Owner} {rest : List Owner} {outerIndex : Nat}
    (outer_at : marking.owners[outerIndex]? = some outer) (inner : List Owner) :
    {index : Nat} → {owner : Owner} →
      (marking.lineage [])[index]? = some (owner, inner ++ outer :: rest) →
      plant.crown.IsBelow index outerIndex := by
  induction inner with
  | nil =>
      intro index owner entry
      exact .single (aligned.parent_of_lineage word_eq distinct entry outer_at)
  | cons next inner ih =>
      intro index owner entry
      -- The next bracket has the rest of the lineage.
      have member : (next, inner ++ outer :: rest) ∈ marking.lineage [] :=
        Marking.mem_lineage_of_around [] (List.mem_of_getElem? entry)
      rcases List.getElem?_of_mem member with ⟨nextIndex, next_at⟩
      exact .head (aligned.parent_of_lineage word_eq distinct entry
        (Marking.owner_of_lineage next_at)) (ih next_at)

/-- A branch is a root, or lies below one that belongs to a bracket around its own. -/
theorem IsAligned.exists_root_of_lineage (aligned : plant.IsAligned)
    (word_eq : marking.word = plant.word) (distinct : marking.owners.Nodup)
    {index : Nat} {owner : Owner} {around : List Owner}
    (entry : (marking.lineage [])[index]? = some (owner, around)) :
    ∃ rootOwner ∈ owner :: around, ∃ root, marking.owners[root]? = some rootOwner ∧
      plant.crown.IsRoot root ∧ (index = root ∨ plant.crown.IsBelow index root) := by
  have isRoot : ∀ {index : Nat} {owner : Owner},
      (marking.lineage [])[index]? = some (owner, []) → plant.crown.IsRoot index := by
    intro index owner entry
    rcases aligned.exists_branch word_eq (Marking.owner_of_lineage entry) with
      ⟨branch, branch_at⟩
    have place := (aligned.place_of_lineage word_eq branch_at entry).2
    exact ⟨branch, branch_at, by simpa using place⟩
  rcases List.eq_nil_or_concat' around with rfl | ⟨inner, outermost, rfl⟩
  · exact ⟨owner, List.mem_cons_self, index, Marking.owner_of_lineage entry, isRoot entry,
      Or.inl rfl⟩
  · have member : (outermost, []) ∈ marking.lineage [] :=
      Marking.mem_lineage_of_around inner (List.mem_of_getElem? entry)
    rcases List.getElem?_of_mem member with ⟨root, root_at⟩
    have owner_at := Marking.owner_of_lineage root_at
    exact ⟨outermost, by simp, root, owner_at, isRoot root_at,
      Or.inr (aligned.isBelow_of_lineage word_eq distinct owner_at inner entry)⟩

end Plant

end Arbor
