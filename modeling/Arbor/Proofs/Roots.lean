import Arbor.Proofs.Ancestry
import Arbor.Proofs.Enclosure

/-!
# One root or several

A word that is put in brackets begins with a branch, but not all of the word need be upon this
branch.  A bracket that is opened after the first one has been closed begins another tree,
whether the word had brackets of its own to begin with or only a closing one too many.  Which
words are a single tree can be told by counting brackets.
-/

namespace Arbor

namespace Word

/-- The brackets of the word are opened within `count` brackets around it: where these and its
own have all been closed, none follows. -/
def OpensWithin (count : Nat) (word : Word) : Prop :=
  ∀ front back, word = front ++ back → count + front.count '[' ≤ front.count ']' → '[' ∉ back

variable {count : Nat} {symbol : Symbol} {rest word : Word}

theorem opensWithin_nil (count : Nat) : OpensWithin count [] := by
  intro front back split _
  rw [(List.nil_eq_append_iff.mp split).2]
  exact List.not_mem_nil

theorem opensWithin_zero : OpensWithin 0 word ↔ '[' ∉ word := by
  constructor
  · intro within
    exact within [] word rfl (Nat.le_refl _)
  · rintro absent front back rfl _ later
    exact absent (List.mem_append_right front later)

/-- Only without any brackets around the word can all be closed before its first symbol. -/
theorem opensWithin_cons :
    OpensWithin count (symbol :: rest) ↔
      (count = 0 → '[' ∉ symbol :: rest) ∧
        ∀ front back, rest = front ++ back →
          count + (symbol :: front).count '[' ≤ (symbol :: front).count ']' → '[' ∉ back := by
  constructor
  · intro within
    refine ⟨?_, ?_⟩
    · rintro rfl
      exact opensWithin_zero.mp within
    · rintro front back rfl closed
      exact within (symbol :: front) back rfl closed
  · rintro ⟨atOnce, later⟩ front back split closed
    cases front with
    | nil =>
        rw [List.nil_append] at split
        rw [← split]
        exact atOnce (Nat.eq_zero_of_le_zero closed)
    | cons first front =>
        obtain ⟨rfl, others⟩ := List.cons.inj split
        exact later front back others closed

theorem opensWithin_opening :
    OpensWithin count ('[' :: rest) ↔ 0 < count ∧ OpensWithin (count + 1) rest := by
  rw [opensWithin_cons, OpensWithin]
  simp [Nat.pos_iff_ne_zero, Nat.add_assoc, Nat.add_comm 1]

theorem opensWithin_closing : OpensWithin count (']' :: rest) ↔ OpensWithin (count - 1) rest := by
  cases count with
  | zero => simp [opensWithin_zero]
  | succ count =>
      rw [opensWithin_cons, OpensWithin]
      simp [Nat.add_right_comm]

theorem opensWithin_plain (plain : isBracket symbol = false) :
    OpensWithin count (symbol :: rest) ↔ OpensWithin count rest := by
  have neither : symbol ≠ '[' ∧ symbol ≠ ']' := by simpa [isBracket] using plain
  rw [opensWithin_cons]
  simp only [List.count_cons_of_ne neither.1, List.count_cons_of_ne neither.2]
  apply and_iff_right_of_imp
  rintro within rfl
  simpa [neither.1.symm] using opensWithin_zero.mp within

/-- Nothing is opened by a closing bracket at the end. -/
theorem opensWithin_concat_closing :
    OpensWithin count (word ++ [']']) ↔ OpensWithin count word := by
  constructor
  · rintro within front back rfl closed opened
    exact within front (back ++ [']']) (List.append_assoc ..) closed
      (List.mem_append_left _ opened)
  · intro within front back split closed
    rcases List.eq_nil_or_concat back with rfl | ⟨inner, last, rfl⟩
    · exact List.not_mem_nil
    · rw [List.concat_eq_append, ← List.append_assoc] at split
      obtain ⟨rfl, same⟩ := List.append_inj' split rfl
      rw [List.concat_eq_append, ← same, List.mem_append, not_or]
      exact ⟨within front inner rfl closed, by decide⟩

theorem ClosesAtMost.opensWithin (bounded : ClosesAtMost count word) :
    OpensWithin (count + 1) word := by
  intro front back split closed
  have bound := bounded front ⟨back, split.symm⟩
  omega

/-- The brackets of a word all have parents if they are opened within those that are on the
stack before. -/
theorem parent_ne_none_iff_opensWithin (word : Word) :
    (unclosed : List Nat) → (ordinal : Nat) →
      ((∀ opening ∈ outlineFrom unclosed ordinal word, opening.parent ≠ none) ↔
        OpensWithin unclosed.length word) := by
  induction word with
  | nil =>
      intro unclosed ordinal
      simp [outlineFrom, opensWithin_nil]
  | cons symbol rest ih =>
      intro unclosed ordinal
      by_cases opening : symbol = '['
      · subst opening
        rw [outlineFrom, if_pos rfl, List.forall_mem_cons, ih, opensWithin_opening]
        simp [List.length_pos_iff]
      · rw [outlineFrom, if_neg opening]
        by_cases closing : symbol = ']'
        · subst closing
          rw [if_pos rfl, ih, opensWithin_closing, List.length_tail]
        · have plain : isBracket symbol = false := by simp [isBracket, opening, closing]
          rw [if_neg closing, ih, opensWithin_plain plain]

theorem exists_enclosed_eq_cons (word : Word) : ∃ inner, word.enclosed = '[' :: inner :=
  List.head?_eq_some_iff.mp word.head?_enclosed

end Word

namespace Crown

/-- The first branch is a root, and there is no other. -/
def HasSoleRoot (crown : Crown) : Prop :=
  ∀ index, crown.IsRoot index ↔ index = 0

variable {crown : Crown}

/-- Roots can be seen from the outline of the word. -/
theorem isRoot_align_iff (crown : Crown) (word : Word) (creationDepth index : Nat) :
    (crown.align word creationDepth).IsRoot index ↔
      ∃ opening, word.outline[index]? = some opening ∧ opening.parent = none := by
  rw [← map_opening_align crown word creationDepth]
  simp only [List.getElem?_map, Option.map_eq_some_iff]
  constructor
  · rintro ⟨branch, branch_at, isRoot⟩
    exact ⟨branch.opening, ⟨branch, branch_at, rfl⟩, isRoot⟩
  · rintro ⟨_, ⟨branch, branch_at, rfl⟩, isRoot⟩
    exact ⟨branch, branch_at, isRoot⟩

theorem hasSoleRoot_align_iff (crown : Crown) (inner : Word) (creationDepth : Nat) :
    (crown.align ('[' :: inner) creationDepth).HasSoleRoot ↔ inner.OpensWithin 1 := by
  have others := Word.parent_ne_none_iff_opensWithin inner [0] 1
  rw [List.length_singleton] at others
  rw [← others]
  simp only [HasSoleRoot, isRoot_align_iff, Word.outline, Word.outlineFrom, if_true]
  constructor
  · intro sole opening member isRoot
    obtain ⟨index, opening_at⟩ := List.getElem?_of_mem member
    exact absurd ((sole (index + 1)).mp ⟨opening, opening_at, isRoot⟩) (Nat.succ_ne_zero index)
  · intro hang index
    cases index with
    | zero => simp
    | succ index =>
        simp only [List.getElem?_cons_succ, Nat.succ_ne_zero, iff_false]
        rintro ⟨opening, opening_at, isRoot⟩
        exact hang opening (List.mem_of_getElem? opening_at) isRoot

theorem IsBelow.not_isRoot {index outer : Nat} (below : crown.IsBelow index outer) :
    ¬ crown.IsRoot index := by
  rintro ⟨branch, branch_at, isRoot⟩
  obtain ⟨parent, ⟨same, same_at, hangsOn⟩, -⟩ := Relation.TransGen.head'_iff.mp below
  obtain rfl := Option.some.inj (branch_at.symm.trans same_at)
  rw [isRoot] at hangsOn
  cases hangsOn

/-- From a branch that is not the only root, parents lead to that root. -/
theorem HasSoleRoot.isBelow (sole : crown.HasSoleRoot) {word : Word}
    (depicts : crown.Depicts word) (count : crown.branches.length = word.branchCount)
    (index : Nat) : 0 < index → index < crown.branches.length → crown.IsBelow index 0 := by
  -- The induction goes from a branch to its parent, which stands before it.
  induction index using Nat.strong_induction_on with
  | _ index ih =>
      intro later inRange
      have branch_at := List.getElem?_eq_getElem inRange
      cases parent_eq : crown.branches[index].parent with
      | none => exact absurd ((sole index).mp ⟨_, branch_at, parent_eq⟩) later.ne'
      | some parent =>
          have before := ((depicts.hangsAt count branch_at).exists_parent parent parent_eq).1
          have onParent : ∃ branch, crown.branches[index]? = some branch ∧
              branch.parent = some parent := ⟨_, branch_at, parent_eq⟩
          cases Nat.eq_zero_or_pos parent with
          | inl first => exact .single (first ▸ onParent)
          | inr other => exact .head onParent (ih parent before other (before.trans inRange))

theorem hasSoleRoot_iff_isBelow (isRoot : crown.IsRoot 0) {word : Word}
    (depicts : crown.Depicts word) (count : crown.branches.length = word.branchCount) :
    crown.HasSoleRoot ↔
      ∀ index, 0 < index → index < crown.branches.length → crown.IsBelow index 0 := by
  constructor
  · intro sole
    exact sole.isBelow depicts count
  · intro below index
    constructor
    · intro alsoRoot
      by_contra later
      have inRange : index < crown.branches.length := by
        obtain ⟨branch, branch_at, -⟩ := alsoRoot
        exact (List.getElem?_eq_some_iff.mp branch_at).1
      exact (below index (Nat.pos_of_ne_zero later) inRange).not_isRoot alsoRoot
    · rintro rfl
      exact isRoot

/-- A word in brackets always begins with a root, and the roots are the branches of nesting
zero.  There is no other root, and so all else grows from the first, exactly if no bracket
follows where all those before have been closed.  That is so if the word is balanced and has
been put in brackets, but a word that begins with a bracket is left as it is. -/
theorem hasSoleRoot_ofWord_iff (word : Word) (creationDepth : Nat) :
    let crown := ofWord word.enclosed creationDepth
    crown.IsRoot 0 ∧
      (∀ branch ∈ crown.branches, branch.parent = none ↔ branch.nesting = 0) ∧
      (crown.HasSoleRoot ↔ Word.OpensWithin 1 word.enclosed.tail) ∧
      (crown.HasSoleRoot ↔
        ∀ index, 0 < index → index < crown.branches.length → crown.IsBelow index 0) ∧
      (word.IsBalanced → word.head? ≠ some '[' → crown.HasSoleRoot) := by
  intro crown
  obtain ⟨inner, enclosed⟩ := word.exists_enclosed_eq_cons
  have isRoot : crown.IsRoot 0 := by
    apply (isRoot_align_iff empty word.enclosed creationDepth 0).mpr
    rw [enclosed]
    exact ⟨_, rfl, rfl⟩
  have depicts : crown.Depicts word.enclosed := depicts_align empty _ creationDepth
  have count : crown.branches.length = word.enclosed.branchCount := length_align ..
  have sole_iff : crown.HasSoleRoot ↔ Word.OpensWithin 1 word.enclosed.tail := by
    have soleRoot := hasSoleRoot_align_iff empty inner creationDepth
    rw [← enclosed] at soleRoot
    rw [enclosed, List.tail_cons]
    exact soleRoot
  refine ⟨isRoot, ?_, sole_iff, hasSoleRoot_iff_isBelow isRoot depicts count, ?_⟩
  · intro branch member
    obtain ⟨index, branch_at⟩ := List.getElem?_of_mem member
    have within := (depicts.hangsAt count branch_at).isSome_parent_iff
    rw [← Option.not_isSome_iff_eq_none, within, Nat.pos_iff_ne_zero, not_not]
  · intro balanced unbracketed
    have bounded := (Word.isBalanced_iff_closesAtMost.mp balanced).1
    rw [sole_iff, Word.enclosed, if_neg unbracketed, List.cons_append, List.tail_cons,
      Word.opensWithin_concat_closing]
    exact bounded.opensWithin

/-- Where a word of several trees is put in brackets, they grow from the new one. -/
theorem hasSoleRoot_of_trees_after_text :
    let word : Word := "F[A][B[C]]".toList
    word.IsBalanced ∧ word.head? ≠ some '[' ∧ (ofWord word.enclosed 0).HasSoleRoot := by
  intro word
  have balanced : word.IsBalanced := by decide
  have unbracketed : word.head? ≠ some '[' := by decide
  exact ⟨balanced, unbracketed,
    (hasSoleRoot_ofWord_iff word 0).2.2.2.2 balanced unbracketed⟩

/-- Two trees stay two, and so do those that the brackets around a word make of it. -/
theorem not_hasSoleRoot_of_two_trees :
    let crown := ofWord (Word.enclosed "[A][B]".toList) 0
    Word.enclosed "A][B".toList = Word.enclosed "[A][B]".toList ∧
      crown.IsRoot 0 ∧ crown.IsRoot 1 ∧ ¬ crown.HasSoleRoot := by
  intro crown
  have second : crown.IsRoot 1 := ⟨_, rfl, rfl⟩
  refine ⟨by decide, ⟨_, rfl, rfl⟩, second, ?_⟩
  intro sole
  exact absurd ((sole 1).mp second) (by decide)

end Crown

end Arbor
