import Arbor.Crown
import Arbor.Proofs.Marking
import Mathlib.Data.List.Infix

/-!
# The brackets around a bracket

The lineage of a bracket is the list of the owners of the brackets around it.  Its
length is the nesting of the bracket, and its first entry is the owner of the parent,
so statements about indices of parents become statements about owners.  Those survive
a generation: where balanced words come in, the brackets that were around a copied
bracket are still the ones around it.
-/

namespace Arbor

variable {Owner : Type}

namespace Word

private theorem parent_lt_of_outlineFrom {opening : Opening} {parent : Nat}
    (parentEq : opening.parent = some parent) (word : Word) :
    (ordinals : List Nat) → (next index : Nat) →
      (∀ ordinal ∈ ordinals, ordinal < next) →
      (outlineFrom ordinals next word)[index]? = some opening → parent < next + index := by
  induction word with
  | nil =>
      intro ordinals next index before entry
      simp [outlineFrom] at entry
  | cons symbol rest ih =>
      intro ordinals next index before entry
      by_cases opens : symbol = '['
      · simp only [outlineFrom, opens, if_true] at entry
        cases index with
        | zero =>
            simp only [List.getElem?_cons_zero, Option.some.injEq] at entry
            subst entry
            exact before parent (List.mem_of_mem_head? parentEq)
        | succ index =>
            have later : ∀ ordinal ∈ next :: ordinals, ordinal < next + 1 := by
              intro ordinal member
              rcases List.mem_cons.mp member with rfl | member
              · exact Nat.lt_succ_self _
              · exact Nat.lt_succ_of_lt (before ordinal member)
            have bound := ih _ _ index later (by simpa using entry)
            rwa [Nat.succ_add_eq_add_succ] at bound
      · by_cases closes : symbol = ']'
        · simp only [outlineFrom, closes, if_true] at entry
          apply ih ordinals.tail next index _ entry
          intro ordinal member
          exact before ordinal (List.mem_of_mem_tail member)
        · simp only [outlineFrom, opens, closes, if_false] at entry
          exact ih ordinals next index before entry

/-- The parent of a bracket stands before it. -/
theorem parent_lt_of_outline {word : Word} {index : Nat} {opening : Opening}
    (entry : word.outline[index]? = some opening) {parent : Nat}
    (parentEq : opening.parent = some parent) : parent < index := by
  have bound := parent_lt_of_outlineFrom parentEq word [] 0 index (by simp) entry
  rwa [Nat.zero_add] at bound

end Word

namespace Marking

/-- Every owner with those of the brackets around its own, innermost first, given the
owners of the brackets that are open at the beginning. -/
def lineage (enclosing : List Owner) : Marking Owner → List (Owner × List Owner)
  | [] => []
  | .opening owner :: rest => (owner, enclosing) :: lineage (owner :: enclosing) rest
  | .plain symbol _ :: rest =>
      lineage (if symbol = ']' then enclosing.tail else enclosing) rest

/-- The owners of the brackets that are open at the end. -/
def unclosed (enclosing : List Owner) : Marking Owner → List Owner
  | [] => enclosing
  | .opening owner :: rest => unclosed (owner :: enclosing) rest
  | .plain symbol _ :: rest =>
      unclosed (if symbol = ']' then enclosing.tail else enclosing) rest

theorem lineage_append (left right : Marking Owner) :
    (enclosing : List Owner) →
      lineage enclosing (left ++ right) =
        lineage enclosing left ++ lineage (unclosed enclosing left) right := by
  induction left with
  | nil =>
      intro enclosing
      rfl
  | cons mark rest ih =>
      intro enclosing
      cases mark with
      | opening owner => simp [lineage, unclosed, ih]
      | plain symbol notOpening => simp [lineage, unclosed, ih]

@[simp] theorem map_fst_lineage (marking : Marking Owner) :
    (enclosing : List Owner) → (lineage enclosing marking).map Prod.fst = owners marking := by
  induction marking with
  | nil =>
      intro enclosing
      rfl
  | cons mark rest ih =>
      intro enclosing
      cases mark with
      | opening owner => simp [lineage, ih]
      | plain symbol notOpening => simp [lineage, ih]

theorem unclosed_append (left right : Marking Owner) :
    (enclosing : List Owner) →
      unclosed enclosing (left ++ right) = unclosed (unclosed enclosing left) right := by
  induction left with
  | nil =>
      intro enclosing
      rfl
  | cons mark rest ih =>
      intro enclosing
      cases mark with
      | opening owner => exact ih _
      | plain symbol notOpening => exact ih _

/-! ## Lineages and what is left open -/

/-- The brackets around a bracket are those that the marking before it leaves open. -/
theorem exists_split_of_mem_lineage {owner : Owner} {around : List Owner}
    (marking : Marking Owner) :
    (enclosing : List Owner) → (owner, around) ∈ lineage enclosing marking →
      ∃ left right, marking = left ++ .opening owner :: right ∧
        around = unclosed enclosing left := by
  induction marking with
  | nil =>
      intro enclosing member
      simp [lineage] at member
  | cons mark rest ih =>
      intro enclosing member
      have later : ∀ enclosing, (owner, around) ∈ lineage enclosing rest →
          ∃ left right, mark :: rest = (mark :: left) ++ .opening owner :: right ∧
            around = unclosed enclosing left := by
        intro enclosing inRest
        rcases ih enclosing inRest with ⟨left, right, rfl, around_eq⟩
        exact ⟨left, right, rfl, around_eq⟩
      cases mark with
      | opening first =>
          rcases List.mem_cons.mp member with here | inRest
          · cases here
            exact ⟨[], rest, rfl, rfl⟩
          · rcases later _ inRest with ⟨left, right, split, around_eq⟩
            exact ⟨_, right, split, around_eq⟩
      | plain symbol notOpening =>
          rcases later _ member with ⟨left, right, split, around_eq⟩
          exact ⟨_, right, split, around_eq⟩

/-- A bracket that is left open was open before or has a lineage, which is left open
below it. -/
theorem suffix_or_mem_lineage_of_unclosed {outer : Owner} {rest : List Owner}
    (marking : Marking Owner) :
    (enclosing : List Owner) → unclosed enclosing marking = outer :: rest →
      (outer :: rest) <:+ enclosing ∨ (outer, rest) ∈ lineage enclosing marking := by
  induction marking with
  | nil =>
      intro enclosing left_open
      exact Or.inl (left_open ▸ List.suffix_refl _)
  | cons mark later ih =>
      intro enclosing left_open
      cases mark with
      | opening owner =>
          rcases ih (owner :: enclosing) left_open with before | inLater
          · rcases List.suffix_cons_iff.mp before with here | before
            · cases here
              exact Or.inr List.mem_cons_self
            · exact Or.inl before
          · exact Or.inr (List.mem_cons_of_mem _ inLater)
      | plain symbol notOpening =>
          apply (ih _ left_open).imp_left
          intro before
          split at before
          · exact before.trans (List.tail_suffix _)
          · exact before

/-- Every bracket around a bracket has a lineage: the brackets that are around it
outside. -/
theorem mem_lineage_of_around {marking : Marking Owner} {outer : Owner} {rest : List Owner}
    (inner : List Owner) :
    {owner : Owner} → (owner, inner ++ outer :: rest) ∈ lineage [] marking →
      (outer, rest) ∈ lineage [] marking := by
  have parent : ∀ {owner outer : Owner} {rest : List Owner},
      (owner, outer :: rest) ∈ lineage [] marking → (outer, rest) ∈ lineage [] marking := by
    intro owner outer rest member
    rcases exists_split_of_mem_lineage marking [] member with ⟨left, right, rfl, around_eq⟩
    rw [lineage_append]
    apply List.mem_append_left
    rcases suffix_or_mem_lineage_of_unclosed left [] around_eq.symm with before | inLeft
    · simp at before
    · exact inLeft
  induction inner with
  | nil =>
      intro owner member
      exact parent member
  | cons next inner ih =>
      intro owner member
      exact ih (parent member)

/-- A bracket that is left open was open before or belongs to the marking. -/
theorem mem_of_mem_unclosed {owner : Owner} (marking : Marking Owner) :
    (enclosing : List Owner) → owner ∈ unclosed enclosing marking →
      owner ∈ enclosing ∨ owner ∈ owners marking := by
  induction marking with
  | nil =>
      intro enclosing member
      exact Or.inl member
  | cons mark rest ih =>
      intro enclosing member
      cases mark with
      | opening first =>
          rcases ih _ member with before | inRest
          · rcases List.mem_cons.mp before with rfl | before
            · exact Or.inr List.mem_cons_self
            · exact Or.inl before
          · exact Or.inr (List.mem_cons_of_mem _ inRest)
      | plain symbol notOpening =>
          apply (ih _ member).imp_left
          intro before
          split at before
          · exact List.mem_of_mem_tail before
          · exact before

/-- The brackets that a numbered word leaves open have the numbers of its open
ordinals. -/
theorem unclosed_number (owner : Nat → Owner) (text : Word) :
    (ordinals : List Nat) → (first : Nat) →
      (number owner first text).unclosed (ordinals.map owner) =
        ((number id first text).unclosed ordinals).map owner := by
  induction text with
  | nil =>
      intro ordinals first
      rfl
  | cons symbol rest ih =>
      intro ordinals first
      by_cases opening : symbol = '['
      · simp only [number, opening, dif_pos, unclosed, id_eq]
        exact ih (first :: ordinals) (first + 1)
      · simp only [number, opening, dif_neg, not_false_eq_true, unclosed]
        by_cases closing : symbol = ']'
        · simp only [closing, if_true, ← List.map_tail]
          exact ih ordinals.tail first
        · simp only [closing, if_false]
          exact ih ordinals first

/-! ## Lineages and outlines -/

/-- The outline of a word says in ordinals what the lineage says in owners.  The
brackets that are open have the given ordinals, and all brackets have the owners in
`all`. -/
theorem map_outlineFrom (all : List Owner) (marking : Marking Owner) :
    (enclosing : List Owner) → (ordinals : List Nat) → (next : Nat) →
      ordinals.map (fun ordinal => all[ordinal]?) = enclosing.map some →
      owners marking = all.drop next →
      (Word.outlineFrom ordinals next (word marking)).map
          (fun opening => (opening.nesting, opening.parent.map fun parent => all[parent]?)) =
        (lineage enclosing marking).map
          (fun pair => (pair.2.length, pair.2.head?.map some)) := by
  induction marking with
  | nil =>
      intro enclosing ordinals next open_eq rest_eq
      rfl
  | cons mark rest ih =>
      intro enclosing ordinals next open_eq rest_eq
      have sizes : ordinals.length = enclosing.length := by
        simpa using congrArg List.length open_eq
      cases mark with
      | plain symbol notOpening =>
          rw [owners_plain] at rest_eq
          simp only [word_cons, Mark.symbol, Word.outlineFrom, notOpening, if_false, lineage]
          by_cases closing : symbol = ']'
          · simp only [closing, if_true]
            apply ih _ _ _ _ rest_eq
            rw [List.map_tail, open_eq, List.map_tail]
          · simp only [closing, if_false]
            exact ih enclosing ordinals next open_eq rest_eq
      | opening owner =>
          rw [owners_opening] at rest_eq
          have here : all[next]? = some owner := by
            rw [← List.head?_drop, ← rest_eq, List.head?_cons]
          have later : owners rest = all.drop (next + 1) := by
            rw [← List.tail_drop, ← rest_eq, List.tail_cons]
          have heads : ordinals.head?.map (fun parent => all[parent]?) =
              enclosing.head?.map some := by
            rw [← List.head?_map, open_eq, List.head?_map]
          simp only [word_cons, Mark.symbol, Word.outlineFrom, if_true, lineage, List.map_cons,
            sizes, heads]
          rw [ih (owner :: enclosing) (next :: ordinals) (next + 1) (by simp [here, open_eq])
            later]

/-- What the outline says about an entry of the lineage. -/
theorem outline_of_lineage {marking : Marking Owner} {index : Nat} {owner : Owner}
    {around : List Owner} (entry : (lineage [] marking)[index]? = some (owner, around)) :
    ∃ opening, (word marking).outline[index]? = some opening ∧
      opening.nesting = around.length ∧
      opening.parent.map (fun parent => (owners marking)[parent]?) =
        around.head?.map some := by
  have columns := congrArg (fun column => column[index]?)
    (map_outlineFrom (owners marking) marking [] [] 0 rfl List.drop_zero.symm)
  simp only [List.getElem?_map, entry, Option.map_some, Option.map_eq_some_iff,
    Prod.mk.injEq] at columns
  exact columns

theorem owner_of_lineage {marking : Marking Owner} {index : Nat} {owner : Owner}
    {around : List Owner} (entry : (lineage [] marking)[index]? = some (owner, around)) :
    (owners marking)[index]? = some owner := by
  rw [← map_fst_lineage marking [], List.getElem?_map, entry, Option.map_some]

/-- Every bracket has a lineage. -/
theorem exists_lineage {marking : Marking Owner} {index : Nat} {owner : Owner}
    (entry : (owners marking)[index]? = some owner) :
    ∃ around, (lineage [] marking)[index]? = some (owner, around) := by
  rw [← map_fst_lineage marking [], List.getElem?_map, Option.map_eq_some_iff] at entry
  rcases entry with ⟨⟨found, around⟩, at_index, rfl⟩
  exact ⟨around, at_index⟩

end Marking

/-! ## Balanced words -/

/-- No prefix closes more brackets than it opens, and the word closes all of them. -/
def Word.IsBalanced (word : Word) : Prop :=
  (∀ front ∈ word.inits, front.count ']' ≤ front.count '[') ∧ word.count ']' = word.count '['

instance (word : Word) : Decidable word.IsBalanced :=
  inferInstanceAs (Decidable (_ ∧ _))

/-- The predecessor has no bracket, and the successor is balanced. -/
def Production.IsBalanced (production : Production) : Prop :=
  '[' ∉ production.predecessor ∧ ']' ∉ production.predecessor ∧
    production.successor.IsBalanced

instance (production : Production) : Decidable production.IsBalanced :=
  inferInstanceAs (Decidable (_ ∧ _))

/-- A text without brackets is balanced. -/
theorem Word.isBalanced_of_unbracketed {word : Word} (noOpening : '[' ∉ word)
    (noClosing : ']' ∉ word) : word.IsBalanced := by
  constructor
  · intro front member
    have included := ((List.mem_inits front word).mp member).subset
    have none : front.count ']' = 0 := by
      apply List.count_eq_zero.mpr
      intro closing
      exact noClosing (included closing)
    rw [none]
    exact Nat.zero_le _
  · rw [List.count_eq_zero.mpr noOpening, List.count_eq_zero.mpr noClosing]

namespace Word

/-- No prefix closes more brackets than it opens, apart from `count` of them. -/
def ClosesAtMost (count : Nat) (word : Word) : Prop :=
  ∀ front, front <+: word → front.count ']' ≤ count + front.count '['

theorem isBalanced_iff_closesAtMost {word : Word} :
    word.IsBalanced ↔ word.ClosesAtMost 0 ∧ word.count ']' = word.count '[' := by
  simp only [IsBalanced, ClosesAtMost, List.mem_inits, Nat.zero_add]

theorem closesAtMost_nil (count : Nat) : ClosesAtMost count [] := by
  intro front isPrefix
  rw [List.prefix_nil.mp isPrefix]
  exact Nat.zero_le _

theorem closesAtMost_cons {count : Nat} {symbol : Symbol} {rest : Word} :
    ClosesAtMost count (symbol :: rest) ↔
      ∀ front, front <+: rest →
        (symbol :: front).count ']' ≤ count + (symbol :: front).count '[' := by
  constructor
  · intro bounded front isPrefix
    exact bounded _ (List.cons_prefix_cons.mpr ⟨rfl, isPrefix⟩)
  · intro bounded front isPrefix
    cases front with
    | nil => exact Nat.zero_le _
    | cons first front =>
        rcases List.cons_prefix_cons.mp isPrefix with ⟨rfl, later⟩
        exact bounded front later

@[simp] theorem closesAtMost_opening {count : Nat} {rest : Word} :
    ClosesAtMost count ('[' :: rest) ↔ ClosesAtMost (count + 1) rest := by
  rw [closesAtMost_cons, ClosesAtMost]
  simp [Nat.add_assoc, Nat.add_comm 1]

@[simp] theorem closesAtMost_closing {count : Nat} {rest : Word} :
    ClosesAtMost count (']' :: rest) ↔ 0 < count ∧ ClosesAtMost (count - 1) rest := by
  rw [closesAtMost_cons]
  constructor
  · intro bounded
    have first : 1 ≤ count := by simpa using bounded [] List.nil_prefix
    refine ⟨first, ?_⟩
    intro front isPrefix
    have bound := bounded front isPrefix
    rw [List.count_cons_self, List.count_cons_of_ne (by decide)] at bound
    omega
  · rintro ⟨first, bounded⟩ front isPrefix
    have bound := bounded front isPrefix
    rw [List.count_cons_self, List.count_cons_of_ne (by decide)]
    omega

theorem closesAtMost_plain {count : Nat} {symbol : Symbol} {rest : Word}
    (plain : isBracket symbol = false) :
    ClosesAtMost count (symbol :: rest) ↔ ClosesAtMost count rest := by
  have neither : symbol ≠ '[' ∧ symbol ≠ ']' := by simpa [isBracket] using plain
  rw [closesAtMost_cons, ClosesAtMost]
  simp only [List.count_cons_of_ne neither.1, List.count_cons_of_ne neither.2]

end Word

namespace Marking

/-- A marking that never closes more brackets than `opened` and its own leaves the
owners below those of `opened` alone. -/
theorem unclosed_append_eq (enclosing : List Owner) (marking : Marking Owner) :
    (opened : List Owner) → (word marking).ClosesAtMost opened.length →
      unclosed (opened ++ enclosing) marking = unclosed opened marking ++ enclosing ∧
        (unclosed opened marking).length + (word marking).count ']' =
          opened.length + (word marking).count '[' := by
  induction marking with
  | nil =>
      intro opened bounded
      exact ⟨rfl, rfl⟩
  | cons mark rest ih =>
      intro opened bounded
      rw [word_cons] at bounded ⊢
      cases mark with
      | opening owner =>
          rw [Mark.symbol, Word.closesAtMost_opening] at bounded
          rcases ih (owner :: opened) bounded with ⟨below, count⟩
          refine ⟨below, ?_⟩
          rw [Mark.symbol, List.count_cons_self, List.count_cons_of_ne (by decide)]
          rw [List.length_cons] at count
          exact count.trans (Nat.succ_add_eq_add_succ _ _)
      | plain symbol notOpening =>
          by_cases closing : symbol = ']'
          · subst closing
            rw [Mark.symbol, Word.closesAtMost_closing] at bounded
            cases opened with
            | nil => exact absurd bounded.1 (Nat.lt_irrefl 0)
            | cons owner opened =>
                rcases ih opened bounded.2 with ⟨below, count⟩
                refine ⟨below, ?_⟩
                rw [Mark.symbol, List.count_cons_self, List.count_cons_of_ne (by decide)]
                change (unclosed opened rest).length + _ = _
                rw [List.length_cons]
                omega
          · have plain : Word.isBracket symbol = false := by
              simp [Word.isBracket, notOpening, closing]
            rw [Mark.symbol, Word.closesAtMost_plain plain] at bounded
            rcases ih opened bounded with ⟨below, count⟩
            rw [unclosed, unclosed, if_neg closing, if_neg closing]
            refine ⟨below, ?_⟩
            rw [Mark.symbol, List.count_cons_of_ne notOpening, List.count_cons_of_ne closing]
            exact count

/-- After a balanced word the same brackets are open as before. -/
theorem unclosed_of_isBalanced (enclosing : List Owner) {marking : Marking Owner}
    (balanced : (word marking).IsBalanced) : unclosed enclosing marking = enclosing := by
  rcases Word.isBalanced_iff_closesAtMost.mp balanced with ⟨bounded, total⟩
  rcases unclosed_append_eq enclosing marking [] bounded with ⟨below, count⟩
  rw [List.length_nil, Nat.zero_add, total] at count
  have empty : unclosed [] marking = [] :=
    List.eq_nil_of_length_eq_zero (Nat.add_eq_right.mp count)
  rwa [empty] at below

/-- In a balanced marking only brackets of its own are between a bracket and those that
were open before. -/
theorem exists_opened_of_isBalanced {enclosing : List Owner} {marking : Marking Owner}
    (balanced : (word marking).IsBalanced) {owner : Owner} {around : List Owner}
    (member : (owner, around) ∈ lineage enclosing marking) :
    ∃ opened, around = opened ++ enclosing ∧
      ∀ enclosed ∈ owner :: opened, enclosed ∈ owners marking := by
  rcases exists_split_of_mem_lineage marking enclosing member with ⟨left, right, rfl, rfl⟩
  have bounded : (word left).ClosesAtMost 0 := by
    intro front isPrefix
    apply (Word.isBalanced_iff_closesAtMost.mp balanced).1 front
    rw [word_append]
    exact isPrefix.trans (List.prefix_append _ _)
  refine ⟨unclosed [] left, (unclosed_append_eq enclosing left [] bounded).1, ?_⟩
  intro enclosed inside
  rw [owners_append, owners_opening]
  rcases List.mem_cons.mp inside with rfl | left_open
  · exact List.mem_append_right _ List.mem_cons_self
  · rcases mem_of_mem_unclosed left [] left_open with before | inLeft
    · simp at before
    · exact List.mem_append_left _ inLeft

/-- An entry of the derived lineage was there before, or it comes with a successor: then
around its bracket are brackets of this successor and, outside, those that were open
where the predecessor stood. -/
theorem mem_lineage_derive {productions : List Production} {pieces : List Piece}
    {marking : Marking Owner} (reading : Reading productions marking pieces)
    (balanced : ∀ production ∈ productions, production.IsBalanced)
    (fresh : Nat → Owner) {owner : Owner} {around : List Owner} :
    (allocated : Nat) → (enclosing : List Owner) →
      (owner, around) ∈ lineage enclosing (derive fresh allocated pieces marking) →
      (owner, around) ∈ lineage enclosing marking ∨
        ∃ before production after opened,
          pieces = before ++ .replaced production :: after ∧
          around = opened ++
            unclosed enclosing (marking.take (before.flatMap Piece.source).length) ∧
          ∀ enclosed ∈ owner :: opened, (∃ number, enclosed = fresh number) ∧
            enclosed ∈ ((owners (derive fresh allocated pieces marking)).drop
              (Word.branchCount (before.flatMap Piece.result))).take production.branchCount := by
  induction reading with
  | nil =>
      intro allocated enclosing member
      simp [lineage] at member
  | copied mark _ ih =>
      intro allocated enclosing member
      rw [derive_copied] at member ⊢
      cases mark with
      | opening first =>
          rcases List.mem_cons.mp member with here | inRest
          · exact Or.inl (List.mem_cons.mpr (Or.inl here))
          · apply (ih _ _ inRest).imp (List.mem_cons_of_mem _)
            rintro ⟨before, production, after, opened, rfl, around_eq, siblings⟩
            refine ⟨.copied '[' :: before, production, after, opened, rfl, around_eq, ?_⟩
            intro enclosed inside
            simpa [Piece.result, Word.branchCount_cons] using siblings enclosed inside
      | plain symbol notOpening =>
          apply (ih _ _ member).imp_right
          rintro ⟨before, production, after, opened, rfl, around_eq, siblings⟩
          refine ⟨.copied symbol :: before, production, after, opened, rfl, around_eq, ?_⟩
          intro enclosed inside
          simpa [Piece.result, Word.branchCount_cons, notOpening] using siblings enclosed inside
  | @replaced production before rest pieces listed beforeEq _ ih =>
      intro allocated enclosing member
      have beforeBalanced : (word before).IsBalanced := by
        rw [beforeEq]
        rcases balanced production listed with ⟨noOpening, noClosing, _⟩
        exact Word.isBalanced_of_unbracketed noOpening noClosing
      have successorBalanced :
          (word (number fresh allocated production.successor)).IsBalanced := by
        rw [word_number]
        exact (balanced production listed).2.2
      have counted : production.successor.branchCount =
          (owners (number fresh allocated production.successor)).length := by
        rw [length_owners, word_number]
      rw [derive_replaced _ _ _ _ beforeEq] at member ⊢
      rw [lineage_append, unclosed_of_isBalanced _ successorBalanced] at member
      rw [lineage_append, unclosed_of_isBalanced _ beforeBalanced, owners_append]
      rcases List.mem_append.mp member with inSuccessor | inRest
      · right
        rcases exists_opened_of_isBalanced successorBalanced inSuccessor with
          ⟨opened, around_eq, siblings⟩
        refine ⟨[], production, pieces, opened, rfl, around_eq, ?_⟩
        intro enclosed inside
        have sibling := siblings enclosed inside
        constructor
        · rw [owners_number] at sibling
          rcases List.mem_map.mp sibling with ⟨number, _, equal⟩
          exact ⟨number, equal.symm⟩
        · rw [List.flatMap_nil, Word.branchCount_nil, List.drop_zero, Production.branchCount,
            counted, List.take_left]
          exact sibling
      · apply (ih _ _ inRest).imp (List.mem_append_right _)
        rintro ⟨front, later, after, opened, rfl, around_eq, siblings⟩
        refine ⟨.replaced production :: front, later, after, opened, rfl, ?_, ?_⟩
        · rw [List.flatMap_cons, Piece.source, ← beforeEq, List.length_append, length_word,
            List.take_length_add_append, unclosed_append,
            unclosed_of_isBalanced _ beforeBalanced]
          exact around_eq
        · intro enclosed inside
          rw [List.flatMap_cons, Word.branchCount_append, Piece.result, counted,
            List.drop_length_add_append]
          exact siblings enclosed inside

end Marking

end Arbor
