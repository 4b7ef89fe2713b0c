import Arbor.Proofs.Forest
import Arbor.Proofs.Budding
import Mathlib.Data.List.Induction
import Mathlib.Data.Set.Card
import Mathlib.Order.Lattice.Nat

/-!
# Brackets around brackets

Which brackets are open at the end of a word can be said without a stack, and so can what
an opening bracket says about its branch: it has the text that follows it, as many brackets
around it as are open where it stands, and the last of these as its parent.  Whatever a
crown was before and however malformed the word is, aligning makes of it what the brackets
of the word say.
-/

namespace Arbor

namespace Word

/-- The bracket of an ordinal is open at the end of the word.  A closing bracket closes the
last one of those that are open, so all others stay open. -/
inductive LeavesOpen : Word → Nat → Prop where
  | opened (front : Word) : LeavesOpen (front ++ ['[']) front.branchCount
  | spared {front : Word} {ordinal later : Nat} :
      LeavesOpen front ordinal → LeavesOpen front later → ordinal < later →
      LeavesOpen (front ++ [']']) ordinal
  | passed {front : Word} {symbol : Symbol} {ordinal : Nat} :
      symbol ≠ ']' → LeavesOpen front ordinal → LeavesOpen (front ++ [symbol]) ordinal

/-- The ordinals of the brackets that are open at the end of the word. -/
def leftOpen (word : Word) : Set Nat :=
  {ordinal | LeavesOpen word ordinal}

/-- The same ordinals, innermost first, as they are kept on a stack. -/
def unclosed (word : Word) : List Nat :=
  (Marking.number id 0 word).unclosed []

variable {front : Word} {ordinal : Nat}

/-! ## Open brackets -/

theorem not_leavesOpen_nil : ¬ LeavesOpen [] ordinal := by
  generalize shape : ([] : Word) = word
  intro isOpen
  cases isOpen <;> simp at shape

theorem leavesOpen_concat {symbol : Symbol} :
    LeavesOpen (front ++ [symbol]) ordinal ↔
      (symbol = '[' ∧ ordinal = front.branchCount) ∨
        (LeavesOpen front ordinal ∧
          (symbol = ']' → ∃ later, LeavesOpen front later ∧ ordinal < later)) := by
  constructor
  · generalize shape : front ++ [symbol] = word
    intro isOpen
    cases isOpen with
    | opened before =>
        obtain ⟨rfl, last⟩ := List.append_inj' shape rfl
        cases last
        exact .inl ⟨rfl, rfl⟩
    | spared isOpen laterOpen before =>
        obtain ⟨rfl, last⟩ := List.append_inj' shape rfl
        exact .inr ⟨isOpen, fun _ => ⟨_, laterOpen, before⟩⟩
    | passed notClosing isOpen =>
        obtain ⟨rfl, last⟩ := List.append_inj' shape rfl
        cases last
        exact .inr ⟨isOpen, fun closing => absurd closing notClosing⟩
  · rintro (⟨rfl, rfl⟩ | ⟨isOpen, spared⟩)
    · exact .opened front
    · by_cases closing : symbol = ']'
      · obtain ⟨later, laterOpen, before⟩ := spared closing
        rw [closing]
        exact .spared isOpen laterOpen before
      · exact .passed closing isOpen

theorem LeavesOpen.lt_branchCount (isOpen : LeavesOpen front ordinal) :
    ordinal < front.branchCount := by
  induction isOpen with
  | opened front => simp [branchCount_cons]
  | spared _ _ _ ih _ => simpa [branchCount_cons] using ih
  | passed _ _ ih =>
      rw [branchCount_append]
      exact Nat.lt_add_right _ ih

/-- A bracket that is left open has been open ever since it was opened. -/
theorem LeavesOpen.of_append (more : Word) :
    LeavesOpen (front ++ more) ordinal → ordinal < front.branchCount →
      LeavesOpen front ordinal := by
  induction more using List.reverseRecOn with
  | nil =>
      intro isOpen _
      rwa [List.append_nil] at isOpen
  | append_singleton more symbol ih =>
      intro isOpen early
      rw [← List.append_assoc, leavesOpen_concat] at isOpen
      cases isOpen with
      | inl last =>
          have bound := last.2
          rw [branchCount_append] at bound
          omega
      | inr isOpen => exact ih isOpen.1 early

/-- As long as a bracket is open, so are those that were open when it was opened. -/
theorem LeavesOpen.outer {inner : Nat} (isOpen : LeavesOpen front ordinal)
    (innerOpen : LeavesOpen front inner) (before : ordinal < inner) (more : Word) :
    LeavesOpen (front ++ more) inner → LeavesOpen (front ++ more) ordinal := by
  induction more using List.reverseRecOn with
  | nil =>
      intro _
      rwa [List.append_nil]
  | append_singleton more symbol ih =>
      intro innerStays
      rw [← List.append_assoc, leavesOpen_concat] at innerStays ⊢
      cases innerStays with
      | inl last =>
          have bound := innerOpen.lt_branchCount
          rw [last.2, branchCount_append] at bound
          omega
      | inr stays => exact .inr ⟨ih stays.1, fun _ => ⟨inner, stays.1, before⟩⟩

theorem finite_leftOpen (front : Word) : front.leftOpen.Finite :=
  (Set.finite_Iio front.branchCount).subset fun _ isOpen => isOpen.lt_branchCount

/-- Of the brackets up to a given one, it and those around it can be open. -/
theorem LeavesOpen.mem_insert {more : Word} (isOpen : LeavesOpen (front ++ '[' :: more) ordinal)
    (early : ordinal ≤ front.branchCount) :
    ordinal ∈ insert front.branchCount front.leftOpen := by
  cases Nat.lt_or_eq_of_le early with
  | inl before => exact Set.mem_insert_of_mem _ (isOpen.of_append _ before)
  | inr same => exact .inl same

/-- The last bracket that is open is open together with those around it. -/
theorem leftOpen_of_isGreatest {more : Word}
    (greatest : IsGreatest (front ++ '[' :: more).leftOpen front.branchCount) :
    (front ++ '[' :: more).leftOpen = insert front.branchCount front.leftOpen := by
  apply Set.Subset.antisymm
  · intro ordinal isOpen
    exact isOpen.mem_insert (greatest.2 isOpen)
  · rw [List.append_cons] at greatest ⊢
    rw [Set.insert_subset_iff]
    refine ⟨greatest.1, ?_⟩
    intro ordinal isOpen
    have kept : LeavesOpen (front ++ ['[']) ordinal := .passed (by decide) isOpen
    exact kept.outer (.opened front) isOpen.lt_branchCount more greatest.1

/-! ## Numbers of open brackets -/

theorem ncard_leftOpen_eq_zero (first : front.branchCount = 0) : front.leftOpen.ncard = 0 := by
  have none : front.leftOpen = ∅ := by
    apply Set.eq_empty_of_forall_notMem
    intro ordinal isOpen
    simpa [first] using isOpen.lt_branchCount
  rw [none, Set.ncard_empty]

theorem ncard_leftOpen_pos_iff :
    0 < front.leftOpen.ncard ↔ ∃ last, IsGreatest front.leftOpen last := by
  rw [Set.ncard_pos front.finite_leftOpen]
  constructor
  · intro isOpen
    have bounded := front.finite_leftOpen.bddAbove
    exact ⟨_, Nat.sSup_mem isOpen bounded, fun _ => le_csSup bounded⟩
  · intro ⟨last, greatest⟩
    exact ⟨last, greatest.1⟩

/-- From one bracket to the next, at most one more is open. -/
theorem ncard_leftOpen_le_succ {more : Word}
    (next : front.branchCount + 1 = (front ++ '[' :: more).branchCount) :
    (front ++ '[' :: more).leftOpen.ncard ≤ front.leftOpen.ncard + 1 := by
  have within : (front ++ '[' :: more).leftOpen ⊆ insert front.branchCount front.leftOpen := by
    intro ordinal isOpen
    apply isOpen.mem_insert
    have early := isOpen.lt_branchCount
    rw [← next] at early
    exact Nat.le_of_lt_succ early
  exact (Set.ncard_le_ncard within (front.finite_leftOpen.insert _)).trans
    (Set.ncard_insert_le _ _)

theorem ncard_leftOpen_of_isGreatest {more : Word}
    (greatest : IsGreatest (front ++ '[' :: more).leftOpen front.branchCount) :
    (front ++ '[' :: more).leftOpen.ncard = front.leftOpen.ncard + 1 := by
  have notOpen : front.branchCount ∉ front.leftOpen :=
    fun isOpen => isOpen.lt_branchCount.false
  rw [leftOpen_of_isGreatest greatest,
    Set.ncard_insert_of_notMem notOpen front.finite_leftOpen]

/-- Brackets that are all open from early on were open where any later bracket stands. -/
theorem ncard_leftOpen_le_of_isGreatest {more : Word} {last : Nat}
    (greatest : IsGreatest (front ++ more).leftOpen last) (early : last < front.branchCount) :
    (front ++ more).leftOpen.ncard ≤ front.leftOpen.ncard := by
  apply Set.ncard_le_ncard _ front.finite_leftOpen
  intro ordinal isOpen
  exact isOpen.of_append more ((greatest.2 isOpen).trans_lt early)

/-! ## The stack of open brackets -/

theorem unclosed_concat (front : Word) (symbol : Symbol) :
    unclosed (front ++ [symbol]) =
      if symbol = '[' then front.branchCount :: unclosed front
      else if symbol = ']' then (unclosed front).tail
      else unclosed front := by
  rw [unclosed, Marking.number_append, Marking.unclosed_append, Nat.zero_add]
  by_cases opening : symbol = '['
  · simp [Marking.number, Marking.unclosed, opening, unclosed]
  · simp [Marking.number, Marking.unclosed, opening, unclosed]

theorem lt_of_mem_unclosed (member : ordinal ∈ front.unclosed) :
    ordinal < front.branchCount := by
  cases Marking.mem_of_mem_unclosed _ _ member with
  | inl before => simp at before
  | inr inFront => simpa using inFront

/-- The stack is kept in order, with the last bracket on top. -/
theorem pairwise_unclosed (word : Word) : word.unclosed.Pairwise (· > ·) := by
  induction word using List.reverseRecOn with
  | nil => exact .nil
  | append_singleton front symbol ih =>
      rw [unclosed_concat]
      by_cases opening : symbol = '['
      · rw [if_pos opening]
        exact .cons (fun _ member => lt_of_mem_unclosed member) ih
      · rw [if_neg opening]
        by_cases closing : symbol = ']'
        · rw [if_pos closing]
          exact ih.tail
        · rwa [if_neg closing]

/-- Below the top of a descending list are those that something is greater than. -/
theorem mem_tail_iff_of_pairwise {ordinals : List Nat} (descending : ordinals.Pairwise (· > ·)) :
    ordinal ∈ ordinals.tail ↔ ordinal ∈ ordinals ∧ ∃ later ∈ ordinals, ordinal < later := by
  cases descending with
  | nil => simp
  | @cons top others above descending =>
      constructor
      · intro below
        exact ⟨List.mem_cons_of_mem _ below, top, List.mem_cons_self, above ordinal below⟩
      · intro ⟨member, later, laterMember, before⟩
        cases List.mem_cons.mp member with
        | inr below => exact below
        | inl isTop =>
            have atMost : later ≤ top := by
              cases List.mem_cons.mp laterMember with
              | inl same => exact same.le
              | inr below => exact (above later below).le
            omega

/-- The stack holds the brackets that are open. -/
theorem mem_unclosed (word : Word) :
    (ordinal : Nat) → (ordinal ∈ word.unclosed ↔ word.LeavesOpen ordinal) := by
  induction word using List.reverseRecOn with
  | nil =>
      intro ordinal
      simp [unclosed, Marking.number, Marking.unclosed, not_leavesOpen_nil]
  | append_singleton front symbol ih =>
      intro ordinal
      rw [unclosed_concat, leavesOpen_concat]
      by_cases opening : symbol = '['
      · simp [opening, ih]
      · rw [if_neg opening]
        by_cases closing : symbol = ']'
        · rw [if_pos closing, mem_tail_iff_of_pairwise (pairwise_unclosed front)]
          simp [closing, ih]
        · simp [opening, closing, ih]

theorem length_unclosed (word : Word) : word.unclosed.length = word.leftOpen.ncard := by
  have members : word.leftOpen = (word.unclosed.toFinset : Set Nat) := by
    ext ordinal
    simp [leftOpen, mem_unclosed]
  have nodup : word.unclosed.Nodup := word.pairwise_unclosed.imp fun before => before.ne'
  rw [members, Set.ncard_coe_finset, List.toFinset_card_of_nodup nodup]

theorem head?_unclosed_eq_some_iff (word : Word) :
    word.unclosed.head? = some ordinal ↔ IsGreatest word.leftOpen ordinal := by
  have members : word.leftOpen = {ordinal | ordinal ∈ word.unclosed} := by
    ext ordinal
    exact (mem_unclosed word ordinal).symm
  rw [members]
  cases stack : word.unclosed with
  | nil => simp [IsGreatest]
  | cons top others =>
      have descending := word.pairwise_unclosed
      rw [stack, List.pairwise_cons] at descending
      have isTop : IsGreatest {ordinal | ordinal ∈ top :: others} top := by
        refine ⟨List.mem_cons_self, ?_⟩
        intro ordinal member
        cases List.mem_cons.mp member with
        | inl same => exact same.le
        | inr below => exact (descending.1 ordinal below).le
      rw [List.head?_cons, Option.some.injEq]
      constructor
      · rintro rfl
        exact isTop
      · exact isTop.unique

end Word

/-! ## What an opening bracket says -/

/-- The opening is that of the bracket between the two parts of a word. -/
structure Opening.Describes (opening : Opening) (front back : Word) : Prop where
  isText : Word.IsText opening.label
  label_prefix : opening.label <+: back
  longest : ∀ text, Word.IsText text → text <+: back → text <+: opening.label
  nesting_eq : opening.nesting = front.leftOpen.ncard
  parent_eq_some_iff : ∀ ordinal,
    opening.parent = some ordinal ↔ IsGreatest front.leftOpen ordinal

namespace Word

theorem IsText.prefix_leadingText {text : Word} (isText : IsText text) {back : Word}
    (isPrefix : text <+: back) : text <+: leadingText back := by
  obtain ⟨rest, rfl⟩ := isPrefix
  rw [leadingText, List.takeWhile_append_of_pos]
  · exact List.prefix_append _ _
  · intro symbol member
    simp [isText symbol member]

theorem outlineFrom_getElem? (front back : Word) :
    (enclosing : List Nat) → (ordinal : Nat) →
      (outlineFrom enclosing ordinal (front ++ '[' :: back))[front.branchCount]? =
        let around := (Marking.number id ordinal front).unclosed enclosing
        some ⟨leadingText back, around.length, around.head?⟩ := by
  induction front with
  | nil =>
      intro enclosing ordinal
      rfl
  | cons symbol front ih =>
      intro enclosing ordinal
      rw [List.cons_append, branchCount_cons]
      by_cases opening : symbol = '['
      · simp only [outlineFrom, Marking.number, Marking.unclosed, opening, if_true, dif_pos,
          List.getElem?_cons_succ]
        exact ih (ordinal :: enclosing) (ordinal + 1)
      · simp only [outlineFrom, Marking.number, Marking.unclosed, opening, if_false, dif_neg,
          not_false_eq_true, Nat.add_zero]
        by_cases closing : symbol = ']'
        · simp only [closing, if_true]
          exact ih enclosing.tail ordinal
        · simp only [closing, if_false]
          exact ih enclosing ordinal

/-- Every entry of the outline describes its bracket. -/
theorem exists_outline_describes (front back : Word) :
    ∃ opening, (outline (front ++ '[' :: back))[front.branchCount]? = some opening ∧
      opening.Describes front back := by
  refine ⟨_, outlineFrom_getElem? front back [] 0, ?_⟩
  exact
    { isText := isText_leadingText back
      label_prefix := List.takeWhile_prefix _
      longest := fun _ isText isPrefix => isText.prefix_leadingText isPrefix
      nesting_eq := front.length_unclosed
      parent_eq_some_iff := fun _ => front.head?_unclosed_eq_some_iff }

/-- A word can be cut at each of its opening brackets. -/
theorem exists_split_of_lt (word : Word) :
    (ordinal : Nat) → ordinal < word.branchCount →
      ∃ front back, word = front ++ '[' :: back ∧ front.branchCount = ordinal := by
  induction word with
  | nil =>
      intro ordinal inRange
      simp at inRange
  | cons symbol rest ih =>
      intro ordinal inRange
      rw [branchCount_cons] at inRange
      by_cases opening : symbol = '['
      · cases ordinal with
        | zero => exact ⟨[], rest, by rw [opening, List.nil_append], rfl⟩
        | succ ordinal =>
            rw [if_pos opening] at inRange
            obtain ⟨front, back, rfl, count⟩ := ih ordinal (Nat.lt_of_succ_lt_succ inRange)
            exact ⟨symbol :: front, back, rfl, by rw [branchCount_cons, if_pos opening, count]⟩
      · rw [if_neg opening] at inRange
        obtain ⟨front, back, rfl, count⟩ := ih ordinal inRange
        exact ⟨symbol :: front, back, rfl, by rw [branchCount_cons, if_neg opening, count]; rfl⟩

end Word

/-! ## Trees of branches -/

/-- How the branch of an index hangs in a list of branches: on the nearest one before it that
has a smaller nesting. -/
structure Branch.HangsAt (branches : List Branch) (index : Nat) (branch : Branch) : Prop where
  nesting_first : index = 0 → branch.nesting = 0
  nesting_le : ∀ (previous : Nat) (before : Branch),
    previous + 1 = index → branches[previous]? = some before →
      branch.nesting ≤ before.nesting + 1
  isSome_parent_iff : branch.parent.isSome ↔ 0 < branch.nesting
  exists_parent : ∀ parent, branch.parent = some parent →
    parent < index ∧
      ∃ outer, branches[parent]? = some outer ∧ outer.nesting + 1 = branch.nesting
  nesting_between : ∀ (parent between : Nat) (other : Branch),
    branch.parent = some parent → parent < between → between < index →
      branches[between]? = some other → branch.nesting ≤ other.nesting

namespace Crown

/-- The branches of the crown belong to the brackets of the word, wherever it is cut at one. -/
def Depicts (crown : Crown) (word : Word) : Prop :=
  ∀ front back, word = front ++ '[' :: back →
    ∃ branch, crown.branches[front.branchCount]? = some branch ∧
      branch.opening.Describes front back

variable {crown : Crown} {word : Word}

theorem depicts_align (crown : Crown) (word : Word) (creationDepth : Nat) :
    (crown.align word creationDepth).Depicts word := by
  rintro front back rfl
  obtain ⟨opening, opening_at, describes⟩ := Word.exists_outline_describes front back
  rw [← map_opening_align crown _ creationDepth, List.getElem?_map,
    Option.map_eq_some_iff] at opening_at
  obtain ⟨branch, branch_at, rfl⟩ := opening_at
  exact ⟨branch, branch_at, describes⟩

/-- The branches before one belong to the brackets before its own. -/
theorem Depicts.exists_before {front back : Word} (depicts : crown.Depicts (front ++ '[' :: back))
    {earlier : Nat} (inFront : earlier < front.branchCount) :
    ∃ outer inner branch, front = outer ++ '[' :: inner ∧ outer.branchCount = earlier ∧
      crown.branches[earlier]? = some branch ∧
      branch.nesting = outer.leftOpen.ncard := by
  obtain ⟨outer, inner, rfl, rfl⟩ := front.exists_split_of_lt earlier inFront
  obtain ⟨branch, branch_at, describes⟩ := depicts outer (inner ++ '[' :: back) (by simp)
  exact ⟨outer, inner, branch, rfl, rfl, branch_at, describes.nesting_eq⟩

/-- What the brackets say about the branches makes trees of them. -/
theorem Depicts.hangsAt (depicts : crown.Depicts word)
    (count : crown.branches.length = word.branchCount) {index : Nat} {branch : Branch}
    (branch_at : crown.branches[index]? = some branch) :
    branch.HangsAt crown.branches index := by
  have inRange : index < word.branchCount := by
    rw [← count]
    exact (List.getElem?_eq_some_iff.mp branch_at).1
  obtain ⟨front, back, rfl, rfl⟩ := word.exists_split_of_lt index inRange
  obtain ⟨_, same, describes⟩ := depicts front back rfl
  obtain rfl := Option.some.inj (branch_at.symm.trans same)
  have nesting : branch.nesting = front.leftOpen.ncard := describes.nesting_eq
  have parent_iff : ∀ parent, branch.parent = some parent ↔ IsGreatest front.leftOpen parent :=
    describes.parent_eq_some_iff
  constructor
  case nesting_first =>
    intro isFirst
    rw [nesting, Word.ncard_leftOpen_eq_zero isFirst]
  case nesting_le =>
    intro previous before next before_at
    obtain ⟨outer, inner, _, rfl, rfl, outer_at, outerNesting⟩ :=
      depicts.exists_before (Nat.lt_of_succ_le next.le)
    obtain rfl := Option.some.inj (before_at.symm.trans outer_at)
    rw [nesting, outerNesting]
    exact Word.ncard_leftOpen_le_succ next
  case isSome_parent_iff =>
    rw [nesting, Word.ncard_leftOpen_pos_iff, Option.isSome_iff_exists]
    exact exists_congr parent_iff
  case exists_parent =>
    intro parent isParent
    have greatest := (parent_iff parent).mp isParent
    have early := greatest.1.lt_branchCount
    obtain ⟨outer, inner, other, rfl, rfl, other_at, otherNesting⟩ :=
      depicts.exists_before early
    refine ⟨early, other, other_at, ?_⟩
    rw [otherNesting, nesting, Word.ncard_leftOpen_of_isGreatest greatest]
  case nesting_between =>
    intro parent between other isParent after early other_at
    have greatest := (parent_iff parent).mp isParent
    obtain ⟨outer, inner, _, rfl, rfl, outer_at, outerNesting⟩ := depicts.exists_before early
    obtain rfl := Option.some.inj (other_at.symm.trans outer_at)
    rw [nesting, outerNesting]
    exact Word.ncard_leftOpen_le_of_isGreatest greatest after

/-- Aligning gives the branches the records that are there, as far as there are brackets for
them, and fresh ones beyond these. -/
theorem map_record_align (crown : Crown) (word : Word) (creationDepth : Nat) :
    (crown.align word creationDepth).branches.map Branch.record =
      (crown.branches.map Branch.record).take word.branchCount ++
        (List.range (word.branchCount - crown.branches.length)).map fun number =>
          Record.ungrown (crown.nextId + UInt32.ofNat number) creationDepth := by
  rw [align, Record.map_record_zipWith_place, Word.length_outline, List.map_append,
    List.take_append, List.length_map]
  congr 1
  rw [List.take_of_length_le (by simp), buds, List.map_map]
  rfl

/-- Whatever the crown and the word are, aligning makes a branch of each opening bracket.  It
has the text and the place of the bracket, so that the branches are trees in which each hangs
on the nearest one before it that has a smaller nesting.  Records are kept by index, as far
as there are brackets for them, missing ones are fresh, and nothing changes when the crown is
aligned once more. -/
theorem align_depicts_and_keeps (crown : Crown) (word : Word) (creationDepth : Nat) :
    let aligned := crown.align word creationDepth
    let missing := word.branchCount - crown.branches.length
    aligned.branches.length = word.branchCount ∧
      aligned.Depicts word ∧
      (∀ (index : Nat) (branch : Branch), aligned.branches[index]? = some branch →
        branch.HangsAt aligned.branches index) ∧
      aligned.branches.map Branch.record =
        (crown.branches.map Branch.record).take (min crown.branches.length word.branchCount) ++
          (List.range missing).map (fun number =>
            Record.ungrown (crown.nextId + UInt32.ofNat number) creationDepth) ∧
      aligned.nextId = crown.nextId + UInt32.ofNat missing ∧
      ∀ later, aligned.align word later = aligned := by
  intro aligned missing
  have length := crown.length_align word creationDepth
  have depicts := crown.depicts_align word creationDepth
  refine ⟨length, depicts, fun index branch => depicts.hangsAt length, ?_, rfl, ?_⟩
  · rw [map_record_align, List.take_eq_take_min, List.length_map, Nat.min_comm]
  · exact align_of_map_opening (crown.map_opening_align word creationDepth)

/-- A closing bracket without a partner has no effect, and an unclosed bracket is a parent. -/
example :
    (ofWord "]A[F[A]G[B]]]H[C[D".toList 0).branches.map (fun branch => branch.parent) =
      [none, some 0, some 0, none, some 3] := by
  decide

end Crown

end Arbor
