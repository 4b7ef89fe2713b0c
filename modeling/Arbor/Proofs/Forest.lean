import Arbor.Proofs.Lineage
import Mathlib.Data.List.Chain
import Mathlib.Data.List.TakeWhile

/-!
# Words made of trees

A tree is an opening bracket, a text, further trees and a closing bracket.  Branches can
say nothing but trees: the word of a crown is always a sequence of them, and it is the word
with which the crown was aligned exactly if that one was made of trees already.  What a
word loses otherwise is text that belongs to no branch and brackets without a partner.
Its outline it never loses, so the crown that is read back from it is the same.
-/

namespace Arbor

namespace Word

/-- A word without brackets. -/
def IsText (word : Word) : Prop :=
  ∀ symbol ∈ word, isBracket symbol = false

/-- A sequence of trees.  Each is an opening bracket, a text, a sequence of trees and a
closing bracket. -/
inductive IsForest : Word → Prop where
  | nil : IsForest []
  | cons {text inner rest : Word} :
      IsText text → IsForest inner → IsForest rest →
      IsForest ('[' :: text ++ inner ++ ']' :: rest)

/-- Text stands before the first opening bracket or right after a closing one. -/
def HasLooseText (word : Word) : Prop :=
  (∃ symbol ∈ word.takeWhile (· ≠ '['), isBracket symbol = false) ∨
    ∃ symbol, isBracket symbol = false ∧ [']', symbol] <:+: word

/-- A closing bracket has no partner: up to it more brackets are closed than opened. -/
def HasStrayClosing (word : Word) : Prop :=
  ∃ front, front <+: word ∧ front.count '[' < front.count ']'

/-- An opening bracket has no partner: from it on more brackets are opened than closed. -/
def HasUnclosedOpening (word : Word) : Prop :=
  ∃ back, back <:+ word ∧ back.count ']' < back.count '['

/-! ## Texts -/

theorem isText_cons {symbol : Symbol} {rest : Word} :
    IsText (symbol :: rest) ↔ isBracket symbol = false ∧ IsText rest :=
  List.forall_mem_cons

theorem isText_leadingText (word : Word) : IsText (leadingText word) := by
  intro symbol member
  simpa using List.mem_takeWhile_imp member

theorem IsText.notMem {text : Word} (isText : IsText text) :
    '[' ∉ text ∧ ']' ∉ text := by
  constructor
  · intro member
    simpa [isBracket] using isText _ member
  · intro member
    simpa [isBracket] using isText _ member

/-- A text ends where a bracket follows. -/
theorem IsText.leadingText_append {text rest : Word} (isText : IsText text)
    (bracketed : ∀ symbol ∈ rest.head?, isBracket symbol = true) :
    leadingText (text ++ rest) = text := by
  rw [leadingText, List.takeWhile_append_of_pos]
  · cases rest with
    | nil => exact List.append_nil text
    | cons symbol rest => simp [bracketed symbol rfl]
  · intro symbol member
    simp [isText symbol member]

/-- A text has no brackets to outline. -/
theorem IsText.outlineFrom_append {text : Word} (isText : IsText text)
    (unclosed : List Nat) (ordinal : Nat) (rest : Word) :
    outlineFrom unclosed ordinal (text ++ rest) = outlineFrom unclosed ordinal rest := by
  induction text with
  | nil => rfl
  | cons symbol text ih =>
      rcases isText_cons.mp isText with ⟨plain, others⟩
      have neither : symbol ≠ '[' ∧ symbol ≠ ']' := by simpa [isBracket] using plain
      rw [List.cons_append, outlineFrom, if_neg neither.1, if_neg neither.2, ih others]

/-! ## Forests -/

/-- A forest begins with a bracket, if with anything, and so does what follows on one. -/
theorem IsForest.head?_append {forest : Word} (isForest : IsForest forest) {rest : Word}
    (bracketed : ∀ symbol ∈ rest.head?, isBracket symbol = true) :
    ∀ symbol ∈ (forest ++ rest).head?, isBracket symbol = true := by
  cases isForest with
  | nil => exact bracketed
  | cons _ _ _ =>
      intro symbol head
      obtain rfl : '[' = symbol := by simpa using head
      rfl

/-- A word that closes the given number of brackets, each after a forest, and ends with a
forest. -/
inductive Closes : Nat → Word → Prop where
  | done {forest : Word} : IsForest forest → Closes 0 forest
  | close {forest rest : Word} {count : Nat} :
      IsForest forest → Closes count rest → Closes (count + 1) (forest ++ ']' :: rest)

/-- A bracket that is opened, with its text, is the first one to be closed. -/
theorem Closes.open {text word : Word} {count : Nat} (isText : IsText text)
    (closes : Closes (count + 1) word) : Closes count ('[' :: text ++ word) := by
  cases closes with
  | @close inner _ _ isForest later =>
      cases later with
      | done rest =>
          have tree := IsForest.cons isText isForest rest
          rw [List.append_assoc] at tree
          exact .done tree
      | @close forest rest _ next last =>
          have tree := Closes.close (.cons isText isForest next) last
          simpa using tree

/-! ## Outlines spelled out -/

/-- The word that the rest of an outline stands for while `unclosed` brackets are open. -/
def spell (unclosed : Nat) : List Opening → Word
  | [] => List.replicate unclosed ']'
  | opening :: rest =>
      List.replicate (unclosed - opening.nesting) ']' ++ '[' :: opening.label ++
        spell (min unclosed opening.nesting + 1) rest

theorem outlineFrom_closing (enclosing : List Nat) (ordinal : Nat) (rest : Word) :
    outlineFrom enclosing ordinal (']' :: rest) = outlineFrom enclosing.tail ordinal rest := rfl

/-- Where more brackets are open than the outline knows of, the surplus is closed first. -/
theorem spell_outlineFrom_of_le (word : Word) :
    (enclosing : List Nat) → (ordinal unclosed : Nat) → enclosing.length ≤ unclosed →
      spell unclosed (outlineFrom enclosing ordinal word) =
        List.replicate (unclosed - enclosing.length) ']' ++
          spell enclosing.length (outlineFrom enclosing ordinal word) := by
  induction word with
  | nil =>
      intro enclosing ordinal unclosed enough
      simp [outlineFrom, spell, Nat.sub_add_cancel enough]
  | cons symbol rest ih =>
      intro enclosing ordinal unclosed enough
      by_cases opens : symbol = '['
      · simp [outlineFrom, opens, spell, Nat.min_eq_right enough]
      · by_cases closes : symbol = ']'
        · -- Both sides also close the bracket that the word closes here.
          have fewer : enclosing.tail.length ≤ enclosing.length := by simp
          rw [closes, outlineFrom_closing, ih enclosing.tail ordinal unclosed (fewer.trans enough),
            ih enclosing.tail ordinal enclosing.length fewer, ← List.append_assoc,
            ← List.replicate_add, Nat.sub_add_sub_cancel enough fewer]
        · simp only [outlineFrom, opens, closes, if_false]
          exact ih enclosing ordinal unclosed enough

/-- A closing bracket is spelled if it has a partner. -/
theorem spell_outlineFrom_closing (owner : Nat) (enclosing : List Nat) (ordinal : Nat)
    (rest : Word) :
    spell (owner :: enclosing).length (outlineFrom (owner :: enclosing) ordinal (']' :: rest)) =
      ']' :: spell enclosing.length (outlineFrom enclosing ordinal rest) := by
  have fewer : enclosing.length ≤ (owner :: enclosing).length := Nat.le_succ _
  rw [outlineFrom_closing, List.tail_cons, spell_outlineFrom_of_le rest enclosing ordinal _ fewer]
  simp

/-- An opening bracket is spelled with its text. -/
theorem spell_outlineFrom_opening (enclosing : List Nat) (ordinal : Nat) (rest : Word) :
    spell enclosing.length (outlineFrom enclosing ordinal ('[' :: rest)) =
      '[' :: leadingText rest ++
        spell (ordinal :: enclosing).length
          (outlineFrom (ordinal :: enclosing) (ordinal + 1) rest) := by
  simp [outlineFrom, spell]

/-- The outline of a forest spells the forest, whatever stands around it. -/
theorem IsForest.spell_outlineFrom_append {forest : Word} (isForest : IsForest forest) :
    (enclosing : List Nat) → (ordinal : Nat) → (following : Word) →
      spell enclosing.length (outlineFrom enclosing ordinal (forest ++ following)) =
        forest ++ spell enclosing.length
          (outlineFrom enclosing (ordinal + forest.branchCount) following) := by
  induction isForest with
  | nil =>
      intro enclosing ordinal following
      rfl
  | @cons text inner rest isText isInner _ innerIH restIH =>
      intro enclosing ordinal following
      have count : branchCount ('[' :: text ++ inner ++ ']' :: rest) =
          inner.branchCount + rest.branchCount + 1 := by
        have unbracketed : text.branchCount = 0 := List.count_eq_zero.mpr isText.notMem.1
        simp [branchCount_cons, unbracketed]
      have label : leadingText (text ++ (inner ++ ']' :: (rest ++ following))) = text := by
        apply isText.leadingText_append
        apply isInner.head?_append
        simp [isBracket]
      have shape : '[' :: text ++ inner ++ ']' :: rest ++ following =
          '[' :: (text ++ (inner ++ ']' :: (rest ++ following))) := by simp
      rw [shape, spell_outlineFrom_opening, label, isText.outlineFrom_append, innerIH,
        spell_outlineFrom_closing, restIH, count]
      simp [Nat.add_assoc, Nat.add_comm 1]

/-- Whatever an outline spells is made of trees that close all brackets. -/
theorem closes_spell_outlineFrom (word : Word) :
    (enclosing : List Nat) → (ordinal : Nat) →
      Closes enclosing.length (spell enclosing.length (outlineFrom enclosing ordinal word)) := by
  induction word with
  | nil =>
      intro enclosing ordinal
      induction enclosing with
      | nil => exact .done .nil
      | cons _ _ ih => exact .close .nil ih
  | cons symbol rest ih =>
      intro enclosing ordinal
      by_cases opens : symbol = '['
      · rw [opens, spell_outlineFrom_opening]
        exact (ih (ordinal :: enclosing) (ordinal + 1)).open (isText_leadingText rest)
      · by_cases closes : symbol = ']'
        · rw [closes]
          cases enclosing with
          | nil => exact ih [] ordinal
          | cons owner enclosing =>
              rw [spell_outlineFrom_closing]
              exact .close .nil (ih enclosing ordinal)
        · simp only [outlineFrom, opens, closes, if_false]
          exact ih enclosing ordinal

theorem head?_spell (unclosed : Nat) (openings : List Opening) :
    ∀ symbol ∈ (spell unclosed openings).head?, isBracket symbol = true := by
  cases openings with
  | nil =>
      cases unclosed with
      | zero => simp [spell]
      | succ unclosed => simp [spell, List.replicate_succ, isBracket]
  | cons opening rest =>
      rw [spell]
      cases unclosed - opening.nesting with
      | zero => simp [isBracket]
      | succ surplus => simp [List.replicate_succ, isBracket]

/-- An outline that is spelled out is read again as it was. -/
theorem outlineFrom_spell_outlineFrom (word : Word) :
    (enclosing : List Nat) → (ordinal : Nat) →
      outlineFrom enclosing ordinal
          (spell enclosing.length (outlineFrom enclosing ordinal word)) =
        outlineFrom enclosing ordinal word := by
  induction word with
  | nil =>
      intro enclosing ordinal
      rw [outlineFrom, spell, ← List.length_eq_zero_iff, length_outlineFrom, branchCount,
        List.count_eq_zero]
      simp
  | cons symbol rest ih =>
      intro enclosing ordinal
      by_cases opens : symbol = '['
      · have isText := isText_leadingText rest
        rw [opens, spell_outlineFrom_opening, List.cons_append, outlineFrom, if_pos rfl,
          isText.leadingText_append (head?_spell _ _), isText.outlineFrom_append, ih]
        rfl
      · by_cases closes : symbol = ']'
        · rw [closes]
          cases enclosing with
          | nil => exact ih [] ordinal
          | cons owner enclosing =>
              rw [spell_outlineFrom_closing]
              exact ih enclosing ordinal
        · simp only [outlineFrom, opens, closes, if_false]
          exact ih enclosing ordinal

/-! ## What keeps a word from being a forest -/

/-- Every bracket has a partner exactly if the word is balanced. -/
theorem isBalanced_iff {word : Word} :
    word.IsBalanced ↔ ¬ word.HasStrayClosing ∧ ¬ word.HasUnclosedOpening := by
  rw [isBalanced_iff_closesAtMost]
  constructor
  · rintro ⟨bounded, total⟩
    constructor
    · rintro ⟨front, isPrefix, stray⟩
      have bound := bounded front isPrefix
      omega
    · rintro ⟨back, ⟨front, rfl⟩, surplus⟩
      have bound := bounded front (List.prefix_append front back)
      rw [List.count_append, List.count_append] at total
      omega
  · rintro ⟨noStray, noUnclosed⟩
    have bounded : word.ClosesAtMost 0 := by
      intro front isPrefix
      rw [Nat.zero_add]
      exact Nat.le_of_not_lt fun stray => noStray ⟨front, isPrefix, stray⟩
    have closed : word.count '[' ≤ word.count ']' :=
      Nat.le_of_not_lt fun surplus => noUnclosed ⟨word, List.suffix_rfl, surplus⟩
    have opened := bounded word List.prefix_rfl
    exact ⟨bounded, by omega⟩

theorem IsText.closesAtMost_append {text : Word} (isText : IsText text) {count : Nat}
    {rest : Word} : ClosesAtMost count (text ++ rest) ↔ ClosesAtMost count rest := by
  induction text with
  | nil => rfl
  | cons symbol text ih =>
      rcases isText_cons.mp isText with ⟨plain, others⟩
      rw [List.cons_append, closesAtMost_plain plain, ih others]

/-- A forest closes what it opens and nothing else. -/
theorem IsForest.closesAtMost_append {forest : Word} (isForest : IsForest forest) :
    {count : Nat} → {rest : Word} →
      (ClosesAtMost count (forest ++ rest) ↔ ClosesAtMost count rest) := by
  induction isForest with
  | nil =>
      intro count rest
      rfl
  | @cons text inner forest isText _ _ innerIH forestIH =>
      intro count rest
      have shape : '[' :: text ++ inner ++ ']' :: forest ++ rest =
          '[' :: (text ++ (inner ++ ']' :: (forest ++ rest))) := by simp
      rw [shape, closesAtMost_opening, isText.closesAtMost_append, innerIH,
        closesAtMost_closing, forestIH]
      simp

theorem IsForest.isBalanced {forest : Word} (isForest : IsForest forest) :
    forest.IsBalanced := by
  rw [isBalanced_iff_closesAtMost]
  constructor
  · have bounded := isForest.closesAtMost_append.mpr (closesAtMost_nil 0)
    rwa [List.append_nil] at bounded
  · induction isForest with
    | nil => rfl
    | @cons text inner forest isText _ _ innerIH forestIH =>
        have noOpening : text.count '[' = 0 := List.count_eq_zero.mpr isText.notMem.1
        have noClosing : text.count ']' = 0 := List.count_eq_zero.mpr isText.notMem.2
        simp [noOpening, noClosing, innerIH, forestIH]
        omega

/-- The right neighbour of a closing bracket is a bracket. -/
def Adjoins (left right : Symbol) : Prop :=
  left = ']' → isBracket right = true

theorem isChain_adjoins_iff {word : Word} :
    word.IsChain Adjoins ↔ ¬ ∃ symbol, isBracket symbol = false ∧ [']', symbol] <:+: word := by
  rw [List.isChain_iff_forall_rel_of_append_cons_cons]
  constructor
  · rintro adjoins ⟨symbol, plain, front, back, rfl⟩
    have bracket := adjoins (List.append_assoc front [']', symbol] back) rfl
    simp [plain] at bracket
  · rintro noText left right front back rfl rfl
    rw [← Bool.not_eq_false]
    intro plain
    exact noText ⟨right, plain, front, back, by simp⟩

theorem isChain_adjoins_cons {symbol : Symbol} {rest : Word} (notClosing : symbol ≠ ']') :
    List.IsChain Adjoins (symbol :: rest) ↔ rest.IsChain Adjoins := by
  rw [List.isChain_cons, and_iff_right]
  intro right _ closing
  exact absurd closing notClosing

theorem IsText.isChain_adjoins_append {text : Word} (isText : IsText text) (rest : Word) :
    List.IsChain Adjoins (text ++ rest) ↔ rest.IsChain Adjoins := by
  induction text with
  | nil => rfl
  | cons symbol text ih =>
      rcases isText_cons.mp isText with ⟨plain, others⟩
      have notClosing : symbol ≠ ']' := by
        rintro rfl
        simp [isBracket] at plain
      rw [List.cons_append, isChain_adjoins_cons notClosing, ih others]

theorem IsForest.isChain_adjoins {forest : Word} (isForest : IsForest forest) :
    forest.IsChain Adjoins := by
  induction isForest with
  | nil => exact .nil
  | @cons text inner forest isText _ isForest innerIH forestIH =>
      rw [List.append_assoc, List.cons_append, isChain_adjoins_cons (by decide),
        isText.isChain_adjoins_append, List.isChain_append, List.isChain_cons]
      refine ⟨innerIH, ⟨?_, forestIH⟩, ?_⟩
      · intro symbol head _
        have bracketed : ∀ first ∈ ([] : Word).head?, isBracket first = true := by simp
        apply isForest.head?_append bracketed symbol
        rwa [List.append_nil]
      · intro left _ right isClosing _
        obtain rfl : ']' = right := by simpa using isClosing
        rfl

/-- A word in which every bracket has its partner, or is one of `count` closing ones, and
no text follows on a closing bracket is a text and trees that close `count` brackets. -/
theorem exists_closes (word : Word) :
    (count : Nat) → word.ClosesAtMost count → word.count ']' = count + word.count '[' →
      word.IsChain Adjoins →
      ∃ text rest, word = text ++ rest ∧ IsText text ∧ Closes count rest := by
  have noText : IsText [] := by simp [IsText]
  induction word with
  | nil =>
      intro count bounded total _
      obtain rfl : count = 0 := by simpa using total.symm
      exact ⟨[], [], rfl, noText, .done .nil⟩
  | cons symbol rest ih =>
      intro count bounded total chain
      by_cases opens : symbol = '['
      · subst opens
        rw [closesAtMost_opening] at bounded
        rw [List.count_cons_self, List.count_cons_of_ne (by decide)] at total
        rcases ih (count + 1) bounded (by omega) chain.tail with
          ⟨text, word, rfl, isText, closes⟩
        exact ⟨[], _, rfl, noText, closes.open isText⟩
      · by_cases closes : symbol = ']'
        · subst closes
          rw [closesAtMost_closing] at bounded
          rw [List.count_cons_self, List.count_cons_of_ne (by decide)] at total
          rcases ih (count - 1) bounded.2 (by omega) chain.tail with
            ⟨text, word, rfl, isText, closes⟩
          -- No text follows on this bracket, so the text is empty.
          have empty : text = [] := by
            cases text with
            | nil => rfl
            | cons first others =>
                have bracket := chain.rel rfl
                simp [(isText_cons.mp isText).1] at bracket
          refine ⟨[], _, rfl, noText, ?_⟩
          rw [empty]
          have closed := Closes.close .nil closes
          rwa [Nat.sub_add_cancel bounded.1] at closed
        · have plain : isBracket symbol = false := by simp [isBracket, opens, closes]
          rw [closesAtMost_plain plain] at bounded
          rw [List.count_cons_of_ne opens, List.count_cons_of_ne closes] at total
          rcases ih count bounded total chain.tail with ⟨text, word, rfl, isText, closes⟩
          exact ⟨symbol :: text, word, rfl, isText_cons.mpr ⟨plain, isText⟩, closes⟩

/-- A word is made of trees unless it has text that belongs to no tree or a bracket without
a partner. -/
theorem not_isForest_iff {word : Word} :
    ¬ word.IsForest ↔
      word.HasLooseText ∨ word.HasStrayClosing ∨ word.HasUnclosedOpening := by
  suffices isForest_iff : word.IsForest ↔ word.IsBalanced ∧ ¬ word.HasLooseText by
    rw [isForest_iff, isBalanced_iff]
    tauto
  constructor
  · intro isForest
    refine ⟨isForest.isBalanced, ?_⟩
    rintro (⟨symbol, early, plain⟩ | afterClosing)
    · cases isForest with
      | nil => simp at early
      | cons _ _ _ => simp at early
    · exact isChain_adjoins_iff.mp isForest.isChain_adjoins afterClosing
  · rintro ⟨balanced, noLooseText⟩
    rcases isBalanced_iff_closesAtMost.mp balanced with ⟨bounded, total⟩
    have chain := isChain_adjoins_iff.mpr fun afterClosing => noLooseText (.inr afterClosing)
    rcases exists_closes word 0 bounded (by omega) chain with ⟨text, rest, rfl, isText, closes⟩
    cases closes with
    | done isForest =>
        cases text with
        | nil => exact isForest
        | cons symbol text =>
            have plain := (isText_cons.mp isText).1
            have notOpening : symbol ≠ '[' := by
              rintro rfl
              simp [isBracket] at plain
            exact (noLooseText (.inl ⟨symbol, by simp [notOpening], plain⟩)).elim

end Word

namespace Crown

/-- What branches stand for is what their openings spell. -/
theorem wordFrom_eq_spell (branches : List Branch) :
    (unclosed : Nat) →
      wordFrom unclosed branches = Word.spell unclosed (branches.map Branch.opening) := by
  induction branches with
  | nil =>
      intro unclosed
      rfl
  | cons branch rest ih =>
      intro unclosed
      rw [wordFrom, ih]
      rfl

/-- The word of a crown is made of trees.  It is the word with which the crown has been
made exactly if that one is, and it differs exactly if that one has text before its first
opening bracket or after a closing one, or a bracket without a partner. -/
theorem toWord_ofWord_isForest_and_eq_iff (word : Word) (creationDepth : Nat) :
    let rebuilt := (ofWord word creationDepth).toWord
    rebuilt.IsForest ∧ (rebuilt = word ↔ word.IsForest) ∧
      (rebuilt ≠ word ↔
        word.HasLooseText ∨ word.HasStrayClosing ∨ word.HasUnclosedOpening) := by
  intro rebuilt
  have spelled : rebuilt = Word.spell 0 word.outline :=
    (wordFrom_eq_spell _ 0).trans (congrArg _ (map_opening_align _ _ _))
  have isForest : rebuilt.IsForest := by
    rw [spelled]
    cases Word.closes_spell_outlineFrom word [] 0 with
    | done isForest => exact isForest
  have reproduced : rebuilt = word ↔ word.IsForest := by
    constructor
    · intro same
      rwa [← same]
    · intro wordIsForest
      have whole : Word.spell 0 word.outline = word := by
        simpa [Word.outline, Word.outlineFrom, Word.spell] using
          wordIsForest.spell_outlineFrom_append [] 0 []
      exact spelled.trans whole
  exact ⟨isForest, reproduced, (not_congr reproduced).trans Word.not_isForest_iff⟩

/-- Of a word with every kind of defect the trees remain. -/
example : (ofWord "E]A[F[A]G[B".toList 0).toWord = "[F[A][B]]".toList := by decide

/-- The word of an aligned crown has the same outline as the one that it was aligned with,
whatever that one has lost.  So the crown is aligned with its own word already, and gives the
same word again. -/
theorem align_toWord_align (crown : Crown) (word : Word) (creationDepth : Nat) :
    let aligned := crown.align word creationDepth
    aligned.toWord.outline = word.outline ∧
      ∀ later, aligned.align aligned.toWord later = aligned ∧
        (aligned.align aligned.toWord later).toWord = aligned.toWord := by
  intro aligned
  have outline_eq : aligned.toWord.outline = word.outline := by
    rw [toWord, wordFrom_eq_spell, map_opening_align]
    exact Word.outlineFrom_spell_outlineFrom word [] 0
  refine ⟨outline_eq, ?_⟩
  intro later
  have unchanged : aligned.align aligned.toWord later = aligned := by
    apply align_of_map_opening
    rw [outline_eq]
    exact crown.map_opening_align word creationDepth
  exact ⟨unchanged, congrArg toWord unchanged⟩

end Crown

end Arbor
