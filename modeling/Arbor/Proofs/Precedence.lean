import Arbor.Proofs.Transcript

/-!
# Precedence among productions

Productions are tried in the order of their list, and the first one that begins the text has
the only chance there, whether or not it then fires.  A production that stands behind one with
a shorter beginning of the same predecessor therefore never has a chance, and the order of two
productions matters only if both can begin the same text.
-/

namespace Arbor

namespace Production

/-- Nothing that the production begins is left to it by the earlier ones. -/
def IsBarred (earlier : List Production) (production : Production) : Prop :=
  production.predecessor = [] ∨ ∃ other ∈ earlier, other.Begins production.predecessor

variable {earlier : List Production} {production first second : Production} {text : Word}

theorem Begins.trans (begins : first.Begins second.predecessor) (beginsText : second.Begins text) :
    first.Begins text :=
  ⟨begins.1, begins.2.trans beginsText.2⟩

/-- A production is barred exactly if an earlier one begins every text that it begins. -/
theorem isBarred_iff :
    production.IsBarred earlier ↔
      ∀ text, production.Begins text → ∃ other ∈ earlier, other.Begins text := by
  constructor
  · intro barred text begins
    cases barred with
    | inl empty => exact absurd empty begins.1
    | inr before =>
        obtain ⟨other, listed, beginsIt⟩ := before
        exact ⟨other, listed, beginsIt.trans begins⟩
  · intro covered
    by_cases empty : production.predecessor = []
    · exact .inl empty
    · exact .inr (covered production.predecessor ⟨empty, List.prefix_refl _⟩)

/-- Of two productions that begin the same text, the predecessor of one begins that of the
other. -/
theorem prefix_or_prefix_of_begins (begins : first.Begins text) (beginsToo : second.Begins text) :
    first.predecessor <+: second.predecessor ∨ second.predecessor <+: first.predecessor :=
  List.prefix_or_prefix_of_prefix begins.2 beginsToo.2

theorem candidate?_append (left right : List Production) (text : Word) :
    candidate? (left ++ right) text = (candidate? left text).or (candidate? right text) :=
  List.find?_append

theorem candidate?_cons_of_begins (begins : production.Begins text) (later : List Production) :
    candidate? (production :: later) text = some production :=
  List.find?_cons_of_pos (applies_iff.mpr begins)

theorem candidate?_cons_of_not_begins (beginsNot : ¬ production.Begins text)
    (later : List Production) :
    candidate? (production :: later) text = candidate? later text :=
  List.find?_cons_of_neg fun applies => beginsNot (applies_iff.mp applies)

theorem candidate?_erase (barred : production.IsBarred earlier) (later : List Production)
    (text : Word) :
    candidate? (earlier ++ production :: later) text = candidate? (earlier ++ later) text := by
  rw [candidate?_append, candidate?_append]
  by_cases begins : production.Begins text
  · obtain ⟨other, listed, beginsText⟩ := isBarred_iff.mp barred text begins
    cases found : candidate? earlier text with
    | none => exact absurd beginsText (candidate?_eq_none_iff.mp found other listed)
    | some candidate => rfl
  · rw [candidate?_cons_of_not_begins begins]

theorem candidate?_swap (firstNotPrefix : ¬ first.predecessor <+: second.predecessor)
    (secondNotPrefix : ¬ second.predecessor <+: first.predecessor)
    (earlier later : List Production) (text : Word) :
    candidate? (earlier ++ first :: second :: later) text =
      candidate? (earlier ++ second :: first :: later) text := by
  rw [candidate?_append, candidate?_append]
  congr 1
  by_cases begins : first.Begins text
  · have beginsNot : ¬ second.Begins text := by
      intro beginsToo
      cases prefix_or_prefix_of_begins begins beginsToo with
      | inl isPrefix => exact firstNotPrefix isPrefix
      | inr isPrefix => exact secondNotPrefix isPrefix
    rw [candidate?_cons_of_begins begins, candidate?_cons_of_not_begins beginsNot,
      candidate?_cons_of_begins begins]
  · rw [candidate?_cons_of_not_begins begins]
    by_cases beginsToo : second.Begins text
    · rw [candidate?_cons_of_begins beginsToo, candidate?_cons_of_begins beginsToo]
    · rw [candidate?_cons_of_not_begins beginsToo, candidate?_cons_of_not_begins beginsToo,
        candidate?_cons_of_not_begins begins]

end Production

variable {left right : List Production}

/-- A word is cut by the candidates at its places and by nothing else. -/
theorem Piece.cutFrom_congr
    (same : ∀ text, Production.candidate? left text = Production.candidate? right text)
    (word : Word) :
    (covered : Nat) → cutFrom left covered word = cutFrom right covered word := by
  induction word with
  | nil =>
      intro covered
      rfl
  | cons symbol rest ih =>
      intro covered
      cases covered with
      | succ covered => exact ih covered
      | zero => simp only [cutFrom, same, ih]

namespace Generation

theorem next_congr
    (same : ∀ text, Production.candidate? left text = Production.candidate? right text)
    (word : Word) : next left word = next right word := by
  rw [next_eq_ofPieces, next_eq_ofPieces, Piece.cut, Piece.cut, Piece.cutFrom_congr same]

/-- A generation is the same without a production that is barred, even if those that bar it do
not fire, and with two neighbouring productions exchanged neither of which begins the other. -/
theorem next_erase_and_swap :
    (∀ (earlier later : List Production) (production : Production),
      production.IsBarred earlier →
      ∀ word draws, next (earlier ++ production :: later) word draws =
        next (earlier ++ later) word draws) ∧
    ∀ (earlier later : List Production) (first second : Production),
      ¬ first.predecessor <+: second.predecessor →
      ¬ second.predecessor <+: first.predecessor →
      ∀ word draws, next (earlier ++ first :: second :: later) word draws =
        next (earlier ++ second :: first :: later) word draws := by
  constructor
  · intro earlier later production barred word draws
    have same := next_congr (Production.candidate?_erase barred later) word
    exact congrFun same draws
  · intro earlier later first second firstNotPrefix secondNotPrefix word draws
    have same := next_congr
      (Production.candidate?_swap firstNotPrefix secondNotPrefix earlier later) word
    exact congrFun same draws

/-- The first production never fires and bars the longer one all the same.  That one and the
third overlap in `ABA` but begin no text both. -/
theorem next_erase_and_swap_overlapping :
    let never := Production.clamped "A".toList "F".toList 0
    let longer := Production.certain "AB".toList "[F]".toList
    let overlapping := Production.certain "BA".toList "[B]".toList
    let word := "[ABA]".toList
    let draws := Draws.start fun _ => 0
    (longer.IsBarred [never] ∧ ¬ longer.predecessor <+: overlapping.predecessor ∧
      ¬ overlapping.predecessor <+: longer.predecessor) ∧
    next ([never] ++ longer :: [overlapping]) word draws =
      next ([never] ++ [overlapping]) word draws ∧
    next ([] ++ longer :: overlapping :: [never]) word draws =
      next ([] ++ overlapping :: longer :: [never]) word draws ∧
    (next [never, longer, overlapping] word draws).1.word = "[A[B]]".toList ∧
    (next [longer, overlapping, never] word draws).1.word = "[[F]A]".toList := by
  intro never longer overlapping word draws
  have barred : longer.IsBarred [never] :=
    .inr ⟨never, List.mem_singleton_self never, by decide, ['B'], rfl⟩
  have notPrefix : ¬ longer.predecessor <+: overlapping.predecessor := by decide
  have notPrefixToo : ¬ overlapping.predecessor <+: longer.predecessor := by decide
  refine ⟨⟨barred, notPrefix, notPrefixToo⟩, ?_, ?_, by decide +kernel, by decide +kernel⟩
  · exact next_erase_and_swap.1 [never] [overlapping] longer barred word draws
  · exact next_erase_and_swap.2 [] [never] longer overlapping notPrefix notPrefixToo word draws

end Generation

end Arbor
