import Arbor.Proofs.Alignment
import Arbor.Proofs.Forest
import Arbor.Species.Library

/-!
# Growth at the tips

A word that is made of trees is the word of its crown.  Such words stay made of trees where
productions replace single symbols at the ends of texts by a text with trees on it: then
nothing comes to stand behind a closing bracket, and the symbols that can be replaced later
stand at the ends of texts again.
-/

namespace Arbor

namespace Word

/-- Symbols of a kind stand only right before brackets or at the end of the word. -/
def AtTips (isKind : Symbol → Prop) (word : Word) : Prop :=
  word.IsChain fun left right => isKind left → isBracket right = true

theorem IsForest.append {left right : Word} (leftForest : left.IsForest)
    (rightForest : right.IsForest) : IsForest (left ++ right) := by
  induction leftForest with
  | nil => exact rightForest
  | cons isText isInner _ _ ih =>
      have joined := IsForest.cons isText isInner ih
      simpa using joined

/-- A word is made of trees exactly if its outline spells it. -/
theorem isForest_iff_spell_outline {word : Word} :
    word.IsForest ↔ spell 0 word.outline = word := by
  constructor
  · intro isForest
    simpa [outline, outlineFrom, spell] using isForest.spell_outlineFrom_append [] 0 []
  · intro spelled
    rw [← spelled]
    cases closes_spell_outlineFrom word [] 0 with
    | done isForest => exact isForest

instance (word : Word) : Decidable word.IsForest :=
  decidable_of_iff _ isForest_iff_spell_outline.symm

instance (isKind : Symbol → Prop) [DecidablePred isKind] (word : Word) :
    Decidable (word.AtTips isKind) :=
  inferInstanceAs (Decidable (word.IsChain _))

end Word

namespace Production

/-- The symbol is the predecessor of a production. -/
def IsReplaceable (productions : List Production) (symbol : Symbol) : Prop :=
  ∃ production ∈ productions, production.predecessor = [symbol]

instance (productions : List Production) : DecidablePred (IsReplaceable productions) :=
  fun symbol => inferInstanceAs
    (Decidable (∃ production ∈ productions, production.predecessor = [symbol]))

/-- Productions that replace single symbols, none of them a bracket, by a text and trees.
In the successors, the symbols that can be replaced are at the ends of texts. -/
structure GrowAtTips (productions : List Production) : Prop where
  single : ∀ production ∈ productions, ∃ symbol,
    production.predecessor = [symbol] ∧ Word.isBracket symbol = false
  successor : ∀ production ∈ productions, ∃ text forest,
    production.successor = text ++ forest ∧ text.IsText ∧ forest.IsForest
  atTips : ∀ production ∈ productions, production.successor.AtTips (IsReplaceable productions)

end Production

/-- A species that starts from trees and grows at their tips. -/
structure Species.GrowsAtTips (species : Species) : Prop where
  productions : Production.GrowAtTips species.productions
  initiator : species.initiator.IsForest
  atTips : species.initiator.AtTips (Production.IsReplaceable species.productions)

/-! ## Readings symbol by symbol -/

namespace Piece

open Production

variable {productions : List Production} {word : Word} {pieces : List Piece}

theorem Reading.eq_nil (growAtTips : GrowAtTips productions)
    (reading : Reading productions [] pieces) : pieces = [] := by
  generalize empty : ([] : Word) = word at reading
  cases reading with
  | nil => rfl
  | copied _ _ => cases empty
  | replaced listed _ =>
      rcases growAtTips.single _ listed with ⟨symbol, predecessor, -⟩
      rw [predecessor] at empty
      cases empty

/-- The first piece of a word is its first symbol, copied or replaced. -/
theorem Reading.exists_cons (growAtTips : GrowAtTips productions) {symbol : Symbol}
    {rest : Word} (reading : Reading productions (symbol :: rest) pieces) :
    ∃ piece later, pieces = piece :: later ∧ Reading productions rest later ∧
      (piece = .copied symbol ∨
        ∃ production ∈ productions, production.predecessor = [symbol] ∧
          piece = .replaced production) := by
  generalize whole : symbol :: rest = word at reading
  cases reading with
  | nil => cases whole
  | copied _ later =>
      cases whole
      exact ⟨_, _, rfl, later, .inl rfl⟩
  | @replaced production _ _ listed later =>
      rcases growAtTips.single _ listed with ⟨first, predecessor, -⟩
      rw [predecessor] at whole
      cases whole
      exact ⟨_, _, rfl, later, .inr ⟨production, listed, predecessor, rfl⟩⟩

theorem Reading.exists_bracket (growAtTips : GrowAtTips productions) {symbol : Symbol}
    (bracket : Word.isBracket symbol = true) {rest : Word}
    (reading : Reading productions (symbol :: rest) pieces) :
    ∃ later, pieces = .copied symbol :: later ∧ Reading productions rest later := by
  rcases reading.exists_cons growAtTips with
    ⟨_, later, rfl, readsRest, rfl | ⟨production, listed, predecessor, -⟩⟩
  · exact ⟨later, rfl, readsRest⟩
  · rcases growAtTips.single _ listed with ⟨first, single, plain⟩
    cases predecessor.symm.trans single
    rw [bracket] at plain
    cases plain

/-- A word that is put together is read part by part. -/
theorem Reading.exists_append (growAtTips : GrowAtTips productions) (left : Word) :
    {right : Word} → {pieces : List Piece} → Reading productions (left ++ right) pieces →
      ∃ first second, pieces = first ++ second ∧ Reading productions left first ∧
        Reading productions right second := by
  induction left with
  | nil =>
      intro right pieces reading
      exact ⟨[], pieces, rfl, .nil, reading⟩
  | cons symbol left ih =>
      intro right pieces reading
      rcases reading.exists_cons growAtTips with ⟨piece, later, rfl, readsLater, read⟩
      rcases ih readsLater with ⟨first, second, rfl, readsLeft, readsRight⟩
      refine ⟨piece :: first, second, rfl, ?_, readsRight⟩
      rcases read with rfl | ⟨production, listed, predecessor, rfl⟩
      · exact .copied symbol readsLeft
      · have reads := Reading.replaced listed readsLeft
        rwa [predecessor] at reads

/-! ## What becomes of texts and trees -/

/-- Of a text whose last symbol alone can be replaced, a text with trees remains. -/
theorem exists_text_of_reading (growAtTips : GrowAtTips productions) (text : Word) :
    {pieces : List Piece} → text.IsText → text.AtTips (IsReplaceable productions) →
      Reading productions text pieces →
      ∃ newText forest : Word, pieces.flatMap result = newText ++ forest ∧ newText.IsText ∧
        forest.IsForest := by
  have noText : Word.IsText [] := List.forall_mem_nil _
  induction text with
  | nil =>
      intro pieces _ _ reading
      rw [reading.eq_nil growAtTips]
      exact ⟨[], [], rfl, noText, .nil⟩
  | cons symbol text ih =>
      intro pieces isText atTips reading
      rcases Word.isText_cons.mp isText with ⟨plain, others⟩
      rcases reading.exists_cons growAtTips with ⟨piece, later, rfl, readsLater, read⟩
      rcases read with rfl | ⟨production, listed, predecessor, rfl⟩
      · rcases ih others atTips.tail readsLater with ⟨newText, forest, equal, isNewText, isForest⟩
        refine ⟨symbol :: newText, forest, ?_, Word.isText_cons.mpr ⟨plain, isNewText⟩, isForest⟩
        rw [List.flatMap_cons, equal]
        rfl
      · -- No text can follow on a symbol that is replaced.
        have last : text = [] := by
          cases text with
          | nil => rfl
          | cons next text =>
              have bracket := atTips.rel ⟨production, listed, predecessor⟩
              rw [(Word.isText_cons.mp others).1] at bracket
              cases bracket
        subst last
        rw [readsLater.eq_nil growAtTips]
        simpa [result] using growAtTips.successor production listed

/-- Trees remain trees. -/
theorem isForest_of_reading (growAtTips : GrowAtTips productions) (isForest : word.IsForest) :
    {pieces : List Piece} → word.AtTips (IsReplaceable productions) →
      Reading productions word pieces → Word.IsForest (pieces.flatMap result) := by
  induction isForest with
  | nil =>
      intro pieces _ reading
      rw [reading.eq_nil growAtTips]
      exact .nil
  | @cons text inner rest isText _ _ innerIH restIH =>
      intro pieces atTips reading
      have shape : '[' :: text ++ inner ++ ']' :: rest =
          '[' :: (text ++ (inner ++ ']' :: rest)) := by simp
      rw [shape] at atTips reading
      rcases reading.exists_bracket growAtTips rfl with ⟨_, rfl, readsTree⟩
      rcases readsTree.exists_append growAtTips text with ⟨textPieces, _, rfl, readsText, readsOn⟩
      rcases readsOn.exists_append growAtTips inner with
        ⟨innerPieces, _, rfl, readsInner, readsClosing⟩
      rcases readsClosing.exists_bracket growAtTips rfl with ⟨restPieces, rfl, readsRest⟩
      have treeTips : Word.AtTips _ (text ++ (inner ++ ']' :: rest)) := atTips.tail
      have onTips := treeTips.right_of_append
      have restTips : Word.AtTips _ rest := onTips.right_of_append.tail
      rcases exists_text_of_reading growAtTips text isText treeTips.left_of_append readsText with
        ⟨newText, forest, text_eq, isNewText, isForest⟩
      have newInner := isForest.append (innerIH onTips.left_of_append readsInner)
      have tree := Word.IsForest.cons isNewText newInner (restIH restTips readsRest)
      simpa [result, text_eq] using tree

/-- Where a word begins with a bracket, so does what becomes of it. -/
theorem head?_flatMap_result (growAtTips : GrowAtTips productions)
    (bracketed : ∀ symbol ∈ word.head?, Word.isBracket symbol = true)
    (reading : Reading productions word pieces) :
    (pieces.flatMap result).head? = word.head? := by
  cases word with
  | nil => rw [reading.eq_nil growAtTips]; rfl
  | cons symbol rest =>
      rcases reading.exists_bracket growAtTips (bracketed symbol rfl) with ⟨later, rfl, -⟩
      rfl

/-- What can be replaced remains at the ends of texts. -/
theorem atTips_of_reading (growAtTips : GrowAtTips productions) (word : Word) :
    {pieces : List Piece} → word.AtTips (IsReplaceable productions) →
      Reading productions word pieces →
      Word.AtTips (IsReplaceable productions) (pieces.flatMap result) := by
  induction word with
  | nil =>
      intro pieces _ reading
      rw [reading.eq_nil growAtTips]
      exact .nil
  | cons symbol rest ih =>
      intro pieces atTips reading
      rcases reading.exists_cons growAtTips with ⟨piece, later, rfl, readsLater, read⟩
      have laterTips := ih atTips.tail readsLater
      have followed : IsReplaceable productions symbol →
          ∀ next ∈ (later.flatMap result).head?, Word.isBracket next = true := by
        intro replaceable
        have bracketed : ∀ next ∈ rest.head?, Word.isBracket next = true := by
          intro next isNext
          exact (List.isChain_cons.mp atTips).1 next isNext replaceable
        rwa [head?_flatMap_result growAtTips bracketed readsLater]
      rw [List.flatMap_cons]
      rcases read with rfl | ⟨production, listed, predecessor, rfl⟩
      · refine List.isChain_cons.mpr ⟨?_, laterTips⟩
        intro next isNext replaceable
        exact followed replaceable next isNext
      · refine List.isChain_append.mpr ⟨growAtTips.atTips production listed, laterTips, ?_⟩
        intro last _ next isNext _
        exact followed ⟨production, listed, predecessor⟩ next isNext

end Piece

namespace Species

/-- The bracket that may be put around the initiator makes it a tree. -/
theorem GrowsAtTips.enclosed {species : Species} (growsAtTips : species.GrowsAtTips) :
    species.initiator.enclosed.IsForest ∧
      species.initiator.enclosed.AtTips (Production.IsReplaceable species.productions) := by
  have isForest := growsAtTips.initiator
  have atTips := growsAtTips.atTips
  generalize species.initiator = initiator at isForest atTips ⊢
  cases isForest with
  | nil =>
      refine ⟨by decide, ?_⟩
      exact List.isChain_pair.mpr fun _ => rfl
  | cons isText isInner isRest => exact ⟨.cons isText isInner isRest, atTips⟩

/-- The presets start from one tree, and their successors are trees in which the symbol that
is replaced stands before a closing bracket. -/
theorem growsAtTips_of_preset :
    ∀ species ∈ [rigidShrub, tangle, leafyTree], species.GrowsAtTips := by
  have starts : ∀ species ∈ [rigidShrub, tangle, leafyTree], species.initiator.IsForest ∧
      species.initiator.AtTips (Production.IsReplaceable species.productions) := by decide
  have grows : ∀ species ∈ [rigidShrub, tangle, leafyTree],
      ∀ production ∈ species.productions, production.predecessor = ['A'] ∧
        production.successor.IsForest ∧
        production.successor.AtTips (Production.IsReplaceable species.productions) := by decide
  intro species preset
  refine ⟨⟨?_, ?_, ?_⟩, (starts species preset).1, (starts species preset).2⟩
  · intro production listed
    exact ⟨'A', (grows species preset production listed).1, rfl⟩
  · intro production listed
    have isForest := (grows species preset production listed).2.1
    exact ⟨[], production.successor, rfl, List.forall_mem_nil _, isForest⟩
  · intro production listed
    exact (grows species preset production listed).2.2

end Species

namespace Plant

/-- The crown stands for the whole word if that is made of trees. -/
theorem IsAligned.toWord_eq {plant : Plant} (aligned : plant.IsAligned)
    (isForest : plant.word.IsForest) : plant.crown.toWord = plant.word := by
  rw [Crown.toWord, Crown.wordFrom_eq_spell, aligned]
  exact Word.isForest_iff_spell_outline.mp isForest

theorem isForest_invariant {productions : List Production}
    (growAtTips : Production.GrowAtTips productions) :
    Invariant fun plant => plant.species.productions = productions ∧ plant.word.IsForest ∧
      plant.word.AtTips (Production.IsReplaceable productions) where
  grow _ _ holds := holds
  advance {plant _ draws} advances holds := by
    rcases advance?_eq_some_iff.mp advances with ⟨-, rfl⟩
    rcases holds with ⟨rfl, isForest, atTips⟩
    have reading := Piece.reading_cut plant.species.productions plant.word draws
    exact ⟨rfl, Piece.isForest_of_reading growAtTips isForest atTips reading,
      Piece.atTips_of_reading growAtTips plant.word atTips reading⟩

/-- Of a species that grows at tips, every plant has a word that its crown can spell,
whatever is done and drawn. -/
theorem toWord_run_eq_word (species : Species) (growsAtTips : species.GrowsAtTips)
    (point : Vec3) (actions : List Action) (draws : Draws) :
    let plant := ((sow species point).run actions draws).1.plant
    plant.crown.toWord = plant.word := by
  intro plant
  have start : (sow species point).species.productions = species.productions ∧
      (sow species point).word.IsForest ∧
      (sow species point).word.AtTips (Production.IsReplaceable species.productions) :=
    ⟨rfl, growsAtTips.enclosed⟩
  have holds := (isForest_invariant growsAtTips.productions).run actions draws start
  exact (isAligned_run species point actions draws).toWord_eq holds.2.1

/-- In the second generation of a tangle, one of the three places for new branches stays as
it is, because its draw fails. -/
theorem toWord_tangle_eq_word :
    let plant := ((sow Species.tangle ⟨1, 0, 2⟩).run [.update .noon, .advance]
      (Draws.ofSeed 7)).1.plant
    plant.word =
        "[F[+/F[+/FA][-&FA][\\^FA]][-&F[+/FA][-&FA][\\^FA]][\\^FA]]".toList ∧
      plant.crown.toWord = plant.word := by
  intro plant
  refine ⟨by decide +kernel, ?_⟩
  exact toWord_run_eq_word Species.tangle (Species.growsAtTips_of_preset _ (by simp)) _ _ _

end Plant

end Arbor
