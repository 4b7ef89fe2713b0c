import Arbor.Derivation

/-!
# How a generation reads a word

A generation reads a word in pieces: it copies a symbol, or it passes over a whole
predecessor.  What it writes, and what it reports, is a function of the list of its
pieces, however the scan keeps account of it.

Productions may read a word in certain pieces whatever the draws decide between the
two kinds.  Every cut of a word is such a reading; what holds of all readings
therefore holds of every generation, whatever is drawn.
-/

namespace Arbor

/-- A piece of a word as one generation reads it. -/
inductive Piece where
  | copied (symbol : Symbol)
  | replaced (production : Production)
  deriving DecidableEq, Inhabited, Repr

namespace Piece

/-- What the piece was in the old word. -/
def source : Piece → Word
  | copied symbol => [symbol]
  | replaced production => production.predecessor

/-- What the piece becomes in the new word. -/
def result : Piece → Word
  | copied symbol => [symbol]
  | replaced production => production.successor

/-- Whether a production has fired for the piece. -/
def isReplaced : Piece → Bool
  | copied _ => false
  | replaced _ => true

/-- Cut the rest of a word into pieces.  The first `covered` symbols belong to
the predecessor that was replaced last. -/
def cutFrom (productions : List Production) (covered : Nat) : Word → Drawing (List Piece)
  | [] => pure []
  | symbol :: rest =>
      match covered with
      | covered + 1 => cutFrom productions covered rest
      | 0 =>
          match Production.candidate? productions (symbol :: rest) with
          | none => do
              let pieces ← cutFrom productions 0 rest
              pure (copied symbol :: pieces)
          | some production => do
              let fired ← production.fires
              if fired then
                let pieces ← cutFrom productions (production.predecessor.length - 1) rest
                pure (replaced production :: pieces)
              else
                let pieces ← cutFrom productions 0 rest
                pure (copied symbol :: pieces)

/-- Cut a whole word into pieces, with the draws that the uncertain productions need. -/
def cut (productions : List Production) (word : Word) : Drawing (List Piece) :=
  cutFrom productions 0 word

end Piece

namespace Generation

/-- The groups of new branches that the pieces bring, after `emitted` branches
of the new word. -/
def buddingsFrom (emitted : Nat) : List Piece → List Budding
  | [] => []
  | .copied symbol :: rest =>
      buddingsFrom (emitted + Word.branchCount [symbol]) rest
  | .replaced production :: rest =>
      if production.branchCount = 0 then
        buddingsFrom emitted rest
      else
        ⟨production.branchCount, emitted⟩ ::
          buddingsFrom (emitted + production.branchCount) rest

/-- The generation that reads a word in the given pieces. -/
def ofPieces (pieces : List Piece) : Generation where
  word := pieces.flatMap Piece.result
  buddings := buddingsFrom 0 pieces
  substitutions := pieces.countP Piece.isReplaced

end Generation

/-! ## The scan -/

namespace Scan

/-- Go on by one piece. -/
def take (scan : Scan) : Piece → Scan
  | .copied symbol => scan.copy symbol
  | .replaced production => scan.replace production

/-- The scan takes the pieces into which the rest of the word is cut, one after the other. -/
theorem read_eq_foldl (productions : List Production) (word : Word) :
    (scan : Scan) → (covered : Nat) →
      scan.read productions covered word =
        List.foldl take scan <$> Piece.cutFrom productions covered word := by
  induction word with
  | nil =>
      intro scan covered
      rfl
  | cons symbol rest ih =>
      intro scan covered
      cases covered with
      | succ covered => exact ih scan covered
      | zero =>
          rw [read, Piece.cutFrom]
          cases Production.candidate? productions (symbol :: rest) with
          | none => simp [ih, take]
          | some production =>
              simp only [map_bind]
              congr 1
              funext fired
              cases fired <;> simp [ih, take]

/-! What has been written after some pieces is what was written before them, and what
they bring. -/

theorem emitted_copy (scan : Scan) (symbol : Symbol) :
    (scan.copy symbol).emitted = scan.emitted + Word.branchCount [symbol] := by
  rw [copy, Word.branchCount_cons, Word.branchCount_nil, Nat.zero_add]
  split <;> rfl

theorem output_foldl_take (scan : Scan) (pieces : List Piece) :
    (pieces.foldl take scan).output.toList =
      scan.output.toList ++ pieces.flatMap Piece.result := by
  induction pieces generalizing scan with
  | nil => simp
  | cons piece rest ih =>
      rw [List.foldl_cons, ih]
      cases piece <;> simp [take, copy, replace, Piece.result]

/-- The number of emitted branches is the position at which a new group enters. -/
theorem buddings_foldl_take (scan : Scan) (pieces : List Piece) :
    (pieces.foldl take scan).buddings.toList =
      scan.buddings.toList ++ Generation.buddingsFrom scan.emitted pieces := by
  induction pieces generalizing scan with
  | nil => simp [Generation.buddingsFrom]
  | cons piece rest ih =>
      rw [List.foldl_cons, ih]
      cases piece with
      | copied symbol => rw [take, emitted_copy, Generation.buddingsFrom, copy]
      | replaced production =>
          by_cases none : production.branchCount = 0
          · simp [take, replace, Generation.buddingsFrom, none]
          · simp [take, replace, Generation.buddingsFrom, none, Nat.pos_of_ne_zero none]

theorem substitutions_foldl_take (scan : Scan) (pieces : List Piece) :
    (pieces.foldl take scan).substitutions =
      scan.substitutions + pieces.countP Piece.isReplaced := by
  induction pieces generalizing scan with
  | nil => rfl
  | cons piece rest ih =>
      rw [List.foldl_cons, ih]
      cases piece with
      | copied symbol => rfl
      | replaced production =>
          rw [List.countP_cons_of_pos (by rfl), take, replace, Nat.add_assoc,
            Nat.add_comm 1]

theorem generation_foldl_take (pieces : List Piece) :
    (pieces.foldl take start).generation = Generation.ofPieces pieces := by
  rw [generation, output_foldl_take, buddings_foldl_take, substitutions_foldl_take]
  simp [start, Generation.ofPieces]

end Scan

/-- A generation is that of the pieces into which the word is cut. -/
theorem Generation.next_eq_ofPieces (productions : List Production) (word : Word) :
    next productions word = ofPieces <$> Piece.cut productions word := by
  simp [next, Piece.cut, Scan.read_eq_foldl, Scan.generation_foldl_take]

/-- A generation draws what the cut of the word draws. -/
theorem Generation.next_apply (productions : List Production) (word : Word) (draws : Draws) :
    next productions word draws =
      (ofPieces (Piece.cut productions word draws).1,
        (Piece.cut productions word draws).2) := by
  rw [next_eq_ofPieces, Drawing.map_apply]

/-! ## Readings -/

namespace Piece

/-- Productions may read a word in the given pieces. -/
inductive Reading (productions : List Production) : Word → List Piece → Prop where
  | nil : Reading productions [] []
  | copied (symbol : Symbol) {rest : Word} {pieces : List Piece} :
      Reading productions rest pieces →
      Reading productions (symbol :: rest) (copied symbol :: pieces)
  | replaced {production : Production} {rest : Word} {pieces : List Piece} :
      production ∈ productions →
      Reading productions rest pieces →
      Reading productions (production.predecessor ++ rest) (replaced production :: pieces)

variable {productions : List Production} {word : Word} {pieces : List Piece}

namespace Reading

/-- The pieces of a word make up the word. -/
theorem flatMap_source (reading : Reading productions word pieces) :
    pieces.flatMap source = word := by
  induction reading with
  | nil => rfl
  | copied symbol _ ih => simp [source, ih]
  | replaced _ _ ih => simp [source, ih]

end Reading

/-- An applicable production is listed and begins the word. -/
theorem exists_eq_append_of_candidate? {production : Production}
    (candidate : Production.candidate? productions word = some production) :
    production ∈ productions ∧ production.predecessor ≠ [] ∧
      ∃ rest, word = production.predecessor ++ rest := by
  have applies := List.find?_some candidate
  simp only [Production.applies, ne_eq, Bool.and_eq_true, decide_eq_true_eq] at applies
  refine ⟨List.mem_of_find?_eq_some candidate, applies.1, ?_⟩
  rcases List.isPrefixOf_iff_prefix.mp applies.2 with ⟨rest, equal⟩
  exact ⟨rest, equal.symm⟩

/-- What the cut of a word leaves after covered symbols is a reading of the rest. -/
theorem reading_cutFrom (productions : List Production) :
    (word : Word) → (covered : Nat) → (draws : Draws) →
      Reading productions (word.drop covered) (cutFrom productions covered word draws).1 := by
  intro word
  induction word with
  | nil =>
      intro covered draws
      simpa [cutFrom] using Reading.nil
  | cons symbol rest ih =>
      intro covered draws
      cases covered with
      | succ covered => exact ih covered draws
      | zero =>
          have copies : ∀ draws, Reading productions (symbol :: rest)
              (copied symbol :: (cutFrom productions 0 rest draws).1) := by
            intro draws
            exact .copied symbol (ih 0 draws)
          simp only [List.drop_zero, cutFrom]
          cases candidate : Production.candidate? productions (symbol :: rest) with
          | none => exact copies draws
          | some production =>
              rcases exists_eq_append_of_candidate? candidate with
                ⟨listed, nonempty, remaining, equal⟩
              simp only [Drawing.bind_apply]
              split
              · have later := ih (production.predecessor.length - 1) (production.fires draws).2
                have remainingEq :
                    rest.drop (production.predecessor.length - 1) = remaining := by
                  cases shape : production.predecessor with
                  | nil => exact absurd shape nonempty
                  | cons first others =>
                      rw [shape] at equal
                      have restEq := (List.cons.inj equal).2
                      simp [restEq]
                rw [remainingEq] at later
                rw [equal]
                exact .replaced listed later
              · exact copies _

/-- Every cut of a word is a reading of it. -/
theorem reading_cut (productions : List Production) (word : Word) (draws : Draws) :
    Reading productions word (cut productions word draws).1 :=
  reading_cutFrom productions word 0 draws

end Piece

end Arbor
