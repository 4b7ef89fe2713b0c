import Arbor.Proofs.Derivation

/-!
# Words whose brackets have owners

A marking is a word in which every opening bracket carries an owner.  When a
generation reads the word, a bracket that is copied takes its owner along, and the
brackets of a successor get fresh owners.  This says what becomes of an owner without
counting brackets, and so it is what the crown of a plant can be compared with.
-/

namespace Arbor

/-- A symbol of a word.  Opening brackets have an owner. -/
inductive Mark (Owner : Type) where
  | opening (owner : Owner)
  | plain (symbol : Symbol) (notOpening : symbol ≠ '[')

/-- A word in which every opening bracket has an owner. -/
abbrev Marking (Owner : Type) := List (Mark Owner)

variable {Owner Value Result : Type}

namespace Mark

/-- The symbol without its owner. -/
def symbol : Mark Owner → Symbol
  | opening _ => '['
  | plain symbol _ => symbol

/-- The owner of an opening bracket. -/
def owner? : Mark Owner → Option Owner
  | opening owner => some owner
  | plain _ _ => none

end Mark

namespace Marking

/-- The word without the owners. -/
def word (marking : Marking Owner) : Word :=
  marking.map Mark.symbol

/-- The owners, in the order of their brackets. -/
def owners (marking : Marking Owner) : List Owner :=
  marking.filterMap Mark.owner?

/-- The marking of a word whose brackets are owned, from left to right, by the
values of a function from `first` on. -/
def number (owner : Nat → Owner) (first : Nat) : Word → Marking Owner
  | [] => []
  | symbol :: rest =>
      if notOpening : symbol = '[' then
        .opening (owner first) :: number owner (first + 1) rest
      else
        .plain symbol notOpening :: number owner first rest

/-- Combine the owners with the values of a list, in order.  The marking ends
where the values run out. -/
def zipWith (combine : Owner → Value → Result) : Marking Owner → List Value → Marking Result
  | .opening owner :: rest, value :: values =>
      .opening (combine owner value) :: zipWith combine rest values
  | .plain symbol notOpening :: rest, values =>
      .plain symbol notOpening :: zipWith combine rest values
  | .opening _ :: _, [] => []
  | [], _ => []

/-- What becomes of a marking in a generation that reads its word in the given
pieces.  The first `allocated` fresh owners have already been given away. -/
def derive (fresh : Nat → Owner) (allocated : Nat) : List Piece → Marking Owner → Marking Owner
  | [], _ => []
  | .copied _ :: pieces, marking =>
      marking.take 1 ++ derive fresh allocated pieces (marking.drop 1)
  | .replaced production :: pieces, marking =>
      number fresh allocated production.successor ++
        derive fresh (allocated + production.branchCount) pieces
          (marking.drop production.predecessor.length)

/-! ## Words and owners -/

@[simp] theorem word_nil : word ([] : Marking Owner) = [] := rfl

@[simp] theorem word_cons (mark : Mark Owner) (rest : Marking Owner) :
    word (mark :: rest) = mark.symbol :: word rest := rfl

@[simp] theorem word_append (left right : Marking Owner) :
    word (left ++ right) = word left ++ word right := by
  simp [word]

@[simp] theorem length_word (marking : Marking Owner) :
    (word marking).length = marking.length := by
  simp [word]

@[simp] theorem owners_nil : owners ([] : Marking Owner) = [] := rfl

@[simp] theorem owners_opening (owner : Owner) (rest : Marking Owner) :
    owners (.opening owner :: rest) = owner :: owners rest := rfl

@[simp] theorem owners_plain (symbol : Symbol) (notOpening : symbol ≠ '[')
    (rest : Marking Owner) : owners (.plain symbol notOpening :: rest) = owners rest := rfl

@[simp] theorem owners_append (left right : Marking Owner) :
    owners (left ++ right) = owners left ++ owners right := by
  simp [owners]

/-- Every opening bracket has exactly one owner. -/
@[simp] theorem length_owners (marking : Marking Owner) :
    (owners marking).length = (word marking).branchCount := by
  induction marking with
  | nil => rfl
  | cons mark rest ih =>
      cases mark with
      | opening owner => simp [Word.branchCount_cons, Mark.symbol, ih]
      | plain symbol notOpening =>
          simp [Word.branchCount_cons, Mark.symbol, notOpening, ih]

/-- Without opening brackets there are no owners. -/
theorem owners_eq_nil {marking : Marking Owner} (unbracketed : '[' ∉ word marking) :
    owners marking = [] := by
  rw [← List.length_eq_zero_iff, length_owners, Word.branchCount, List.count_eq_zero]
  exact unbracketed

@[simp] theorem word_number (owner : Nat → Owner) (text : Word) :
    (first : Nat) → word (number owner first text) = text := by
  induction text with
  | nil =>
      intro first
      rfl
  | cons symbol rest ih =>
      intro first
      by_cases opening : symbol = '['
      · simp [number, opening, Mark.symbol, ih]
      · simp [number, opening, Mark.symbol, ih]

@[simp] theorem owners_number (owner : Nat → Owner) (text : Word) :
    (first : Nat) →
      owners (number owner first text) = (List.range' first text.branchCount).map owner := by
  induction text with
  | nil =>
      intro first
      rfl
  | cons symbol rest ih =>
      intro first
      by_cases opening : symbol = '['
      · simp [number, opening, Word.branchCount_cons, List.range'_succ, ih]
      · simp [number, opening, Word.branchCount_cons, ih]

theorem number_append (owner : Nat → Owner) (left right : Word) :
    (first : Nat) →
      number owner first (left ++ right) =
        number owner first left ++ number owner (first + left.branchCount) right := by
  induction left with
  | nil =>
      intro first
      rfl
  | cons symbol rest ih =>
      intro first
      by_cases opening : symbol = '['
      · simp [number, opening, ih, Word.branchCount_cons, Nat.add_assoc, Nat.add_comm 1]
      · simp [number, opening, ih, Word.branchCount_cons]

theorem take_number (owner : Nat → Owner) (text : Word) :
    (first count : Nat) →
      (number owner first text).take count = number owner first (text.take count) := by
  induction text with
  | nil =>
      intro first count
      simp [number]
  | cons symbol rest ih =>
      intro first count
      cases count with
      | zero => rfl
      | succ count =>
          by_cases opening : symbol = '['
          · simp [number, opening, ih]
          · simp [number, opening, ih]

/-- A list with one value for each bracket is the list of owners of some marking. -/
theorem owners_number_getD [Inhabited Owner] {text : Word} {values : List Owner}
    (enough : values.length = text.branchCount) :
    owners (number (fun ordinal => values.getD ordinal default) 0 text) = values := by
  rw [owners_number, ← enough]
  apply List.ext_getElem
  · simp
  · intro index _ inRange
    simp [inRange]

@[simp] theorem owners_zipWith (combine : Owner → Value → Result) (marking : Marking Owner) :
    (values : List Value) →
      owners (zipWith combine marking values) =
        List.zipWith combine (owners marking) values := by
  induction marking with
  | nil =>
      intro values
      simp [zipWith]
  | cons mark rest ih =>
      intro values
      cases mark with
      | plain symbol notOpening => simp [zipWith, ih]
      | opening owner =>
          cases values with
          | nil => simp [zipWith]
          | cons value values => simp [zipWith, ih]

theorem word_zipWith (combine : Owner → Value → Result) (marking : Marking Owner) :
    (values : List Value) → (owners marking).length ≤ values.length →
      word (zipWith combine marking values) = word marking := by
  induction marking with
  | nil =>
      intro values enough
      rfl
  | cons mark rest ih =>
      intro values enough
      cases mark with
      | plain symbol notOpening =>
          rw [owners_plain] at enough
          simp [zipWith, Mark.symbol, ih values enough]
      | opening owner =>
          cases values with
          | nil => simp at enough
          | cons value values =>
              simp only [owners_opening, List.length_cons, Nat.add_le_add_iff_right] at enough
              simp [zipWith, Mark.symbol, ih values enough]

/-! ## Readings of markings -/

/-- Productions may read a marking in the given pieces. -/
inductive Reading (productions : List Production) : Marking Owner → List Piece → Prop where
  | nil : Reading productions [] []
  | copied (mark : Mark Owner) {rest : Marking Owner} {pieces : List Piece} :
      Reading productions rest pieces →
      Reading productions (mark :: rest) (.copied mark.symbol :: pieces)
  | replaced {production : Production} {before rest : Marking Owner} {pieces : List Piece} :
      production ∈ productions → word before = production.predecessor →
      Reading productions rest pieces →
      Reading productions (before ++ rest) (.replaced production :: pieces)

variable {productions : List Production} {pieces : List Piece} {marking : Marking Owner}

/-- A reading of the word of a marking reads the marking. -/
theorem reading_of_word {text : Word} (reading : Piece.Reading productions text pieces) :
    (marking : Marking Owner) → word marking = text → Reading productions marking pieces := by
  induction reading with
  | nil =>
      intro marking same
      cases marking with
      | nil => exact .nil
      | cons mark rest => simp at same
  | copied symbol _ ih =>
      intro marking same
      cases marking with
      | nil => simp at same
      | cons mark rest =>
          rw [word_cons] at same
          rcases List.cons.inj same with ⟨rfl, restEq⟩
          exact .copied mark (ih rest restEq)
  | replaced listed _ ih =>
      intro marking same
      rcases List.map_eq_append_iff.mp same with ⟨before, rest, rfl, beforeEq, restEq⟩
      exact .replaced listed beforeEq (ih rest restEq)

/-- Every cut of the word of a marking reads the marking. -/
theorem reading_cut (productions : List Production) (marking : Marking Owner) (draws : Draws) :
    Reading productions marking (Piece.cut productions (word marking) draws).1 :=
  reading_of_word (Piece.reading_cut productions (word marking) draws) marking rfl

theorem flatMap_source (reading : Reading productions marking pieces) :
    pieces.flatMap Piece.source = word marking := by
  induction reading with
  | nil => rfl
  | copied mark _ ih => simp [Piece.source, ih]
  | replaced _ beforeEq _ ih => simp [Piece.source, ih, beforeEq]

@[simp] theorem derive_nil (fresh : Nat → Owner) (allocated : Nat) (marking : Marking Owner) :
    derive fresh allocated [] marking = [] := rfl

@[simp] theorem derive_copied (fresh : Nat → Owner) (allocated : Nat) (symbol : Symbol)
    (pieces : List Piece) (mark : Mark Owner) (rest : Marking Owner) :
    derive fresh allocated (.copied symbol :: pieces) (mark :: rest) =
      mark :: derive fresh allocated pieces rest := rfl

theorem derive_replaced (fresh : Nat → Owner) (allocated : Nat) {production : Production}
    (pieces : List Piece) {before : Marking Owner} (rest : Marking Owner)
    (beforeEq : word before = production.predecessor) :
    derive fresh allocated (.replaced production :: pieces) (before ++ rest) =
      number fresh allocated production.successor ++
        derive fresh (allocated + production.branchCount) pieces rest := by
  have length : production.predecessor.length = before.length := by
    rw [← beforeEq, length_word]
  simp [derive, length]

/-- The derived marking is one of the derived word. -/
theorem word_derive (reading : Reading productions marking pieces) (fresh : Nat → Owner) :
    (allocated : Nat) →
      word (derive fresh allocated pieces marking) = pieces.flatMap Piece.result := by
  induction reading with
  | nil =>
      intro allocated
      rfl
  | copied mark _ ih =>
      intro allocated
      simp [Piece.result, ih]
  | replaced _ beforeEq _ ih =>
      intro allocated
      rw [derive_replaced _ _ _ _ beforeEq]
      simp [Piece.result, ih]

/-- An owner in the derived marking is fresh or has been there before. -/
theorem mem_owners_derive (reading : Reading productions marking pieces)
    (fresh : Nat → Owner) (owner : Owner) :
    (allocated : Nat) → owner ∈ owners (derive fresh allocated pieces marking) →
      (∃ number, owner = fresh number) ∨ owner ∈ owners marking := by
  induction reading with
  | nil =>
      intro allocated member
      simp at member
  | copied mark _ ih =>
      intro allocated member
      rw [derive_copied] at member
      cases mark with
      | plain symbol notOpening => exact ih allocated member
      | opening kept =>
          rcases List.mem_cons.mp member with rfl | inRest
          · exact Or.inr List.mem_cons_self
          · apply (ih allocated inRest).imp_right
            exact List.mem_cons_of_mem kept
  | replaced _ beforeEq _ ih =>
      intro allocated member
      rw [derive_replaced _ _ _ _ beforeEq, owners_append, owners_number] at member
      rw [owners_append]
      rcases List.mem_append.mp member with inSuccessor | inRest
      · rcases List.mem_map.mp inSuccessor with ⟨number, _, equal⟩
        exact Or.inl ⟨number, equal.symm⟩
      · apply (ih _ inRest).imp_right
        exact List.mem_append_right _

end Marking

end Arbor
