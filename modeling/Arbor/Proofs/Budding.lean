import Arbor.Plant
import Arbor.Proofs.Derivation

/-!
# How buds enter a crown

The buddings of a generation are positions in the new word, while the crown that
they are applied to still has the branches of the old one.  Their joint effect is
that the copied brackets take the old branches in order, the brackets of successors
take buds, and the old branches that no copied bracket has taken remain at the end.
-/

namespace Arbor

/-- The part of a branch that does not depend on the place of its bracket. -/
structure Record where
  id : UInt32
  creationDepth : Nat
  nodes : List Vec3
  leaves : List Leaf
  deriving DecidableEq, Inhabited, Repr

/-- The identity and the geometry of a branch, without its bracket. -/
def Branch.record (branch : Branch) : Record :=
  ⟨branch.id, branch.creationDepth, branch.nodes, branch.leaves⟩

namespace Record

/-- The record of a branch that has not grown. -/
def ungrown (id : UInt32) (creationDepth : Nat) : Record :=
  ⟨id, creationDepth, [], []⟩

/-- The branch that a record makes at an opening bracket. -/
def branchAt (record : Record) (opening : Opening) : Branch :=
  ⟨record.id, record.creationDepth, opening.label, opening.nesting, opening.parent,
    record.nodes, record.leaves⟩

theorem branchAt_record (branch : Branch) (opening : Opening) :
    branch.record.branchAt opening = branch.place opening := rfl

/-- A branch is determined by its record and its bracket. -/
theorem zipWith_branchAt (branches : List Branch) :
    List.zipWith branchAt (branches.map Branch.record) (branches.map Branch.opening) =
      branches := by
  induction branches with
  | nil => rfl
  | cons branch rest ih => simp [ih, branchAt_record]

/-- A place does not change the record. -/
theorem map_record_zipWith_place (branches : List Branch) :
    (openings : List Opening) →
      (List.zipWith Branch.place branches openings).map Branch.record =
        (branches.map Branch.record).take openings.length := by
  induction branches with
  | nil =>
      intro openings
      simp
  | cons branch rest ih =>
      intro openings
      cases openings with
      | nil => simp
      | cons opening openings => simp [ih, Branch.record, Branch.place]

end Record

namespace Piece

/-- What the piece brings into the word. -/
def begun : Piece → Word
  | copied _ => []
  | replaced production => production.successor

/-- What the piece removes from the word. -/
def consumed : Piece → Word
  | copied _ => []
  | replaced production => production.predecessor

/-- Deal the values of a queue to the copied brackets, in order, and fresh values to
the brackets of successors.  The rest of the queue follows. -/
def deal {Value : Type} (fresh : Nat → Value) (allocated : Nat) :
    List Piece → List Value → List Value
  | [], queue => queue
  | .copied symbol :: pieces, queue =>
      queue.take (Word.branchCount [symbol]) ++
        deal fresh allocated pieces (queue.drop (Word.branchCount [symbol]))
  | .replaced production :: pieces, queue =>
      (List.range' allocated production.branchCount).map fresh ++
        deal fresh (allocated + production.branchCount) pieces queue

/-! ## Counting brackets -/

theorem branchCount_singleton (symbol : Symbol) :
    Word.branchCount [symbol] = if symbol = '[' then 1 else 0 := by
  simp [Word.branchCount_cons]

/-- A bracket of either word is copied or belongs to a replaced piece. -/
private theorem branchCount_flatMap (whole part : Piece → Word)
    (copies : ∀ symbol, whole (copied symbol) = [symbol] ∧ part (copied symbol) = [])
    (replaces : ∀ production, whole (replaced production) = part (replaced production))
    (pieces : List Piece) :
    Word.branchCount (pieces.flatMap whole) =
      pieces.count (copied '[') + Word.branchCount (pieces.flatMap part) := by
  induction pieces with
  | nil => rfl
  | cons piece rest ih =>
      rw [List.flatMap_cons, List.flatMap_cons, Word.branchCount_append,
        Word.branchCount_append, ih, List.count_cons]
      cases piece with
      | copied symbol =>
          simp only [copies, branchCount_singleton, Word.branchCount_nil, beq_iff_eq,
            copied.injEq]
          omega
      | replaced production =>
          simp only [replaces, beq_iff_eq, reduceCtorEq, if_false]
          omega

/-- The brackets of the old word are copied or consumed. -/
theorem branchCount_flatMap_source (pieces : List Piece) :
    Word.branchCount (pieces.flatMap source) =
      pieces.count (copied '[') + Word.branchCount (pieces.flatMap consumed) :=
  branchCount_flatMap source consumed (fun _ => ⟨rfl, rfl⟩) (fun _ => rfl) pieces

/-- The brackets of the new word are copied or begun. -/
theorem branchCount_flatMap_result (pieces : List Piece) :
    Word.branchCount (pieces.flatMap result) =
      pieces.count (copied '[') + Word.branchCount (pieces.flatMap begun) :=
  branchCount_flatMap result begun (fun _ => ⟨rfl, rfl⟩) (fun _ => rfl) pieces

/-- Productions without opening brackets in their predecessors consume none. -/
theorem Reading.branchCount_consumed_eq_zero {productions : List Production} {word : Word}
    {pieces : List Piece} (reading : Reading productions word pieces)
    (unbracketed : ∀ production ∈ productions, '[' ∉ production.predecessor) :
    Word.branchCount (pieces.flatMap consumed) = 0 := by
  induction reading with
  | nil => rfl
  | copied symbol _ ih => exact ih
  | replaced listed _ ih =>
      rw [List.flatMap_cons, Word.branchCount_append, ih]
      exact List.count_eq_zero.mpr (unbracketed _ listed)

/-! ## Dealing -/

section Dealing

variable {Value Image : Type} (fresh : Nat → Value)

@[simp] theorem deal_nil (allocated : Nat) (queue : List Value) :
    deal fresh allocated [] queue = queue := rfl

@[simp] theorem deal_copied_opening (allocated : Nat) (pieces : List Piece) (value : Value)
    (queue : List Value) :
    deal fresh allocated (copied '[' :: pieces) (value :: queue) =
      value :: deal fresh allocated pieces queue := rfl

theorem deal_copied_plain (allocated : Nat) {symbol : Symbol} (notOpening : symbol ≠ '[')
    (pieces : List Piece) (queue : List Value) :
    deal fresh allocated (copied symbol :: pieces) queue =
      deal fresh allocated pieces queue := by
  simp [deal, branchCount_singleton, notOpening]

/-- Nothing of the queue is lost in dealing. -/
theorem length_deal (pieces : List Piece) :
    (allocated : Nat) → (queue : List Value) →
      (deal fresh allocated pieces queue).length =
        queue.length + Word.branchCount (pieces.flatMap begun) := by
  induction pieces with
  | nil =>
      intro allocated queue
      rfl
  | cons piece rest ih =>
      intro allocated queue
      rw [List.flatMap_cons, Word.branchCount_append]
      cases piece with
      | copied symbol =>
          simp only [deal, List.length_append, List.length_take, List.length_drop, ih, begun,
            Word.branchCount_nil]
          omega
      | replaced production =>
          simp only [deal, List.length_append, List.length_map, List.length_range', ih, begun,
            Production.branchCount]
          omega

/-- The queue and the fresh values are dealt, all of them and nothing else. -/
theorem perm_deal (pieces : List Piece) :
    (allocated : Nat) → (queue : List Value) →
      (deal fresh allocated pieces queue).Perm
        (queue ++
          (List.range' allocated (Word.branchCount (pieces.flatMap begun))).map fresh) := by
  induction pieces with
  | nil =>
      intro allocated queue
      simp
  | cons piece rest ih =>
      intro allocated queue
      rw [List.flatMap_cons, Word.branchCount_append]
      cases piece with
      | copied symbol =>
          have later := (ih allocated (queue.drop (Word.branchCount [symbol]))).append_left
            (queue.take (Word.branchCount [symbol]))
          rw [← List.append_assoc, List.take_append_drop] at later
          rw [begun, Word.branchCount_nil, Nat.zero_add]
          exact later
      | replaced production =>
          have later := (ih (allocated + production.branchCount) queue).append_left
            ((List.range' allocated production.branchCount).map fresh)
          have numbers := List.range'_append_1 (s := allocated) (m := production.branchCount)
            (n := Word.branchCount (rest.flatMap begun))
          rw [begun, ← Production.branchCount, ← numbers, List.map_append]
          exact later.trans (List.perm_append_comm_assoc _ _ _)

/-- The values of the queue stay in their order. -/
theorem sublist_deal (pieces : List Piece) :
    (allocated : Nat) → (queue : List Value) →
      queue.Sublist (deal fresh allocated pieces queue) := by
  induction pieces with
  | nil =>
      intro allocated queue
      exact List.Sublist.refl queue
  | cons piece rest ih =>
      intro allocated queue
      cases piece with
      | copied symbol =>
          have later := (ih allocated (queue.drop (Word.branchCount [symbol]))).append_left
            (queue.take (Word.branchCount [symbol]))
          rwa [List.take_append_drop] at later
      | replaced production => exact (ih _ queue).trans (List.sublist_append_right _ _)

/-- Dealing does not look at the values. -/
theorem map_deal (image : Value → Image) (pieces : List Piece) :
    (allocated : Nat) → (queue : List Value) →
      (deal fresh allocated pieces queue).map image =
        deal (image ∘ fresh) allocated pieces (queue.map image) := by
  induction pieces with
  | nil =>
      intro allocated queue
      rfl
  | cons piece rest ih =>
      intro allocated queue
      cases piece with
      | copied symbol => simp [deal, ih]
      | replaced production => simp [deal, ih]

end Dealing

end Piece

namespace Crown

open Piece

/-- Buds that are inserted where a group of branches has already been passed over. -/
theorem insertBuds_append (done queue : List Branch) (nextId : UInt32)
    (count creationDepth : Nat) :
    (⟨done ++ queue, nextId⟩ : Crown).insertBuds count done.length creationDepth =
      ⟨done ++ (⟨done ++ queue, nextId⟩ : Crown).buds count creationDepth ++ queue,
        nextId + UInt32.ofNat count⟩ := by
  simp [insertBuds]

/-- Buds are the fresh branches with the numbers after those already allocated. -/
theorem buds_eq_map_range' (branches : List Branch) (first : UInt32)
    (allocated count creationDepth : Nat) :
    (⟨branches, first + UInt32.ofNat allocated⟩ : Crown).buds count creationDepth =
      (List.range' allocated count).map fun number =>
        Branch.bud (first + UInt32.ofNat number) creationDepth := by
  simp [buds, List.range'_eq_map_range, UInt32.add_assoc]

/-- The buddings of pieces deal the branches that have not been passed over yet. -/
theorem foldl_insertBuds (creationDepth : Nat) (first : UInt32) (pieces : List Piece) :
    (done queue : List Branch) → (allocated : Nat) →
      pieces.count (copied '[') ≤ queue.length →
      (Generation.buddingsFrom done.length pieces).foldl
          (fun (crown : Crown) budding =>
            crown.insertBuds budding.count budding.position creationDepth)
          { branches := done ++ queue, nextId := first + UInt32.ofNat allocated } =
        { branches := done ++
            deal (fun number => Branch.bud (first + UInt32.ofNat number) creationDepth)
              allocated pieces queue
          nextId :=
            first + UInt32.ofNat (allocated + Word.branchCount (pieces.flatMap begun)) } := by
  induction pieces with
  | nil =>
      intro done queue allocated enough
      simp [Generation.buddingsFrom]
  | cons piece rest ih =>
      intro done queue allocated enough
      cases piece with
      | copied symbol =>
          by_cases opening : symbol = '['
          · subst opening
            cases queue with
            | nil => simp at enough
            | cons branch queue =>
                have later := ih (done ++ [branch]) queue allocated (by simpa using enough)
                simpa [Generation.buddingsFrom, begun, branchCount_singleton] using later
          · have later := ih done queue allocated (by simpa [opening] using enough)
            simpa [Generation.buddingsFrom, begun, branchCount_singleton, opening,
              deal_copied_plain] using later
      | replaced production =>
          have restEnough : rest.count (copied '[') ≤ queue.length := by
            simpa using enough
          by_cases none : production.branchCount = 0
          · have later := ih done queue allocated restEnough
            have begins : Word.branchCount production.successor = 0 := none
            simpa [Generation.buddingsFrom, begun, deal, none, begins] using later
          · have later := ih
              (done ++ (List.range' allocated production.branchCount).map fun number =>
                Branch.bud (first + UInt32.ofNat number) creationDepth)
              queue (allocated + production.branchCount) restEnough
            simp only [Generation.buddingsFrom, none, if_false, List.foldl_cons,
              insertBuds_append, buds_eq_map_range']
            simpa [begun, deal, UInt32.add_assoc, Nat.add_assoc, Production.branchCount] using
              later

end Crown

namespace Plant

open Piece

/-- The crown of the next generation.  The old branches go to the copied brackets in
order; those at the end for which no bracket is left are dropped. -/
theorem crown_adopt (plant : Plant) {pieces : List Piece}
    (sources : pieces.flatMap source = plant.word)
    (counted : plant.crown.branches.length = plant.word.branchCount) :
    (plant.adopt (Generation.ofPieces pieces)).crown =
      { branches :=
          List.zipWith Branch.place
            (deal (fun number =>
                Branch.bud (plant.crown.nextId + UInt32.ofNat number) (plant.depth + 1))
              0 pieces plant.crown.branches)
            (Word.outline (pieces.flatMap result))
        nextId :=
          plant.crown.nextId + UInt32.ofNat (Word.branchCount (pieces.flatMap begun)) } := by
  have oldCount : plant.crown.branches.length =
      pieces.count (copied '[') + Word.branchCount (pieces.flatMap consumed) := by
    rw [counted, ← sources, branchCount_flatMap_source]
  have budded := Crown.foldl_insertBuds (plant.depth + 1) plant.crown.nextId pieces []
    plant.crown.branches 0 (by omega)
  have start : plant.crown.nextId + UInt32.ofNat 0 = plant.crown.nextId := by simp
  rw [start, List.length_nil, List.nil_append, List.nil_append, Nat.zero_add] at budded
  have noneMissing : pieces.count (copied '[') + Word.branchCount (pieces.flatMap begun) -
      (plant.crown.branches.length + Word.branchCount (pieces.flatMap begun)) = 0 := by
    omega
  simp only [adopt, Generation.ofPieces]
  rw [budded]
  simp [Crown.align, Crown.buds, branchCount_flatMap_result, length_deal, noneMissing]

/-- The records of the next generation: those that are dealt, as far as there are
brackets for them. -/
theorem records_adopt (plant : Plant) {pieces : List Piece}
    (sources : pieces.flatMap source = plant.word)
    (counted : plant.crown.branches.length = plant.word.branchCount) :
    (plant.adopt (Generation.ofPieces pieces)).crown.branches.map Branch.record =
      (deal (fun number =>
          Record.ungrown (plant.crown.nextId + UInt32.ofNat number) (plant.depth + 1))
        0 pieces (plant.crown.branches.map Branch.record)).take
          (Word.branchCount (pieces.flatMap result)) := by
  rw [crown_adopt plant sources counted]
  simp only [Record.map_record_zipWith_place, map_deal, Word.length_outline]
  rfl

end Plant

end Arbor
