import Arbor.Proofs.Budding
import Arbor.Proofs.Growth
import Arbor.Proofs.Lineage
import Arbor.Proofs.Run

/-!
# The crown and the word

Whatever is done to a plant, its branches stand for the brackets of its word, one for
each, in order.  So the records of the branches can be written on the brackets.  Where
productions consume no opening brackets, a generation moves them as it moves the
brackets.
-/

namespace Arbor

/-! ## Branches stand for brackets -/

namespace Plant

/-- The branches have the texts and the places of the brackets of the word. -/
def IsAligned (plant : Plant) : Prop :=
  plant.crown.branches.map Branch.opening = plant.word.outline

theorem IsAligned.length_branches {plant : Plant} (aligned : plant.IsAligned) :
    plant.crown.branches.length = plant.word.branchCount := by
  rw [← Word.length_outline, ← aligned, List.length_map]

/-- What a branch says about its place, the lineage of its bracket says in owners. -/
theorem IsAligned.place_of_lineage {Owner : Type} {plant : Plant} (aligned : plant.IsAligned)
    {marking : Marking Owner} (word_eq : marking.word = plant.word) {index : Nat}
    {branch : Branch} (branch_at : plant.crown.branches[index]? = some branch)
    {owner : Owner} {around : List Owner}
    (entry : (marking.lineage [])[index]? = some (owner, around)) :
    branch.nesting = around.length ∧
      branch.parent.map (fun parent => marking.owners[parent]?) = around.head?.map some := by
  rcases Marking.outline_of_lineage entry with ⟨opening, opening_at, place⟩
  rw [word_eq, ← aligned, List.getElem?_map, branch_at] at opening_at
  cases Option.some.inj opening_at
  exact place

theorem isAligned_sow (species : Species) (point : Vec3) : (sow species point).IsAligned :=
  Crown.map_opening_align _ _ _

/-- The branches of a plant that has just been sown are buds of generation zero. -/
theorem record_eq_ungrown_of_sow {species : Species} {point : Vec3} {branch : Branch}
    (member : branch ∈ (sow species point).crown.branches) :
    branch.record = .ungrown branch.id 0 := by
  rcases List.getElem_of_mem member with ⟨index, _, rfl⟩
  simp [sow, Crown.ofWord, Crown.align, Crown.empty, Crown.buds, Branch.bud, Branch.place,
    Branch.record, Record.ungrown]

theorem isAligned_adopt (plant : Plant) (generation : Generation) :
    (plant.adopt generation).IsAligned :=
  Crown.map_opening_align _ _ _

theorem isAligned_grow {plant : Plant} (aligned : plant.IsAligned) (environment : Environment)
    (draws : Draws) : (plant.grow environment draws).1.plant.IsAligned := by
  rw [plant_grow, IsAligned]
  exact (Pass.map_branches_run Branch.opening (fun _ _ _ => rfl) _ _ _ _ _).trans aligned

theorem isAligned_invariant : Invariant IsAligned where
  grow environment draws aligned := isAligned_grow aligned environment draws
  advance advances _ := by
    rw [(advance?_eq_some_iff.mp advances).2]
    exact isAligned_adopt _ _

/-- In every run the crown stays in step with the word. -/
theorem isAligned_run (species : Species) (point : Vec3) (actions : List Action)
    (draws : Draws) : ((sow species point).run actions draws).1.plant.IsAligned :=
  isAligned_invariant.run actions draws (isAligned_sow species point)

end Plant

/-! ## Records on brackets -/

/-- Where no predecessor has an opening bracket, the buddings deal the owners to the
brackets that they belong to. -/
theorem Marking.deal_owners {Owner : Type} {productions : List Production}
    {pieces : List Piece} {marking : Marking Owner}
    (reading : Marking.Reading productions marking pieces)
    (unbracketed : ∀ production ∈ productions, '[' ∉ production.predecessor)
    (fresh : Nat → Owner) :
    (allocated : Nat) →
      Piece.deal fresh allocated pieces marking.owners =
        (marking.derive fresh allocated pieces).owners := by
  induction reading with
  | nil =>
      intro allocated
      rfl
  | copied mark _ ih =>
      intro allocated
      cases mark with
      | opening owner =>
          simp only [Mark.symbol, Marking.owners_opening, Piece.deal_copied_opening,
            Marking.derive_copied, ih]
      | plain symbol notOpening =>
          simp only [Mark.symbol, Marking.owners_plain, Marking.derive_copied, ih,
            Piece.deal_copied_plain fresh allocated notOpening]
  | @replaced production before rest pieces listed beforeEq _ ih =>
      intro allocated
      have noOwners : before.owners = [] := by
        apply Marking.owners_eq_nil
        rw [beforeEq]
        exact unbracketed production listed
      rw [Marking.derive_replaced _ _ _ _ beforeEq, Marking.owners_append,
        Marking.owners_append, Marking.owners_number, noOwners, List.nil_append, ← ih]
      rfl

namespace Plant

/-- The word of a plant, with the records of its branches on its brackets. -/
def marking (plant : Plant) : Marking Record :=
  Marking.number (fun ordinal => (plant.crown.branches.map Branch.record).getD ordinal default)
    0 plant.word

/-- The record of a new branch of the next generation. -/
def freshRecord (plant : Plant) (number : Nat) : Record :=
  Record.ungrown (plant.crown.nextId + UInt32.ofNat number) (plant.depth + 1)

variable {plant : Plant}

@[simp] theorem word_marking (plant : Plant) : plant.marking.word = plant.word :=
  Marking.word_number _ _ _

theorem IsAligned.owners_marking (aligned : plant.IsAligned) :
    plant.marking.owners = plant.crown.branches.map Branch.record := by
  apply Marking.owners_number_getD
  rw [List.length_map, aligned.length_branches]

/-- Where no predecessor has an opening bracket, the next generation has the records that
have moved with their brackets. -/
theorem IsAligned.records_adopt_eq_owners (aligned : plant.IsAligned)
    {productions : List Production} {pieces : List Piece}
    (reading : Marking.Reading productions plant.marking pieces)
    (unbracketed : ∀ production ∈ productions, '[' ∉ production.predecessor) :
    (plant.adopt (Generation.ofPieces pieces)).crown.branches.map Branch.record =
      (plant.marking.derive plant.freshRecord 0 pieces).owners := by
  have sources : pieces.flatMap Piece.source = plant.word := by
    rw [Marking.flatMap_source reading, word_marking]
  have counted : (plant.marking.derive plant.freshRecord 0 pieces).owners.length =
      Word.branchCount (pieces.flatMap Piece.result) := by
    rw [Marking.length_owners, Marking.word_derive reading]
  have dealt := Marking.deal_owners reading unbracketed plant.freshRecord 0
  rw [records_adopt plant sources aligned.length_branches, ← aligned.owners_marking,
    ← counted]
  exact (congrArg (List.take _) dealt).trans (List.take_length)

end Plant

end Arbor
