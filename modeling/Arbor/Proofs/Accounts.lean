import Arbor.Proofs.Alignment
import Arbor.Proofs.Polyline
import Arbor.Species.Library
import Mathlib.Algebra.BigOperators.Group.List.Basic
import Mathlib.Algebra.Group.Prod
import Mathlib.Algebra.Order.Group.Multiset

/-!
# What has grown is what stands

Every growth reports the segments that it has grown and a tally of them.  Years later
the segments of a plant are read from its branches again.  The account between the two
balances: what a plant holds, together with what it has lost, is what it held before and
what has grown since.  A plant loses something only where a production consumes brackets.
-/

namespace Arbor

namespace Tally

theorem branches_add (left right : Tally) :
    (left + right).branches = left.branches + right.branches := rfl

theorem segments_add (left right : Tally) :
    (left + right).segments = left.segments + right.segments := rfl

theorem leaves_add (left right : Tally) :
    (left + right).leaves = left.leaves + right.leaves := rfl

@[ext] theorem ext {left right : Tally} (branches : left.branches = right.branches)
    (segments : left.segments = right.segments) (leaves : left.leaves = right.leaves) :
    left = right := by
  cases left
  cases right
  simp_all

instance : AddCommMonoid Tally where
  add_assoc left middle right := by
    ext <;> apply Nat.add_assoc
  zero_add tally := by
    ext <;> apply Nat.zero_add
  add_zero tally := rfl
  add_comm left right := by
    ext <;> apply Nat.add_comm
  nsmul := nsmulRec

theorem sum_eq (tallies : List Tally) : sum tallies = tallies.sum :=
  List.sum_eq_foldl.symm

end Tally

/-- Segments in any order, and a tally. -/
abbrev Yield := Multiset Segment × Tally

/-- What the growth of one branch has reported. -/
def BranchGrowth.yield (growth : BranchGrowth) : Yield :=
  (growth.segments, growth.tally)

/-- What the growth of a plant has reported. -/
def Growth.yield (growth : Growth) : Yield :=
  (growth.segments, growth.tally)

namespace Record

/-- The segments of a record do not depend on the place of its bracket. -/
def segments (species : Species) (record : Record) : List Segment :=
  (record.branchAt default).segments (species.radiusAt record.creationDepth)

/-- What a growth would have reported that has grown the whole branch. -/
def tally (record : Record) : Tally where
  branches := if record.nodes = [] then 0 else 1
  segments := record.nodes.length - 1
  leaves := record.leaves.length

/-- What a record holds. -/
def yield (species : Species) (record : Record) : Yield :=
  (record.segments species, record.tally)

theorem segments_record (species : Species) (branch : Branch) :
    branch.record.segments species =
      branch.segments (species.radiusAt branch.creationDepth) := rfl

@[simp] theorem yield_ungrown (species : Species) (id : UInt32) (creationDepth : Nat) :
    (ungrown id creationDepth).yield species = 0 := rfl

end Record

namespace Branch

variable (species : Species) (environment : Environment) (pose : Pose) (branch : Branch)
  (draws : Draws)

theorem tally_growOnce :
    (branch.growOnce species environment pose draws).1.branch.record.tally =
      branch.record.tally + (branch.growOnce species environment pose draws).1.tally := by
  cases grown : branch.isGrown with
  | true =>
      rw [growOnce_of_isGrown _ _ _ _ _ grown]
      rfl
  | false =>
      have empty : branch.nodes = [] := by
        simpa [isGrown] using grown
      rw [growOnce, grown]
      ext <;> simp [grow, extend, record, Record.tally, empty, Tally.branches_add,
        Tally.segments_add, Tally.leaves_add]

/-- A branch that has been visited holds what it held before and what has grown. -/
theorem yield_growOnce :
    (branch.growOnce species environment pose draws).1.branch.record.yield species =
      branch.record.yield species +
        (branch.growOnce species environment pose draws).1.yield := by
  have depth : (branch.growOnce species environment pose draws).1.branch.creationDepth =
      branch.creationDepth :=
    growOnce_keeps _ _ _ _ _ Branch.creationDepth (fun _ _ _ => rfl)
  apply Prod.ext
  · simp only [Record.yield, BranchGrowth.yield, Prod.fst_add, Record.segments_record, depth,
      segments_growOnce, Multiset.coe_add]
  · exact tally_growOnce species environment pose branch draws

end Branch

/-- What the branches of a crown hold together. -/
def Crown.yield (species : Species) (crown : Crown) : Yield :=
  ((crown.branches.map Branch.record).map (Record.yield species)).sum

/-- What the branches of a plant hold together. -/
def Plant.yield (plant : Plant) : Yield :=
  plant.crown.yield plant.species

/-! ## Growth passes -/

theorem Visit.yield_along (species : Species) (environment : Environment)
    (branches : List Branch) :
    (stack : PoseStack) → (draws : Draws) →
      ((along species environment stack branches draws).1.map
          (fun visit => visit.branch.record.yield species)).sum =
        (branches.map (fun branch => branch.record.yield species)).sum +
          ((along species environment stack branches draws).1.map
            (fun visit => visit.toBranchGrowth.yield)).sum := by
  induction branches with
  | nil =>
      intro stack draws
      rfl
  | cons branch rest ih =>
      intro stack draws
      rw [along_cons]
      simp only [List.map_cons, List.sum_cons, ih, Branch.yield_growOnce]
      rw [add_add_add_comm]

/-- What the visits of a pass have yielded is what the pass reports. -/
theorem Visit.sum_yield (visits : List Visit) :
    (visits.map (fun visit => visit.toBranchGrowth.yield)).sum =
      (↑(visits.flatMap (·.segments)), Tally.sum (visits.map (·.tally))) := by
  rw [Tally.sum_eq]
  induction visits with
  | nil => rfl
  | cons visit rest ih =>
      rw [List.map_cons, List.sum_cons, ih, List.flatMap_cons, List.map_cons, List.sum_cons,
        ← Multiset.coe_add]
      rfl

namespace Plant

variable {plant : Plant}

/-- After a growth pass a plant holds what it held before and what has grown. -/
theorem yield_grow (plant : Plant) (environment : Environment) (draws : Draws) :
    (plant.grow environment draws).1.plant.yield =
      plant.yield + (plant.grow environment draws).1.yield := by
  have visits := Visit.yield_along plant.species environment plant.crown.branches
    (.single ⟨plant.position, .up⟩) draws
  rw [Visit.sum_yield] at visits
  simp only [yield, Crown.yield, List.map_map] at visits ⊢
  exact (congrArg List.sum (List.map_map ..)).trans visits

/-! ## Generations -/

/-- In a generation a plant loses nothing unless brackets are consumed. -/
theorem IsAligned.yield_adopt (aligned : plant.IsAligned) {pieces : List Piece}
    (sources : pieces.flatMap Piece.source = plant.word) :
    ∃ lost : Yield,
      (Word.branchCount (pieces.flatMap Piece.consumed) = 0 → lost = 0) ∧
      (plant.adopt (Generation.ofPieces pieces)).yield + lost = plant.yield := by
  let fresh (number : Nat) :=
    Record.ungrown (plant.crown.nextId + UInt32.ofNat number) (plant.depth + 1)
  let dealt := Piece.deal fresh 0 pieces (plant.crown.branches.map Branch.record)
  let count := Word.branchCount (pieces.flatMap Piece.result)
  have kept : (plant.adopt (Generation.ofPieces pieces)).crown.branches.map Branch.record =
      dealt.take count := records_adopt plant sources aligned.length_branches
  have whole : (dealt.map (Record.yield plant.species)).sum = plant.yield := by
    have buds : ∀ numbers : List Nat,
        ((numbers.map fresh).map (Record.yield plant.species)).sum = 0 := by
      intro numbers
      simp [fresh, Function.comp_def]
    rw [((Piece.perm_deal fresh pieces 0 _).map _).sum_eq, List.map_append, List.sum_append,
      buds, add_zero, yield, Crown.yield]
  refine ⟨((dealt.drop count).map (Record.yield plant.species)).sum, ?_, ?_⟩
  · intro unconsumed
    have long : dealt.length ≤ count := by
      simp only [dealt, count, Piece.length_deal, List.length_map, aligned.length_branches,
        ← sources, Piece.branchCount_flatMap_source, Piece.branchCount_flatMap_result,
        unconsumed]
      omega
    rw [List.drop_eq_nil_of_le long, List.map_nil, List.sum_nil]
  · calc (plant.adopt (Generation.ofPieces pieces)).yield + _
        = ((dealt.take count).map (Record.yield plant.species)).sum +
            ((dealt.drop count).map (Record.yield plant.species)).sum := by
          rw [yield, Crown.yield, kept]
          rfl
      _ = plant.yield := by
          rw [← List.sum_append, ← List.map_append, List.take_append_drop, whole]

/-! ## Runs -/

/-- The account of a growth balances.  Nothing is lost where no predecessor has an opening
bracket. -/
def Balances (plant : Plant) (growth : Growth) : Prop :=
  plant.IsAligned →
    growth.plant.IsAligned ∧ growth.plant.species = plant.species ∧
      ∃ lost : Yield,
        ((∀ production ∈ plant.species.productions, '[' ∉ production.predecessor) →
          lost = 0) ∧
        growth.plant.yield + lost = plant.yield + growth.yield

theorem accounting_balances : Accounting Balances where
  still plant aligned := ⟨aligned, rfl, 0, fun _ => rfl, rfl⟩
  grow plant environment draws aligned :=
    ⟨isAligned_grow aligned environment draws, rfl, 0, fun _ => rfl, by
      rw [add_zero, yield_grow]⟩
  advance {plant next draws} advances aligned := by
    rcases advance?_eq_some_iff.mp advances with ⟨-, rfl⟩
    have reading := Piece.reading_cut plant.species.productions plant.word draws
    rcases aligned.yield_adopt reading.flatMap_source with ⟨lost, nothing, balance⟩
    refine ⟨isAligned_adopt _ _, rfl, lost, ?_, balance.trans (add_zero _).symm⟩
    intro unbracketed
    exact nothing (reading.branchCount_consumed_eq_zero unbracketed)
  followedBy {plant before after} beforeBalances afterBalances aligned := by
    rcases beforeBalances aligned with ⟨alignedThen, species, lost, nothing, balance⟩
    rcases afterBalances alignedThen with
      ⟨alignedAfter, speciesAfter, lostAfter, nothingAfter, balanceAfter⟩
    refine ⟨alignedAfter, speciesAfter.trans species, lostAfter + lost, ?_, ?_⟩
    · intro unbracketed
      rw [nothing unbracketed, nothingAfter (by rwa [species]), add_zero]
    · have both : (before.followedBy after).yield = before.yield + after.yield := by
        rw [Growth.yield, Growth.followedBy, ← Multiset.coe_add]
        rfl
      calc after.plant.yield + (lostAfter + lost)
          = before.plant.yield + after.yield + lost := by rw [← add_assoc, balanceAfter]
        _ = before.plant.yield + lost + after.yield := add_right_comm _ _ _
        _ = plant.yield + before.yield + after.yield := by rw [balance]
        _ = plant.yield + (before.followedBy after).yield := by rw [both, add_assoc]

theorem yield_sow (species : Species) (point : Vec3) : (sow species point).yield = 0 := by
  rw [yield, Crown.yield]
  apply List.sum_eq_zero
  intro held member
  rcases List.mem_map.mp member with ⟨record, inRecords, rfl⟩
  rcases List.mem_map.mp inRecords with ⟨branch, inCrown, rfl⟩
  rw [record_eq_ungrown_of_sow inCrown, Record.yield_ungrown]

/-! ## What a plant holds, read from its branches -/

theorem fst_yield (plant : Plant) : plant.yield.1 = (plant.segments : Multiset Segment) := by
  rw [yield, Crown.yield, segments]
  induction plant.crown.branches with
  | nil => rfl
  | cons branch rest ih =>
      rw [List.map_cons, List.map_cons, List.sum_cons, Prod.fst_add, ih, List.flatMap_cons,
        ← Multiset.coe_add]
      rfl

theorem snd_yield (plant : Plant) :
    plant.yield.2 =
      ⟨plant.crown.branches.countP Branch.isGrown, plant.segments.length,
        plant.leafCount⟩ := by
  rw [yield, Crown.yield, segments, leafCount]
  induction plant.crown.branches with
  | nil => rfl
  | cons branch rest ih =>
      rw [List.map_cons, List.map_cons, List.sum_cons, Prod.snd_add, ih]
      ext
      · rw [Tally.branches_add, List.countP_cons, Nat.add_comm]
        cases nodes : branch.nodes <;> simp [Record.yield, Record.tally, Branch.record,
          Branch.isGrown, nodes]
      · simp [Tally.segments_add, Record.yield, Record.tally, Branch.record]
      · simp [Tally.leaves_add, Record.yield, Record.tally, Branch.record]

/-- Whatever is done and drawn, the segments of a plant are among those that have been
reported.  Where no predecessor has an opening bracket they are the reported ones, and the
reports add up to what the plant has. -/
theorem segments_run_le (species : Species) (point : Vec3) (actions : List Action)
    (draws : Draws) :
    let growth := ((sow species point).run actions draws).1
    (growth.plant.segments : Multiset Segment) ≤ growth.segments ∧
      ((∀ production ∈ species.productions, '[' ∉ production.predecessor) →
        (growth.plant.segments : Multiset Segment) = growth.segments ∧
          growth.tally =
            ⟨growth.plant.crown.branches.countP Branch.isGrown,
              growth.plant.segments.length, growth.plant.leafCount⟩) := by
  intro growth
  rcases accounting_balances.run actions _ draws (isAligned_sow species point) with
    ⟨-, -, lost, nothing, balance⟩
  rw [yield_sow, zero_add] at balance
  have reported : growth.plant.yield + lost = growth.yield := balance
  constructor
  · have segments := congrArg Prod.fst reported
    rw [Prod.fst_add, fst_yield] at segments
    exact (Multiset.le_add_right _ lost.1).trans_eq segments
  · intro unbracketed
    rw [nothing unbracketed, add_zero] at reported
    exact ⟨(fst_yield _).symm.trans (congrArg Prod.fst reported),
      (congrArg Prod.snd reported).symm.trans (snd_yield _)⟩

/-- A leafy tree that has derived two generations and has grown twice. -/
theorem segments_leafyTree_eq :
    let growth := ((sow Species.leafyTree ⟨1, 0, 2⟩).run [.update .noon, .advance, .grow .noon]
      (Draws.ofSeed 7)).1
    growth.segments.length = 70 ∧
      (growth.plant.segments : Multiset Segment) = growth.segments ∧
        growth.tally =
          ⟨growth.plant.crown.branches.countP Branch.isGrown,
            growth.plant.segments.length, growth.plant.leafCount⟩ :=
  ⟨by decide +kernel, (segments_run_le Species.leafyTree _ _ _).2 (by decide)⟩

end Plant

end Arbor
