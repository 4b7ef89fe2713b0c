import Arbor.Proofs.Ancestry
import Arbor.Species.Library
import Mathlib.Data.List.NodupEquivFin

/-!
# The old tree within the new one

Parents and nestings are computed afresh in every generation.  Where the productions are
balanced, that makes no difference for the branches that are there: the old tree is
embedded in the new one, and what a successor begins lies below the branch in which the
predecessor stood.
-/

namespace Arbor

/-! ## Trees within trees -/

/-- The ordinal of the innermost bracket that is open at the end of a word. -/
def Word.innermostUnclosed? (word : Word) : Option Nat :=
  ((Marking.number id 0 word).unclosed []).head?

/-- The indices of the branches that a successor begins, in a generation that has read
the pieces `before` it. -/
def Piece.sprouts (before : List Piece) (production : Production) : List Nat :=
  List.range' (Word.branchCount (before.flatMap result)) production.branchCount

namespace Crown

/-- The branch lies below the outer one.  Where there is none, it lies below a root among
the sprouts that have come with it, or is such a root. -/
def HangsOn (crown : Crown) (sprouts : List Nat) (index : Nat) : Option Nat → Prop
  | some outer => crown.IsBelow index outer
  | none => ∃ root ∈ sprouts, crown.IsRoot root ∧ (index = root ∨ crown.IsBelow index root)

end Crown

namespace Plant

/-- The branches of a plant are carried to the indices `place` of the next one, with
their records and their places in the tree. -/
def Carries (plant next : Plant) (place : Nat ↪o Nat) : Prop :=
  ∀ index branch, plant.crown.branches[index]? = some branch →
    ∃ carried, next.crown.branches[place index]? = some carried ∧
      carried.record = branch.record ∧ carried.nesting = branch.nesting ∧
      carried.parent = branch.parent.map place

/-- Every branch of the next plant to which none is carried is a bud that a successor has
begun, and hangs on what was open where the predecessor stood. -/
def Sprouts (plant next : Plant) (pieces : List Piece) (place : Nat ↪o Nat) : Prop :=
  ∀ index branch, next.crown.branches[index]? = some branch →
    (∀ old < plant.crown.branches.length, place old ≠ index) →
    branch.record = .ungrown branch.id next.depth ∧
      ∃ before production after, pieces = before ++ .replaced production :: after ∧
        index ∈ Piece.sprouts before production ∧
        next.crown.HangsOn (Piece.sprouts before production) index
          ((Word.innermostUnclosed? (before.flatMap Piece.source)).map place)

/-- The tree of the plant is embedded in that of the next one. -/
def EmbedsIn (plant next : Plant) (pieces : List Piece) : Prop :=
  ∃ place : Nat ↪o Nat, plant.Carries next place ∧ plant.Sprouts next pieces place

/-- No branch is of a later generation than the plant, or of an earlier one than its
parent. -/
def IsLayered (plant : Plant) : Prop :=
  ∀ branch ∈ plant.crown.branches, branch.creationDepth ≤ plant.depth ∧
    ∀ parent, branch.parent = some parent →
      ∃ around, plant.crown.branches[parent]? = some around ∧
        around.creationDepth ≤ branch.creationDepth

end Plant

/-! ## Where branches come from -/

/-- Where a branch comes from: it has had an index before the generation, or it is one
of the fresh branches. -/
inductive Origin where
  | old (index : Nat)
  | fresh (number : Nat)
  deriving DecidableEq

namespace Plant

/-- The word, with the indices of the branches on its brackets. -/
def indexed (plant : Plant) : Marking Origin :=
  Marking.number .old 0 plant.word

/-- The next word, with the origins of the branches on its brackets. -/
def origins (plant : Plant) (pieces : List Piece) : Marking Origin :=
  plant.indexed.derive .fresh 0 pieces

/-- The record of a branch of the given origin. -/
def recordOf (plant : Plant) : Origin → Record
  | .old index => (plant.crown.branches.map Branch.record).getD index default
  | .fresh number => plant.freshRecord number

variable {plant : Plant} {productions : List Production} {pieces : List Piece}

@[simp] theorem word_indexed (plant : Plant) : plant.indexed.word = plant.word :=
  Marking.word_number _ _ _

@[simp] theorem owners_indexed (plant : Plant) :
    plant.indexed.owners = (List.range plant.word.branchCount).map .old := by
  rw [indexed, Marking.owners_number, List.range_eq_range']

theorem owner_indexed_iff {index : Nat} {origin : Origin} :
    plant.indexed.owners[index]? = some origin ↔
      index < plant.word.branchCount ∧ origin = .old index := by
  simp only [owners_indexed, List.getElem?_map, Option.map_eq_some_iff,
    List.getElem?_eq_some_iff, List.length_range, List.getElem_range]
  constructor
  · rintro ⟨found, ⟨inRange, rfl⟩, rfl⟩
    exact ⟨inRange, rfl⟩
  · rintro ⟨inRange, rfl⟩
    exact ⟨index, ⟨inRange, rfl⟩, rfl⟩

/-- No branch has two origins in common with another. -/
theorem nodup_origins (reading : Marking.Reading productions plant.indexed pieces)
    (unbracketed : ∀ production ∈ productions, '[' ∉ production.predecessor) :
    (plant.origins pieces).owners.Nodup := by
  rw [origins, ← Marking.deal_owners reading unbracketed,
    (Piece.perm_deal Origin.fresh pieces 0 _).nodup_iff, owners_indexed, List.nodup_append]
  refine ⟨?_, ?_, ?_⟩
  · exact List.nodup_range.map fun _ _ => Origin.old.inj
  · exact (List.nodup_range' _).map fun _ _ => Origin.fresh.inj
  · rintro first isOld second isFresh rfl
    rcases List.mem_map.mp isOld with ⟨index, -, rfl⟩
    rcases List.mem_map.mp isFresh with ⟨number, -, equal⟩
    cases equal

/-- The branches of the next plant have the records of their origins. -/
theorem IsAligned.map_recordOf_origins (aligned : plant.IsAligned)
    (reading : Piece.Reading productions plant.word pieces)
    (unbracketed : ∀ production ∈ productions, '[' ∉ production.predecessor) :
    (plant.adopt (Generation.ofPieces pieces)).crown.branches.map Branch.record =
      (plant.origins pieces).owners.map plant.recordOf := by
  have marked := Marking.reading_of_word reading plant.marking (word_marking plant)
  have counted := Marking.reading_of_word reading plant.indexed (word_indexed plant)
  have old : plant.indexed.owners.map plant.recordOf = plant.marking.owners := by
    rw [indexed, marking, Marking.owners_number, Marking.owners_number, List.map_map]
    rfl
  rw [aligned.records_adopt_eq_owners marked unbracketed, origins,
    ← Marking.deal_owners marked unbracketed, ← Marking.deal_owners counted unbracketed,
    Piece.map_deal, old]
  rfl

/-- A plant with the origins of its branches, of which those of the old ones stand where
`place` carries them. -/
structure Traces (plant next : Plant) (pieces : List Piece) (place : Nat ↪o Nat) : Prop where
  aligned : next.IsAligned
  depth_eq : next.depth = plant.depth + 1
  word_eq : (plant.origins pieces).word = next.word
  records_eq : next.crown.branches.map Branch.record =
    (plant.origins pieces).owners.map plant.recordOf
  distinct : (plant.origins pieces).owners.Nodup
  placed : ∀ index, (plant.origins pieces).owners[place index]? = plant.indexed.owners[index]?

/-- In the next generation, the old branches stand in their old order. -/
theorem IsAligned.exists_traces (aligned : plant.IsAligned)
    (reading : Piece.Reading productions plant.word pieces)
    (unbracketed : ∀ production ∈ productions, '[' ∉ production.predecessor) :
    ∃ place, plant.Traces (plant.adopt (Generation.ofPieces pieces)) pieces place := by
  have marked := Marking.reading_of_word reading plant.indexed (word_indexed plant)
  have kept := Piece.sublist_deal Origin.fresh pieces 0 plant.indexed.owners
  rw [Marking.deal_owners marked unbracketed] at kept
  rcases List.sublist_iff_exists_orderEmbedding_getElem?_eq.mp kept with ⟨place, same⟩
  exact ⟨place,
    { aligned := isAligned_adopt plant _
      depth_eq := rfl
      word_eq := Marking.word_derive marked _ _
      records_eq := aligned.map_recordOf_origins reading unbracketed
      distinct := nodup_origins marked unbracketed
      placed := fun index => (same index).symm }⟩

namespace Traces

variable {next : Plant} {place : Nat ↪o Nat}

/-- A branch has the record of its origin. -/
theorem record_eq (traces : plant.Traces next pieces place) {index : Nat} {branch : Branch}
    (branch_at : next.crown.branches[index]? = some branch) {origin : Origin}
    (origin_at : (plant.origins pieces).owners[index]? = some origin) :
    branch.record = plant.recordOf origin := by
  have record_at := congrArg (fun column => column[index]?) traces.records_eq
  simpa [branch_at, origin_at] using record_at

/-- Every old branch has been carried to its place. -/
theorem place_eq (traces : plant.Traces next pieces place)
    (reading : Marking.Reading productions plant.indexed pieces) {index old : Nat}
    (origin_at : (plant.origins pieces).owners[index]? = some (.old old)) :
    old < plant.word.branchCount ∧ place old = index := by
  rcases Marking.mem_owners_derive reading _ _ _ (List.mem_of_getElem? origin_at) with
    ⟨number, equal⟩ | member
  · cases equal
  · rcases List.getElem?_of_mem member with ⟨found, found_at⟩
    have found_eq := (owner_indexed_iff.mp found_at).2
    rw [← Origin.old.inj found_eq] at found_at
    exact ⟨(owner_indexed_iff.mp found_at).1,
      Marking.index_eq_of_owner traces.distinct ((traces.placed old).trans found_at) origin_at⟩

/-! ## The embedding -/

/-- The old branches are carried along, with all that they say about their places. -/
theorem carries (traces : plant.Traces next pieces place) (aligned : plant.IsAligned)
    (reading : Marking.Reading productions plant.indexed pieces)
    (balanced : ∀ production ∈ productions, production.IsBalanced) :
    plant.Carries next place := by
  intro index branch branch_at
  have inRange : index < plant.word.branchCount := by
    rw [← aligned.length_branches]
    exact (List.getElem?_eq_some_iff.mp branch_at).1
  have origin_at : (plant.origins pieces).owners[place index]? = some (.old index) := by
    rw [traces.placed, owner_indexed_iff]
    exact ⟨inRange, rfl⟩
  rcases traces.aligned.exists_branch traces.word_eq origin_at with ⟨carried, carried_at⟩
  rcases Marking.exists_lineage origin_at with ⟨around, entry⟩
  -- The lineage of the branch is the one that it has had.
  have oldEntry : (plant.indexed.lineage [])[index]? = some (.old index, around) := by
    rcases Marking.mem_lineage_derive reading balanced _ _ _ (List.mem_of_getElem? entry) with
      kept | ⟨_, _, _, _, -, -, siblings⟩
    · rcases List.getElem?_of_mem kept with ⟨found, found_at⟩
      have found_eq := (owner_indexed_iff.mp (Marking.owner_of_lineage found_at)).2
      rwa [← Origin.old.inj found_eq] at found_at
    · rcases (siblings _ List.mem_cons_self).1 with ⟨number, equal⟩
      cases equal
  have before := aligned.place_of_lineage (word_indexed plant) branch_at oldEntry
  have now := traces.aligned.place_of_lineage traces.word_eq carried_at entry
  refine ⟨carried, carried_at, ?_, now.1.trans before.1.symm, ?_⟩
  · simpa [recordOf, branch_at] using traces.record_eq carried_at origin_at
  · cases around with
    | nil =>
        have noParent : branch.parent = none := by simpa using before.2
        simpa [noParent] using now.2
    | cons outer rest =>
        have oldParent := before.2
        rw [List.head?_cons, Option.map_some, Option.map_eq_some_iff] at oldParent
        rcases oldParent with ⟨parent, parent_eq, parent_at⟩
        rcases traces.aligned.parent_of_lineage traces.word_eq traces.distinct entry
          ((traces.placed parent).trans parent_at) with ⟨found, found_at, found_parent⟩
        cases Option.some.inj (found_at.symm.trans carried_at)
        rw [found_parent, parent_eq, Option.map_some]

/-- An owner that stands in a section of the marking has an index there. -/
private theorem exists_index_of_mem_section {owners : List Origin} {first count : Nat}
    {origin : Origin} (member : origin ∈ (owners.drop first).take count) :
    ∃ index ∈ List.range' first count, owners[index]? = some origin := by
  rcases List.getElem?_of_mem member with ⟨offset, offset_at⟩
  have inSection : offset < count := by
    have bound := (List.getElem?_eq_some_iff.mp offset_at).1
    rw [List.length_take] at bound
    omega
  rw [List.getElem?_take_of_lt inSection, List.getElem?_drop] at offset_at
  refine ⟨first + offset, ?_, offset_at⟩
  rw [List.mem_range'_1]
  omega

/-- The branches that are open after some pieces are those with the open ordinals. -/
private theorem unclosed_take_indexed {before after : List Piece}
    (reading : Piece.Reading productions plant.word (before ++ after)) :
    Marking.unclosed [] (plant.indexed.take (before.flatMap Piece.source).length) =
      (Marking.unclosed [] (Marking.number id 0 (before.flatMap Piece.source))).map
        Origin.old := by
  have open_eq := Marking.unclosed_number Origin.old (before.flatMap Piece.source) [] 0
  rw [indexed, Marking.take_number, ← reading.flatMap_source, List.flatMap_append,
    List.take_left]
  exact open_eq

/-- A branch hangs on the innermost old branch around it, if all that is further inside
belongs to the sprouts. -/
theorem hangsOn_of_lineage (traces : plant.Traces next pieces place)
    (reading : Marking.Reading productions plant.indexed pieces) {index : Nat}
    {origin : Origin} {opened : List Origin} {enclosing sprouts : List Nat}
    (entry : ((plant.origins pieces).lineage [])[index]? =
      some (origin, opened ++ enclosing.map .old))
    (isSprout : ∀ sibling ∈ origin :: opened, ∀ found,
      (plant.origins pieces).owners[found]? = some sibling → found ∈ sprouts) :
    next.crown.HangsOn sprouts index (enclosing.head?.map place) := by
  cases enclosing with
  | nil =>
      rw [List.map_nil, List.append_nil] at entry
      rcases traces.aligned.exists_root_of_lineage traces.word_eq traces.distinct entry with
        ⟨owner, inside, root, root_at, isRoot, below⟩
      exact ⟨root, isSprout owner inside root root_at, isRoot, below⟩
  | cons outer rest =>
      rw [List.map_cons] at entry
      have member : (Origin.old outer, rest.map .old) ∈ (plant.origins pieces).lineage [] :=
        Marking.mem_lineage_of_around opened (List.mem_of_getElem? entry)
      rcases List.getElem?_of_mem member with ⟨outerIndex, outer_entry⟩
      have outer_at := Marking.owner_of_lineage outer_entry
      rw [List.head?_cons, Option.map_some, (traces.place_eq reading outer_at).2]
      exact traces.aligned.isBelow_of_lineage traces.word_eq traces.distinct outer_at
        opened entry

/-- What a successor begins hangs on what is open where it comes in. -/
theorem sprouts (traces : plant.Traces next pieces place) (aligned : plant.IsAligned)
    (reading : Piece.Reading productions plant.word pieces)
    (balanced : ∀ production ∈ productions, production.IsBalanced) :
    plant.Sprouts next pieces place := by
  have marked := Marking.reading_of_word reading plant.indexed (word_indexed plant)
  intro index branch branch_at new
  have inRange : index < (plant.origins pieces).owners.length := by
    rw [Marking.length_owners, traces.word_eq, ← traces.aligned.length_branches]
    exact (List.getElem?_eq_some_iff.mp branch_at).1
  have origin_at := List.getElem?_eq_getElem inRange
  cases origin : (plant.origins pieces).owners[index] with
  | old number =>
      rw [origin] at origin_at
      rcases traces.place_eq marked origin_at with ⟨old, place_eq⟩
      rw [← aligned.length_branches] at old
      exact absurd place_eq (new number old)
  | fresh number =>
      rw [origin] at origin_at
      have record_eq := traces.record_eq branch_at origin_at
      have id_eq : branch.id = plant.crown.nextId + UInt32.ofNat number :=
        congrArg Record.id record_eq
      rw [record_eq, id_eq, traces.depth_eq]
      refine ⟨rfl, ?_⟩
      rcases Marking.exists_lineage origin_at with ⟨around, entry⟩
      rcases Marking.mem_lineage_derive marked balanced _ _ _ (List.mem_of_getElem? entry)
        with kept | ⟨before, production, after, opened, rfl, around_eq, siblings⟩
      · rcases List.getElem?_of_mem kept with ⟨found, found_at⟩
        cases (owner_indexed_iff.mp (Marking.owner_of_lineage found_at)).2
      · rw [unclosed_take_indexed reading] at around_eq
        subst around_eq
        have isSprout : ∀ sibling ∈ Origin.fresh number :: opened, ∀ found,
            (plant.origins (before ++ .replaced production :: after)).owners[found]? =
              some sibling → found ∈ Piece.sprouts before production := by
          intro sibling inside found found_at
          rcases exists_index_of_mem_section (siblings sibling inside).2 with
            ⟨there, inSection, there_at⟩
          rwa [Marking.index_eq_of_owner traces.distinct found_at there_at]
        exact ⟨before, production, after, rfl, isSprout _ List.mem_cons_self index origin_at,
          traces.hangsOn_of_lineage marked entry isSprout⟩

end Traces

/-- A generation of balanced productions embeds the tree in the new one. -/
theorem IsAligned.embedsIn_adopt (aligned : plant.IsAligned)
    (reading : Piece.Reading productions plant.word pieces)
    (balanced : ∀ production ∈ productions, production.IsBalanced) :
    plant.EmbedsIn (plant.adopt (Generation.ofPieces pieces)) pieces := by
  have unbracketed : ∀ production ∈ productions, '[' ∉ production.predecessor := by
    intro production listed
    exact (balanced production listed).1
  have marked := Marking.reading_of_word reading plant.indexed (word_indexed plant)
  rcases aligned.exists_traces reading unbracketed with ⟨place, traces⟩
  exact ⟨place, traces.carries aligned marked balanced,
    traces.sprouts aligned reading balanced⟩

/-! ## Layers -/

/-- Layers depend on the ages and the parents of the branches alone. -/
theorem IsLayered.of_map_eq {after : Plant} (layered : plant.IsLayered)
    (depth_eq : after.depth = plant.depth)
    (same : after.crown.branches.map (fun branch => (branch.creationDepth, branch.parent)) =
      plant.crown.branches.map fun branch => (branch.creationDepth, branch.parent)) :
    after.IsLayered := by
  have matching : ∀ {index : Nat} {first second : Branch},
      after.crown.branches[index]? = some first → plant.crown.branches[index]? = some second →
        first.creationDepth = second.creationDepth ∧ first.parent = second.parent := by
    intro index first second first_at second_at
    have column := congrArg (fun column => column[index]?) same
    simpa [first_at, second_at] using column
  have sizes : after.crown.branches.length = plant.crown.branches.length := by
    simpa using congrArg List.length same
  intro branch member
  rcases List.getElem?_of_mem member with ⟨index, branch_at⟩
  have inRange := (List.getElem?_eq_some_iff.mp branch_at).1
  have before_at := List.getElem?_eq_getElem (sizes ▸ inRange)
  rcases layered _ (List.mem_of_getElem? before_at) with ⟨young, older⟩
  rcases matching branch_at before_at with ⟨age_eq, parent_eq⟩
  rw [age_eq, parent_eq, depth_eq]
  refine ⟨young, ?_⟩
  intro parent isParent
  rcases older parent isParent with ⟨around, around_at, age⟩
  have parentInRange := (List.getElem?_eq_some_iff.mp around_at).1
  have found_at := List.getElem?_eq_getElem (sizes ▸ parentInRange)
  refine ⟨_, found_at, ?_⟩
  rwa [(matching found_at around_at).1]

/-- A branch of the next plant is an old one at its place, or a bud of the new layer. -/
theorem old_or_bud {next : Plant} {place : Nat ↪o Nat} (carries : plant.Carries next place)
    (sprouts : plant.Sprouts next pieces place) {index : Nat} {branch : Branch}
    (branch_at : next.crown.branches[index]? = some branch) :
    (∃ (old : Nat) (before : Branch), plant.crown.branches[old]? = some before ∧
      branch.creationDepth = before.creationDepth ∧
      branch.parent = before.parent.map place) ∨
    branch.creationDepth = next.depth := by
  by_cases carried : ∃ old < plant.crown.branches.length, place old = index
  · rcases carried with ⟨old, inRange, rfl⟩
    have before_at := List.getElem?_eq_getElem inRange
    rcases carries old _ before_at with ⟨found, found_at, record_eq, -, parent_eq⟩
    cases Option.some.inj (found_at.symm.trans branch_at)
    exact Or.inl ⟨old, _, before_at, congrArg Record.creationDepth record_eq, parent_eq⟩
  · have new : ∀ old < plant.crown.branches.length, place old ≠ index := by
      intro old inRange place_eq
      exact carried ⟨old, inRange, place_eq⟩
    exact Or.inr (congrArg Record.creationDepth (sprouts index branch branch_at new).1)

/-- A generation puts its buds on top of all layers. -/
theorem EmbedsIn.isLayered {next : Plant} (embeds : plant.EmbedsIn next pieces)
    (layered : plant.IsLayered) (aligned : next.IsAligned)
    (depth_eq : next.depth = plant.depth + 1) : next.IsLayered := by
  rcases embeds with ⟨place, carries, sprouts⟩
  have young : ∀ {index : Nat} {branch : Branch},
      next.crown.branches[index]? = some branch → branch.creationDepth ≤ next.depth := by
    intro index branch branch_at
    rcases old_or_bud carries sprouts branch_at with
      ⟨old, before, before_at, age_eq, -⟩ | age_eq
    · have bound := (layered before (List.mem_of_getElem? before_at)).1
      omega
    · exact Nat.le_of_eq age_eq
  intro branch member
  rcases List.getElem?_of_mem member with ⟨index, branch_at⟩
  refine ⟨young branch_at, ?_⟩
  intro parent isParent
  rcases old_or_bud carries sprouts branch_at with
    ⟨old, before, before_at, age_eq, parent_eq⟩ | age_eq
  · rw [isParent] at parent_eq
    rcases Option.map_eq_some_iff.mp parent_eq.symm with ⟨oldParent, oldParent_eq, rfl⟩
    rcases (layered before (List.mem_of_getElem? before_at)).2 oldParent oldParent_eq with
      ⟨around, around_at, older⟩
    rcases carries oldParent around around_at with ⟨found, found_at, record_eq, -, -⟩
    have same : found.creationDepth = around.creationDepth :=
      congrArg Record.creationDepth record_eq
    refine ⟨found, found_at, ?_⟩
    omega
  · rcases aligned.exists_parent member isParent with ⟨around, around_at⟩
    refine ⟨around, around_at, ?_⟩
    rw [age_eq]
    exact young around_at

theorem isLayered_sow (species : Species) (point : Vec3) : (sow species point).IsLayered := by
  have newborn : ∀ branch ∈ (sow species point).crown.branches, branch.creationDepth = 0 := by
    intro branch member
    exact congrArg Record.creationDepth (record_eq_ungrown_of_sow member)
  intro branch member
  rw [newborn branch member]
  refine ⟨Nat.zero_le _, ?_⟩
  intro parent isParent
  rcases (isAligned_sow species point).exists_parent member isParent with ⟨around, around_at⟩
  exact ⟨around, around_at, Nat.le_of_eq (newborn around (List.mem_of_getElem? around_at))⟩

theorem isLayered_invariant : Invariant fun plant =>
    (∀ production ∈ plant.species.productions, production.IsBalanced) ∧
      plant.IsAligned ∧ plant.IsLayered where
  grow environment draws holds := by
    rcases holds with ⟨balanced, aligned, layered⟩
    refine ⟨balanced, isAligned_grow aligned environment draws, layered.of_map_eq rfl ?_⟩
    exact Pass.map_branches_run (fun branch => (branch.creationDepth, branch.parent))
      (fun _ _ _ => rfl) _ _ _ _ _
  advance {plant next draws} advances holds := by
    rcases holds with ⟨balanced, aligned, layered⟩
    rcases advance?_eq_some_iff.mp advances with ⟨-, rfl⟩
    have reading := Piece.reading_cut plant.species.productions plant.word draws
    exact ⟨balanced, isAligned_adopt _ _, (aligned.embedsIn_adopt reading balanced).isLayered
      layered (isAligned_adopt _ _) rfl⟩

/-- Where all productions are balanced, every generation of every plant embeds the tree of
its branches in the next one.  So no branch is ever older than its parent. -/
theorem embedsIn_of_run (species : Species) (point : Vec3)
    (balanced : ∀ production ∈ species.productions, production.IsBalanced)
    (actions : List Action) (draws drawsThen : Draws) :
    let plant := ((sow species point).run actions draws).1.plant
    let pieces := (Piece.cut plant.species.productions plant.word drawsThen).1
    plant.IsLayered ∧
      ∀ next, (plant.advance? drawsThen).1 = some next →
        plant.word = pieces.flatMap Piece.source ∧ next.word = pieces.flatMap Piece.result ∧
          plant.EmbedsIn next pieces := by
  intro plant pieces
  have holds := isLayered_invariant.run actions draws
    ⟨balanced, isAligned_sow species point, isLayered_sow species point⟩
  rcases holds with ⟨stillBalanced, aligned, layered⟩
  refine ⟨layered, ?_⟩
  intro next advances
  rcases advance?_eq_some_iff.mp advances with ⟨-, rfl⟩
  have reading := Piece.reading_cut plant.species.productions plant.word drawsThen
  exact ⟨reading.flatMap_source.symm, rfl, aligned.embedsIn_adopt reading stillBalanced⟩

/-- The leafy tree is embedded in its third generation. -/
theorem embedsIn_leafyTree :
    let plant := ((sow Species.leafyTree ⟨1, 0, 2⟩).run [.update .noon, .advance]
      (Draws.ofSeed 7)).1.plant
    let pieces := (Piece.cut plant.species.productions plant.word (Draws.ofSeed 7)).1
    plant.crown.branches.length = 13 ∧
      ∃ next, (plant.advance? (Draws.ofSeed 7)).1 = some next ∧
        next.crown.branches.length = 40 ∧ plant.EmbedsIn next pieces := by
  intro plant pieces
  have advances : (plant.advance? (Draws.ofSeed 7)).1 =
      some (plant.adopt (Generation.ofPieces pieces)) :=
    advance?_eq_some_iff.mpr ⟨by decide +kernel, rfl⟩
  refine ⟨by decide +kernel, _, advances, by decide +kernel, ?_⟩
  exact ((embedsIn_of_run Species.leafyTree _ (by decide) _ _ _).2 _ advances).2.2

/-- Where no bracket is open, a successor may still begin a branch that is no root: one
that lies below another branch of the successor. -/
theorem not_isRoot_of_nested_successor :
    let production := Production.certain "A".toList "[F[F]]".toList
    let species := { Species.plain with
      initiator := "[F]A".toList, productions := [production] }
    let draws := Draws.start fun _ => 0
    let plant := sow species ⟨0, 0, 0⟩
    let before := [Piece.copied '[', .copied 'F', .copied ']']
    production.IsBalanced ∧
      (Piece.cut species.productions plant.word draws).1 = before ++ [.replaced production] ∧
      Word.innermostUnclosed? (before.flatMap Piece.source) = none ∧
      2 ∈ Piece.sprouts before production ∧
      ∃ next, (plant.advance? draws).1 = some next ∧ ¬ next.crown.IsRoot 2 := by
  intro production species draws plant before
  refine ⟨by decide, by decide +kernel, by decide, by decide, _,
    advance?_eq_some_iff.mpr ⟨by decide, rfl⟩, ?_⟩
  rintro ⟨branch, branch_at, parent_eq⟩
  have parents := congrArg (Option.map Branch.parent) branch_at
  rw [Option.map_some, parent_eq] at parents
  exact absurd parents (by decide +kernel)

end Plant

end Arbor
