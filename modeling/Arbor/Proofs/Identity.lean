import Arbor.Proofs.Budding
import Arbor.Proofs.Edit
import Arbor.Proofs.Growth
import Arbor.Species.Library
import Mathlib.Data.List.Forall2
import Mathlib.Data.List.Nodup
import Mathlib.Data.List.Perm.Subperm

/-!
# Identifiers

Branches move about in the crown and are dropped from it, but as long as no more
identifiers are given away than there are, an identifier means one branch for ever.  What
carries that through the edits is the number of identifiers issued so far: those in the
crown are below it, and later edits issue others.
-/

namespace Arbor

/-! ## Records that ripen -/

namespace Record

/-- What becomes of a record that stays in the crown.  Once it has nodes it stays as it
is. -/
structure RipenedFrom (after before : Record) : Prop where
  id_eq : after.id = before.id
  creationDepth_eq : after.creationDepth = before.creationDepth
  eq_of_grown : before.nodes ≠ [] → after = before

theorem ripenedFrom_refl (record : Record) : record.RipenedFrom record :=
  ⟨rfl, rfl, fun _ => rfl⟩

theorem RipenedFrom.trans {last after before : Record} (later : last.RipenedFrom after)
    (earlier : after.RipenedFrom before) : last.RipenedFrom before where
  id_eq := later.id_eq.trans earlier.id_eq
  creationDepth_eq := later.creationDepth_eq.trans earlier.creationDepth_eq
  eq_of_grown grown := by
    have same := earlier.eq_of_grown grown
    exact (later.eq_of_grown (same ▸ grown)).trans same

instance : Std.Refl RipenedFrom := ⟨ripenedFrom_refl⟩

instance : IsTrans Record RipenedFrom := ⟨fun _ _ _ => RipenedFrom.trans⟩

/-! Some records may be dropped while the others ripen. -/

variable {after before : List Record}

theorem exists_ripenedFrom (ripened : List.SublistForall₂ RipenedFrom after before)
    {record : Record} (member : record ∈ after) :
    ∃ source ∈ before, record.RipenedFrom source := by
  induction ripened with
  | nil => exact absurd member List.not_mem_nil
  | cons ripened _ ih =>
      rcases List.mem_cons.mp member with rfl | later
      · exact ⟨_, List.mem_cons_self, ripened⟩
      · rcases ih later with ⟨source, source_mem, ripened⟩
        exact ⟨source, List.mem_cons_of_mem _ source_mem, ripened⟩
  | cons_right _ ih =>
      rcases ih member with ⟨source, source_mem, ripened⟩
      exact ⟨source, List.mem_cons_of_mem _ source_mem, ripened⟩

theorem sublist_map_id (ripened : List.SublistForall₂ RipenedFrom after before) :
    (after.map Record.id).Sublist (before.map Record.id) := by
  induction ripened with
  | nil => exact List.nil_sublist _
  | cons ripened _ ih =>
      rw [List.map_cons, List.map_cons, ripened.id_eq]
      exact ih.cons_cons _
  | cons_right _ ih => exact ih.cons _

/-- Ripening does not change which records have an identifier of some kind. -/
theorem sublistForall₂_filter (isKind : UInt32 → Bool)
    (ripened : List.SublistForall₂ RipenedFrom after before) :
    List.SublistForall₂ RipenedFrom (after.filter fun record => isKind record.id)
      (before.filter fun record => isKind record.id) := by
  induction ripened with
  | nil => exact .nil
  | @cons later earlier _ _ ripened _ ih =>
      cases kind : isKind earlier.id with
      | true => simpa [ripened.id_eq, kind] using .cons ripened ih
      | false => simpa [ripened.id_eq, kind] using ih
  | @cons_right earlier _ _ _ ih =>
      cases kind : isKind earlier.id with
      | true => simpa [kind] using .cons_right ih
      | false => simpa [kind] using ih

end Record

namespace Branch

theorem ripenedFrom_growOnce (species : Species) (environment : Environment) (pose : Pose)
    (branch : Branch) (draws : Draws) :
    (branch.growOnce species environment pose draws).1.branch.record.RipenedFrom
      branch.record := by
  cases grown : branch.isGrown with
  | true =>
      rw [growOnce_of_isGrown _ _ _ _ _ grown]
      exact Record.ripenedFrom_refl _
  | false =>
      have empty : branch.record.nodes = [] := by
        simpa [isGrown, record] using grown
      exact
        { id_eq := growOnce_keeps _ _ _ _ _ Branch.id (fun _ _ _ => rfl)
          creationDepth_eq :=
            growOnce_keeps _ _ _ _ _ Branch.creationDepth (fun _ _ _ => rfl)
          eq_of_grown := fun nonempty => absurd empty nonempty }

end Branch

/-- The records ripen in a pass, one by one. -/
theorem Pass.forall₂_ripenedFrom (species : Species) (environment : Environment) (base : Vec3)
    (branches : List Branch) (draws : Draws) :
    List.Forall₂ Record.RipenedFrom
      ((run species environment base branches draws).1.branches.map Branch.record)
      (branches.map Branch.record) := by
  rw [List.forall₂_map_left_iff, List.forall₂_map_right_iff]
  apply forall₂_run
  intro branch pose draws
  exact Branch.ripenedFrom_growOnce species environment pose branch draws

namespace Crown

/-! ## Issued identifiers -/

/-- The records of the branches, in the order of their brackets. -/
def records (crown : Crown) : List Record :=
  crown.branches.map Branch.record

/-- The identifiers of the branches, in the order of their brackets. -/
def ids (crown : Crown) : List UInt32 :=
  crown.branches.map Branch.id

theorem map_id_records (crown : Crown) : crown.records.map Record.id = crown.ids := by
  rw [records, ids, List.map_map]
  rfl

/-- The identifiers in the crown are different, and are among those issued. -/
structure IsNumbered (crown : Crown) (issued : Nat) : Prop where
  nextId_eq : crown.nextId = UInt32.ofNat issued
  distinct : crown.ids.Nodup
  below : ∀ id ∈ crown.ids, id.toNat < issued

/-- Of the later records, those with identifiers that had been issued are earlier ones, in
their order, and may have ripened. -/
def Evolves (issued : Nat) (earlier later : Crown) : Prop :=
  List.SublistForall₂ Record.RipenedFrom
    (later.records.filter fun record => record.id.toNat < issued) earlier.records

theorem isNumbered_empty : empty.IsNumbered 0 :=
  ⟨rfl, List.nodup_nil, fun _ member => absurd member List.not_mem_nil⟩

variable {crown earlier later last : Crown} {issued count : Nat}

theorem ids_buds (numbered : crown.IsNumbered issued) (count creationDepth : Nat) :
    (crown.buds count creationDepth).map Branch.id =
      (List.range' issued count).map UInt32.ofNat := by
  rw [buds, numbered.nextId_eq, List.range'_eq_map_range, List.map_map, List.map_map]
  apply List.map_congr_left
  intro offset _
  exact (UInt32.ofNat_add issued offset).symm

theorem toNat_mem_ids_buds (numbered : crown.IsNumbered issued)
    (room : issued + count ≤ UInt32.size) {creationDepth : Nat} {bud : Branch}
    (member : bud ∈ crown.buds count creationDepth) :
    issued ≤ bud.id.toNat ∧ bud.id.toNat < issued + count := by
  have id_mem := List.mem_map_of_mem (f := Branch.id) member
  rw [ids_buds numbered] at id_mem
  rcases List.mem_map.mp id_mem with ⟨number, inRange, id_eq⟩
  rw [List.mem_range'_1] at inRange
  rw [← id_eq, UInt32.toNat_ofNat_of_lt' (Nat.lt_of_lt_of_le inRange.2 room)]
  exact inRange

theorem nodup_ids_buds (numbered : crown.IsNumbered issued)
    (room : issued + count ≤ UInt32.size) (creationDepth : Nat) :
    ((crown.buds count creationDepth).map Branch.id).Nodup := by
  rw [ids_buds numbered]
  apply List.Nodup.map_on
  · intro first first_mem second second_mem equal
    rw [List.mem_range'_1] at first_mem second_mem
    have same := congrArg UInt32.toNat equal
    rwa [UInt32.toNat_ofNat_of_lt' (Nat.lt_of_lt_of_le first_mem.2 room),
      UInt32.toNat_ofNat_of_lt' (Nat.lt_of_lt_of_le second_mem.2 room)] at same
  · exact List.nodup_range' _

/-- Where all identifiers are among those issued, none is left out. -/
theorem filter_issued {part : List Record} (below : ∀ record ∈ part, record.id.toNat < issued) :
    part.filter (fun record => record.id.toNat < issued) = part := by
  rw [List.filter_eq_self]
  intro record member
  exact decide_eq_true (below record member)

theorem IsNumbered.below_records (numbered : crown.IsNumbered issued) {record : Record}
    (member : record ∈ crown.records) : record.id.toNat < issued := by
  apply numbered.below
  rw [← map_id_records]
  exact List.mem_map_of_mem member

/-! An edit puts buds somewhere among the branches, or none, and may drop some branches. -/

section Extension

variable {left right : List Branch} {creationDepth : Nat}

theorem perm_ids_extended (split : crown.branches = left ++ right) (count creationDepth : Nat) :
    ((left ++ crown.buds count creationDepth ++ right).map Branch.id).Perm
      (crown.ids ++ (crown.buds count creationDepth).map Branch.id) := by
  rw [ids, split, ← List.map_append]
  apply List.Perm.map
  rw [List.append_assoc, List.append_assoc]
  exact List.perm_append_comm.append_left left

theorem IsNumbered.extended (numbered : crown.IsNumbered issued)
    (room : issued + count ≤ UInt32.size) (split : crown.branches = left ++ right)
    (kept : later.records.Sublist
      ((left ++ crown.buds count creationDepth ++ right).map Branch.record))
    (nextId_eq : later.nextId = crown.nextId + UInt32.ofNat count) :
    later.IsNumbered (issued + count) := by
  have ids_perm := perm_ids_extended split count creationDepth
  have ids_kept : later.ids.Sublist
      ((left ++ crown.buds count creationDepth ++ right).map Branch.id) := by
    have mapped := kept.map Record.id
    rwa [map_id_records, List.map_map] at mapped
  constructor
  · rw [nextId_eq, numbered.nextId_eq, UInt32.ofNat_add]
  · apply List.Nodup.sublist ids_kept
    rw [ids_perm.nodup_iff, List.nodup_append]
    refine ⟨numbered.distinct, nodup_ids_buds numbered room creationDepth, ?_⟩
    rintro id old second new rfl
    rcases List.mem_map.mp new with ⟨bud, bud_mem, rfl⟩
    have below := numbered.below bud.id old
    have above := (toNat_mem_ids_buds numbered room bud_mem).1
    omega
  · intro id member
    rcases List.mem_append.mp (ids_perm.subset (ids_kept.subset member)) with old | new
    · exact Nat.lt_add_right count (numbered.below id old)
    · rcases List.mem_map.mp new with ⟨bud, bud_mem, rfl⟩
      exact (toNat_mem_ids_buds numbered room bud_mem).2

/-- Without the buds, what is left of the branches that were there remains. -/
theorem IsNumbered.evolves_extended (numbered : crown.IsNumbered issued)
    (room : issued + count ≤ UInt32.size) (split : crown.branches = left ++ right)
    (kept : later.records.Sublist
      ((left ++ crown.buds count creationDepth ++ right).map Branch.record)) :
    Evolves issued crown later := by
  have noBud : ((crown.buds count creationDepth).map Branch.record).filter
      (fun record => record.id.toNat < issued) = [] := by
    rw [List.filter_eq_nil_iff]
    intro record member
    rcases List.mem_map.mp member with ⟨bud, bud_mem, rfl⟩
    rw [decide_eq_true_eq, Nat.not_lt]
    exact (toNat_mem_ids_buds numbered room bud_mem).1
  have records_eq : crown.records = left.map Branch.record ++ right.map Branch.record := by
    rw [records, split, List.map_append]
  have remaining := kept.filter fun record => decide (record.id.toNat < issued)
  rw [List.map_append, List.map_append, List.filter_append, List.filter_append, noBud,
    List.append_nil, ← List.filter_append, ← records_eq,
    filter_issued fun record => numbered.below_records] at remaining
  exact remaining.sublistForall₂

end Extension

/-- An edit gives away fresh identifiers and lets the branches keep theirs. -/
theorem IsNumbered.edit (numbered : crown.IsNumbered issued) (edit : Edit)
    (room : issued + crown.demand edit ≤ UInt32.size) :
    (crown.edit edit).IsNumbered (issued + crown.demand edit) ∧
      Evolves issued crown (crown.edit edit) := by
  cases edit with
  | insert count position creationDepth =>
      have split := (List.take_append_drop position crown.branches).symm
      exact ⟨numbered.extended room split (List.Sublist.refl _) rfl,
        numbered.evolves_extended room split (List.Sublist.refl _)⟩
  | align word creationDepth =>
      have split := (List.append_nil crown.branches).symm
      let missing := crown.demand (.align word creationDepth)
      have kept : (crown.edit (.align word creationDepth)).records.Sublist
          ((crown.branches ++ crown.buds missing creationDepth ++ []).map Branch.record) := by
        simp only [Crown.edit, align, records, Record.map_record_zipWith_place, List.append_nil]
        exact List.take_sublist _ _
      exact ⟨numbered.extended room split kept rfl, numbered.evolves_extended room split kept⟩
  | grow species environment base draws =>
      have ripened := Pass.forall₂_ripenedFrom species environment base crown.branches draws
      have ids_eq : (crown.edit (.grow species environment base draws)).ids = crown.ids :=
        Pass.map_branches_run Branch.id (fun _ _ _ => rfl) _ _ _ _ _
      constructor
      · exact
          { nextId_eq := numbered.nextId_eq
            distinct := ids_eq ▸ numbered.distinct
            below := ids_eq ▸ numbered.below }
      · have below : ∀ record ∈ (crown.edit (.grow species environment base draws)).records,
            record.id.toNat < issued := by
          intro record member
          have id_mem := List.mem_map_of_mem (f := Record.id) member
          rw [map_id_records, ids_eq] at id_mem
          exact numbered.below record.id id_mem
        rw [Evolves, filter_issued below]
        exact List.sublistForall₂_iff.mpr ⟨crown.records, ripened, List.Sublist.refl _⟩

/-! ## Runs of edits -/

/-- What evolves further has evolved from the beginning. -/
theorem Evolves.trans {issuedThen : Nat} (first : Evolves issued earlier later)
    (second : Evolves issuedThen later last) (more : issued ≤ issuedThen) :
    Evolves issued earlier last := by
  have narrowed := Record.sublistForall₂_filter (fun id => decide (id.toNat < issued)) second
  have both : ∀ record : Record,
      (decide (record.id.toNat < issued) && decide (record.id.toNat < issuedThen)) =
        decide (record.id.toNat < issued) := by
    intro record
    rw [Bool.and_eq_left_iff_imp]
    simp only [decide_eq_true_eq]
    exact fun below => Nat.lt_of_lt_of_le below more
  simp only [List.filter_filter, both] at narrowed
  rw [Evolves] at first ⊢
  exact IsTrans.trans _ _ _ narrowed first

theorem IsNumbered.editAll (edits : List Edit) :
    {crown : Crown} → {issued : Nat} → crown.IsNumbered issued →
      issued + crown.allocated edits ≤ UInt32.size →
      (crown.editAll edits).IsNumbered (issued + crown.allocated edits) ∧
        Evolves issued crown (crown.editAll edits) := by
  induction edits with
  | nil =>
      intro crown issued numbered room
      refine ⟨numbered, ?_⟩
      rw [Evolves, editAll_nil, filter_issued fun record => numbered.below_records]
      exact (List.Sublist.refl _).sublistForall₂
  | cons edit rest ih =>
      intro crown issued numbered room
      rw [allocated, ← Nat.add_assoc] at room ⊢
      rcases numbered.edit edit (Nat.le_of_add_right_le room) with ⟨numberedThen, first⟩
      rcases ih numberedThen room with ⟨numberedLast, second⟩
      exact ⟨numberedLast, first.trans second (Nat.le_add_right _ _)⟩

/-! ## What identifiers mean -/

/-- What is the same at an earlier and a later time: the order of the branches that are in
the crown at both times, their ages, and the geometry of those that had grown. -/
structure Persists (earlier later : Crown) : Prop where
  order : later.ids.filter (· ∈ earlier.ids) = earlier.ids.filter (· ∈ later.ids)
  creationDepth : ∀ before ∈ earlier.branches, ∀ after ∈ later.branches,
    after.id = before.id → after.creationDepth = before.creationDepth
  geometry : ∀ before ∈ earlier.branches, ∀ after ∈ later.branches,
    after.id = before.id → before.isGrown = true →
      after.nodes = before.nodes ∧ after.leaves = before.leaves

/-- Identifiers belong to branches at three times: at each they are different, from each
to the next the branches persist, and what is gone stays away. -/
structure Identifies (first second third : Crown) : Prop where
  distinct : first.ids.Nodup ∧ second.ids.Nodup ∧ third.ids.Nodup
  persists : first.Persists second ∧ second.Persists third ∧ first.Persists third
  gone : ∀ id ∈ first.ids, id ∉ second.ids → id ∉ third.ids

/-- What was issued before is still in its old order, as far as it is there. -/
theorem Evolves.sublist_ids (evolves : Evolves issued earlier later) :
    (later.ids.filter fun id => id.toNat < issued).Sublist earlier.ids := by
  have narrowed : (later.ids.filter fun id => id.toNat < issued) =
      (later.records.filter fun record => record.id.toNat < issued).map Record.id := by
    rw [← map_id_records, List.filter_map]
    rfl
  rw [narrowed, ← map_id_records]
  exact Record.sublist_map_id evolves

/-- A branch with the identifier of an earlier one has ripened from that one. -/
theorem Evolves.ripenedFrom (evolves : Evolves issued earlier later)
    (numbered : earlier.IsNumbered issued) {before after : Branch}
    (before_mem : before ∈ earlier.branches) (after_mem : after ∈ later.branches)
    (id_eq : after.id = before.id) : after.record.RipenedFrom before.record := by
  have before_record : before.record ∈ earlier.records := List.mem_map_of_mem before_mem
  have below : after.id.toNat < issued := by
    rw [id_eq]
    exact numbered.below_records before_record
  have remains : after.record ∈ later.records.filter fun record => record.id.toNat < issued :=
    List.mem_filter.mpr ⟨List.mem_map_of_mem after_mem, decide_eq_true below⟩
  rcases Record.exists_ripenedFrom evolves remains with ⟨found, found_mem, ripened⟩
  have same : found = before.record := by
    apply List.inj_on_of_nodup_map (f := Record.id) _ found_mem before_record
    · exact ripened.id_eq.symm.trans id_eq
    · rw [map_id_records]
      exact numbered.distinct
  exact same ▸ ripened

/-- Branches persist while their crown evolves. -/
theorem Evolves.persists (evolves : Evolves issued earlier later)
    (numbered : earlier.IsNumbered issued) : earlier.Persists later := by
  have known : ∀ id ∈ later.ids, id ∈ earlier.ids ↔ id.toNat < issued := by
    intro id member
    refine ⟨numbered.below id, ?_⟩
    intro below
    exact evolves.sublist_ids.subset (List.mem_filter.mpr ⟨member, decide_eq_true below⟩)
  have later_eq : later.ids.filter (· ∈ earlier.ids) =
      later.ids.filter fun id => id.toNat < issued := by
    apply List.filter_congr
    intro id member
    exact decide_eq_decide.mpr (known id member)
  have inOrder : (later.ids.filter (· ∈ earlier.ids)).Sublist
      (earlier.ids.filter (· ∈ later.ids)) := by
    have common := evolves.sublist_ids.filter fun id => decide (id ∈ later.ids)
    rw [← later_eq, List.filter_eq_self.mpr] at common
    · exact common
    · intro id member
      exact decide_eq_true (List.mem_filter.mp member).1
  have nothingElse : (earlier.ids.filter (· ∈ later.ids)).length ≤
      (later.ids.filter (· ∈ earlier.ids)).length := by
    apply (List.Nodup.subperm (numbered.distinct.filter _) _).length_le
    intro id member
    simp only [List.mem_filter, decide_eq_true_eq] at member ⊢
    exact member.symm
  exact
    { order := inOrder.eq_of_length_le nothingElse
      creationDepth := by
        intro before before_mem after after_mem id_eq
        exact (evolves.ripenedFrom numbered before_mem after_mem id_eq).creationDepth_eq
      geometry := by
        intro before before_mem after after_mem id_eq grown
        have nonempty : before.record.nodes ≠ [] := by
          simpa [Branch.isGrown, Branch.record] using grown
        have same := (evolves.ripenedFrom numbered before_mem after_mem id_eq).eq_of_grown
          nonempty
        exact ⟨congrArg Record.nodes same, congrArg Record.leaves same⟩ }

/-- In every run of edits that gives away no more identifiers than there are, identifiers
belong to branches. -/
theorem identifies_editAll (first second third : List Edit)
    (few : empty.allocated (first ++ second ++ third) ≤ UInt32.size) :
    Identifies (empty.editAll first) (empty.editAll (first ++ second))
      (empty.editAll (first ++ second ++ third)) := by
  rw [allocated_append, allocated_append, editAll_append] at few
  rw [editAll_append _ (first ++ second), editAll_append]
  rcases isNumbered_empty.editAll first (by omega) with ⟨numbered₁, -⟩
  rw [Nat.zero_add] at numbered₁
  rcases numbered₁.editAll second (by omega) with ⟨numbered₂, evolves₂⟩
  rcases numbered₂.editAll third few with ⟨numbered₃, evolves₃⟩
  have evolves := evolves₂.trans evolves₃ (Nat.le_add_right _ _)
  refine
    { distinct := ⟨numbered₁.distinct, numbered₂.distinct, numbered₃.distinct⟩
      persists := ⟨evolves₂.persists numbered₁, evolves₃.persists numbered₂,
        evolves.persists numbered₁⟩
      gone := ?_ }
  intro id inFirst gone inThird
  have below := Nat.lt_add_right ((empty.editAll first).allocated second)
    (numbered₁.below id inFirst)
  exact gone (evolves₃.sublist_ids.subset
    (List.mem_filter.mpr ⟨inThird, decide_eq_true below⟩))

end Crown

namespace Plant

/-- As long as no more identifiers are given away than there are, identifiers belong to
branches: in every crown that is edited in any way, and in every plant, whatever is done
and drawn. -/
theorem identifies_edits_and_runs :
    (∀ first second third : List Crown.Edit,
      Crown.empty.allocated (first ++ second ++ third) ≤ UInt32.size →
        (Crown.empty.editAll first).Identifies (Crown.empty.editAll (first ++ second))
          (Crown.empty.editAll (first ++ second ++ third))) ∧
    ∀ (species : Species) (point : Vec3) (first second third : List Action) (draws : Draws),
      Crown.empty.allocated (history species point (first ++ second ++ third) draws) ≤
          UInt32.size →
        ((sow species point).run first draws).1.plant.crown.Identifies
          ((sow species point).run (first ++ second) draws).1.plant.crown
          ((sow species point).run (first ++ second ++ third) draws).1.plant.crown := by
  refine ⟨Crown.identifies_editAll, ?_⟩
  intro species point first second third draws few
  rcases exists_history_append species point first second draws with ⟨edits₂, history₂⟩
  rcases exists_history_append species point (first ++ second) third draws with
    ⟨edits₃, history₃⟩
  rw [history₃, history₂] at few
  rw [crown_eq_editAll_history, crown_eq_editAll_history, crown_eq_editAll_history, history₃,
    history₂]
  exact Crown.identifies_editAll _ edits₂ edits₃ few

/-- A crown that is cut back and extended again, and a leafy tree. -/
theorem identifies_pruned_and_leafyTree :
    let first : List Crown.Edit :=
      [.insert 2 9 0, .align "[F[F]][F]".toList 0, .grow .plain .noon ⟨0, 0, 0⟩ (Draws.ofSeed 7)]
    let second : List Crown.Edit := [.align "[F]".toList 1]
    let third : List Crown.Edit := [.align "[F][F]".toList 2]
    let crown := Crown.empty.editAll
    let plant := fun actions =>
      ((sow Species.leafyTree ⟨1, 0, 2⟩).run actions (Draws.ofSeed 7)).1.plant
    (crown first).ids = [0, 1, 2] ∧ (crown (first ++ second)).ids = [0] ∧
      (crown (first ++ second ++ third)).ids = [0, 3] ∧
      (crown first).Identifies (crown (first ++ second)) (crown (first ++ second ++ third)) ∧
      (plant [.update .noon]).crown.Identifies (plant [.update .noon, .advance]).crown
        (plant [.update .noon, .advance, .grow .noon]).crown := by
  intro first second third crown plant
  refine ⟨by decide +kernel, by decide +kernel, by decide +kernel, ?_, ?_⟩
  · exact identifies_edits_and_runs.1 first second third (by decide +kernel)
  · exact identifies_edits_and_runs.2 Species.leafyTree ⟨1, 0, 2⟩ [.update .noon] [.advance]
      [.grow .noon] (Draws.ofSeed 7) (by decide +kernel)

end Plant

end Arbor
