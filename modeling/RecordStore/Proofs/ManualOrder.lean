import Mathlib
import RecordStore.Proofs.Creation
import RecordStore.Proofs.Pages

/-!
# Manual order

Records of an object are brought into an order by giving each its place there as its position. The
other records keep theirs, so that positions given by one call stand beside those given by others.
Main statement: an order is taken on just if it is of distinct records of an object that is there,
and then the records stand in it, in whatever pages they are listed by position.
-/

namespace RecordStore

/-! ### Places -/

/-- A record with the place of its id, counted from a first one, if the id is among those given. -/
def Record.placed (place : Nat) (ids : List Id) (r : Record) : Record :=
  if r.id ∈ ids then { r with position := some ↑(place + ids.idxOf r.id) } else r

namespace Record

variable {place : Nat} {ids : List Id} {r : Record}

theorem placed_of_mem (h : r.id ∈ ids) :
    r.placed place ids = { r with position := some ↑(place + ids.idxOf r.id) } := if_pos h

theorem placed_of_notMem (h : r.id ∉ ids) : r.placed place ids = r := if_neg h

@[simp] theorem placed_nil : r.placed place [] = r := placed_of_notMem List.not_mem_nil

@[simp] theorem id_placed : (r.placed place ids).id = r.id := by
  by_cases h : r.id ∈ ids
  · rw [placed_of_mem h]
  · rw [placed_of_notMem h]

@[simp] theorem objectId_placed : (r.placed place ids).objectId = r.objectId := by
  by_cases h : r.id ∈ ids
  · rw [placed_of_mem h]
  · rw [placed_of_notMem h]

@[simp] theorem placed_placed : (r.placed place ids).placed place ids = r.placed place ids := by
  by_cases h : r.id ∈ ids
  · rw [placed_of_mem (r := r.placed place ids) (by rwa [id_placed]), id_placed, placed_of_mem h]
  · rw [placed_of_notMem (by rwa [id_placed])]

/-- To place the first of some ids and then the others is to place all of them. -/
theorem placed_cons {id : Id} (h : id ∉ ids) : r.placed place (id :: ids) =
    (if r.id = id then { r with position := some ↑place } else r).placed (place + 1) ids := by
  by_cases hid : r.id = id
  · subst hid
    rw [if_pos rfl, placed_of_notMem (r := { r with position := some ↑place }) h,
      placed_of_mem List.mem_cons_self, List.idxOf_cons_self, Nat.add_zero]
  · rw [if_neg hid]
    by_cases hmem : r.id ∈ ids
    · rw [placed_of_mem hmem, placed_of_mem (List.mem_cons_of_mem _ hmem),
        List.idxOf_cons_ne _ (Ne.symm hid), Nat.add_right_comm, Nat.add_assoc]
    · rw [placed_of_notMem hmem, placed_of_notMem (by simp [hid, hmem])]

end Record

/-- The store with the places of given ids as the positions of the records that have these ids. -/
def Store.reordered (s : Store) (ids : List Id) : Store :=
  { s with records := s.records.map (Record.placed 0 ids) }

/-! ### Reordering -/

namespace Session

variable {s t : Store}

/-- One after the other, places are given to distinct ids. -/
theorem run_placeRecords {ids : List Id} (hids : ids.Nodup) (s : Store) (place : Nat) :
    (placeRecords place ids).run s =
      .ok () { s with records := s.records.map (Record.placed place ids) } := by
  induction ids generalizing s place with
  | nil =>
    rw [List.map_congr_left fun r _ => Record.placed_nil, List.map_id']
    rfl
  | cons id rest ih =>
    obtain ⟨hid, hrest⟩ := List.nodup_cons.mp hids
    have hrecords : s.records.map (Record.placed place (id :: rest)) =
        (s.records.map fun r =>
          if r.id = id then { r with position := some ↑place } else r).map
            (Record.placed (place + 1) rest) := by
      rw [List.map_map]
      exact List.map_congr_left fun r _ => Record.placed_cons hid
    rw [hrecords]
    exact ih hrest _ (place + 1)

end Session

namespace Store

/-- What may be brought into an order: distinct records of an object that is there. -/
structure Orderable (s : Store) (objectId : Id) (ids : List Id) : Prop where
  object : ∃ o ∈ s.objects, o.id = objectId
  distinct : ids.Nodup
  own : ∀ id ∈ ids, ∃ r ∈ s.recordsOf objectId, r.id = id

variable {s t : Store} {objectId : Id} {ids : List Id}

theorem run_reorder_eq_ok_iff : (Session.reorder objectId ids).run s = .ok () t ↔
    s.Orderable objectId ids ∧ t = s.reordered ids := by
  have hown : (∀ id ∈ ids, ((s.recordsOf objectId).any fun r => r.id == id) = true) ↔
      ∀ id ∈ ids, ∃ r ∈ s.recordsOf objectId, r.id = id := by
    simp only [List.any_eq_true, beq_iff_eq]
  rw [Session.reorder, Session.run_look_bind_eq_ok]
  constructor
  · rintro ⟨o, ho, h⟩
    obtain ⟨_, hnodup, h⟩ := Session.run_liftM_bind_eq_ok.mp (Session.run_get_bind_eq_ok.mp h)
    obtain ⟨_, hids, h⟩ := Session.run_liftM_bind_eq_ok.mp h
    rw [Session.run_transaction_eq_ok,
      Session.run_placeRecords (require_eq_ok_iff.mp hnodup)] at h
    cases h
    exact ⟨⟨⟨o, mem_of_requireObject ho⟩, require_eq_ok_iff.mp hnodup,
      hown.mp (require_eq_ok_iff.mp hids)⟩, rfl⟩
  · rintro ⟨⟨hobject, hnodup, hids⟩, rfl⟩
    obtain ⟨o, ho⟩ := exists_requireObject hobject
    refine ⟨o, ho, Session.run_get_bind_eq_ok.mpr ?_⟩
    refine Session.run_liftM_bind_eq_ok.mpr ⟨(), require_eq_ok_iff.mpr hnodup, ?_⟩
    refine Session.run_liftM_bind_eq_ok.mpr ⟨(), require_eq_ok_iff.mpr (hown.mpr hids), ?_⟩
    rw [Session.run_transaction_eq_ok, Session.run_placeRecords hnodup]
    rfl

theorem perform_reorder_eq_ok_iff {setup : Setup} {stamp : Stamp} {answer : Answer} :
    s.perform setup stamp (.reorder objectId ids) = .ok (answer, t) ↔
      s.Orderable objectId ids ∧ answer = .nothing ∧ t = s.reordered ids := by
  rw [perform_eq_ok_iff, Session.ofCall, Session.silently, Session.run_bind_eq_ok]
  constructor
  · rintro ⟨_, u, hrun, h⟩
    obtain ⟨horderable, rfl⟩ := run_reorder_eq_ok_iff.mp hrun
    cases h
    exact ⟨horderable, rfl, rfl⟩
  · rintro ⟨horderable, rfl, rfl⟩
    exact ⟨(), _, run_reorder_eq_ok_iff.mpr ⟨horderable, rfl⟩, rfl⟩

/-! ### The reordered store -/

theorem recordsOf_reordered : (s.reordered ids).recordsOf objectId =
    (s.recordsOf objectId).map (Record.placed 0 ids) := by
  simp only [recordsOf, reordered, List.filter_map]
  congr 2
  funext r
  simp

theorem reordered_reordered : (s.reordered ids).reordered ids = s.reordered ids := by
  simp only [reordered, List.map_map]
  congr 2
  funext r
  simp

theorem Orderable.reordered (h : s.Orderable objectId ids) :
    (s.reordered ids).Orderable objectId ids := by
  refine ⟨h.object, h.distinct, fun id hid => ?_⟩
  obtain ⟨r, hr, hrid⟩ := h.own id hid
  rw [recordsOf_reordered]
  exact ⟨_, List.mem_map_of_mem hr, by rw [Record.id_placed, hrid]⟩

/-- The position of a record that was named is its place among the ids. -/
theorem position_of_mem_reordered {r : Record} (hr : r ∈ (s.reordered ids).recordsOf objectId)
    (hid : r.id ∈ ids) : r.position = some ↑(ids.idxOf r.id) := by
  rw [recordsOf_reordered] at hr
  obtain ⟨q, -, rfl⟩ := List.mem_map.mp hr
  rw [Record.id_placed] at hid ⊢
  rw [Record.placed_of_mem hid, Nat.zero_add]

/-! ### Listing by position -/

end Store

/-- The sort by position that is asked for by its name. -/
def Query.byPosition (limit : Option Nat) (offset : Nat) : Query :=
  { Query.default with limit, offset, sorts := [⟨"$position", .ascending⟩] }

/-- All rows, those with a position first and in the order of their positions. -/
def CompiledQuery.byPosition : CompiledQuery := ⟨.all, none, [⟨.position, .ascending⟩]⟩

theorem compileQuery_byPosition (unknown : UnknownPolicy) (attributes : List Attribute)
    (limit : Option Nat) (offset : Nat) :
    compileQuery unknown attributes (.byPosition limit offset) = .ok .byPosition := by
  cbv

theorem CompiledQuery.accepts_byPosition (row : Row) :
    CompiledQuery.byPosition.accepts row = true := by
  simp [byPosition, accepts, Matcher.accepts]

theorem present_of_precedes {a b : Row} (h : Precedes CompiledQuery.byPosition.keys a b)
    (hb : b.position.isSome = true) : a.position.isSome = true := by
  cases h with
  | present ha _ => exact ha
  | value ha _ _ => exact ha
  | tied hpresent _ _ => exact hpresent.trans hb

theorem le_of_precedes {a b : Row} {m n : Int} (h : Precedes CompiledQuery.byPosition.keys a b)
    (ha : a.position = some m) (hb : b.position = some n) : m ≤ n := by
  have horder : SortField.position.order a b = compare m n := by rw [SortField.order, ha, hb]
  cases h with
  | present _ hmissing =>
    rw [SortField.isPresent, hb] at hmissing
    cases hmissing
  | value _ _ hlt => exact (Int.compare_eq_lt.mp (horder.symm.trans hlt)).le
  | tied hpresent heq _ =>
    refine (Int.compare_eq_eq.mp (horder.symm.trans (heq ?_))).le
    rw [SortField.isPresent, ha]
    rfl

/-- A list in which all that pass come first is cut into those that pass and those that do not. -/
theorem eq_filter_append_filter_not {α : Type} {p : α → Bool} {l : List α}
    (h : l.Pairwise fun a b => p b = true → p a = true) :
    l = l.filter p ++ l.filter fun a => !p a := by
  induction h with
  | nil => rfl
  | @cons a rest hfirst _ ih =>
    cases hp : p a with
    | true =>
      rw [List.filter_cons_of_pos hp, List.filter_cons_of_neg (by simp [hp]), List.cons_append,
        ← ih]
    | false =>
      have hnone : rest.filter p = [] :=
        List.filter_eq_nil_iff.mpr fun b hb hpb => by simpa [hp] using hfirst b hb hpb
      rw [hnone, List.nil_append] at ih
      rw [List.filter_cons_of_neg (by simp [hp]), List.filter_cons_of_pos (by simp [hp]), ← ih,
        hnone, List.nil_append]

/-- Distinct things stand in the order of their places. -/
theorem pairwise_idxOf {ids : List Id} (h : ids.Nodup) :
    ids.Pairwise fun a b => ids.idxOf a ≤ ids.idxOf b := by
  rw [List.pairwise_iff_getElem]
  intro i j hi hj hij
  rw [h.idxOf_getElem i hi, h.idxOf_getElem j hj]
  exact hij.le

namespace Store

/-- A store keeps an order of records of an object: each has its place in it as its position, and
listed by position they are shown in this order, ahead of all records without a position. -/
structure KeepsOrder (s : Store) (objectId : Id) (ids : List Id) : Prop where
  positions : ∀ (i : Nat) (id : Id), ids[i]? = some id →
    ∃ r ∈ s.recordsOf objectId, r.id = id ∧ r.position = some ↑i
  shown : ∀ (setup : Setup) (limit : Option Nat) (offset : Nat), ∃ placed others : List Record,
    (s.recordListing setup objectId).Serves setup (.byPosition limit offset) .byPosition
      (placed ++ others) ∧
    ids.Sublist (placed.map (·.id)) ∧ (∀ r ∈ placed, r.position.isSome = true) ∧
      ∀ r ∈ others, r.position = none

variable {s : Store} {objectId : Id} {ids : List Id}

section

variable {attributes : List Attribute} {ranked : List Record}
  (hranks : CompiledQuery.byPosition.Ranks ((s.reordered ids).recordRow attributes)
    ((s.reordered ids).recordsOf objectId) ranked)

include hranks

theorem perm_of_ranks_byPosition : ranked.Perm ((s.reordered ids).recordsOf objectId) := by
  have haccepted := hranks.accepted
  rwa [List.filter_eq_self.mpr fun r _ => CompiledQuery.accepts_byPosition _] at haccepted

/-- Listed by position, the records that were named are shown in the order of their ids. -/
theorem map_id_named (hi : (s.reordered ids).Indexed) (h : s.Orderable objectId ids) :
    (ranked.filter fun r => decide (r.id ∈ ids)).map (·.id) = ids := by
  have hall := perm_of_ranks_byPosition hranks
  have hnodup : (ranked.map (·.id)).Nodup :=
    (hall.map _).nodup_iff.mpr (List.pairwise_map.mpr (hi.records.filter _))
  have hnamed : ((ranked.filter fun r => decide (r.id ∈ ids)).map (·.id)).Perm ids := by
    refine (List.perm_ext_iff_of_nodup (hnodup.sublist (List.filter_sublist.map _)) h.distinct).mpr
      fun id => ?_
    simp only [List.mem_map, List.mem_filter, decide_eq_true_eq]
    constructor
    · rintro ⟨r, ⟨-, hr⟩, rfl⟩
      exact hr
    · intro hid
      obtain ⟨r, hr, rfl⟩ := h.reordered.own id hid
      exact ⟨r, ⟨hall.mem_iff.mpr hr, hid⟩, rfl⟩
  -- both lists are in the order of the places
  refine hnamed.eq_of_pairwise (fun a b ha hb hab hba => ?_) ?_ (pairwise_idxOf h.distinct)
  · exact (List.idxOf_inj (hnamed.subset ha)).mp (hab.antisymm hba)
  · rw [List.pairwise_map]
    refine (hranks.ordered.filter _).imp_of_mem fun {q r} hq hr hprecedes => ?_
    obtain ⟨hq, hqid⟩ := List.mem_filter.mp hq
    obtain ⟨hr, hrid⟩ := List.mem_filter.mp hr
    have hposition (r : Record) (hr : r ∈ ranked) (hid : decide (r.id ∈ ids) = true) :=
      position_of_mem_reordered (hall.mem_iff.mp hr) (of_decide_eq_true hid)
    exact Int.ofNat_le.mp (le_of_precedes hprecedes (hposition q hq hqid) (hposition r hr hrid))

/-- Those that were named have positions. -/
theorem sublist_positioned (hi : (s.reordered ids).Indexed) (h : s.Orderable objectId ids) :
    ids.Sublist ((ranked.filter fun r => r.position.isSome).map (·.id)) := by
  have hnamed : (ranked.filter fun r => r.position.isSome).filter (fun r => decide (r.id ∈ ids)) =
      ranked.filter fun r => decide (r.id ∈ ids) := by
    rw [List.filter_filter]
    refine List.filter_congr fun r hr => ?_
    by_cases hid : r.id ∈ ids
    · rw [position_of_mem_reordered ((perm_of_ranks_byPosition hranks).mem_iff.mp hr) hid]
      simp
    · simp [hid]
  have hsub := (List.filter_sublist (p := fun r : Record => decide (r.id ∈ ids))
    (l := ranked.filter fun r => r.position.isSome)).map (·.id)
  rwa [hnamed, map_id_named hranks hi h] at hsub

end

theorem keepsOrder_reordered (ht : (s.reordered ids).Reachable)
    (h : s.Orderable objectId ids) : (s.reordered ids).KeepsOrder objectId ids := by
  refine ⟨fun i id hid => ?_, fun setup limit offset => ?_⟩
  · obtain ⟨r, hr, rfl⟩ := h.reordered.own id (List.mem_of_getElem? hid)
    obtain ⟨hlt, hget⟩ := List.getElem?_eq_some_iff.mp hid
    refine ⟨r, hr, rfl, ?_⟩
    rw [position_of_mem_reordered hr (List.mem_of_getElem? hid), ← hget, h.distinct.idxOf_getElem]
  · obtain ⟨o, ho, rfl⟩ := h.object
    obtain ⟨ranked, hserves⟩ := serves_recordListing (s := s.reordered ids) ht.sound ht.offered ho
      (compileQuery_byPosition setup.unknown _ limit offset)
    have hcut := eq_filter_append_filter_not (p := fun r : Record => r.position.isSome)
      (hserves.ranks.ordered.imp present_of_precedes)
    refine ⟨_, _, hcut ▸ hserves, sublist_positioned hserves.ranks ht.sound.indexed h,
      fun r hr => (List.mem_filter.mp hr).2, fun r hr => ?_⟩
    simpa using (List.mem_filter.mp hr).2

/-- Reordering succeeds just for distinct records of an object, and answers nothing; otherwise it
fails, and nothing is changed. The records that were named have their places as positions and are
listed in that order, and all else is as it was. Asked for again, the order is there already. -/
theorem keepsOrder_of_reorder (hs : s.Reachable) (setup : Setup) (stamp : Stamp) (objectId : Id)
    (ids : List Id) :
    (∀ answer t, s.perform setup stamp (.reorder objectId ids) = .ok (answer, t) ↔
      s.Orderable objectId ids ∧ answer = .nothing ∧ t = s.reordered ids) ∧
    (¬ s.Orderable objectId ids → ∃ e,
      s.perform setup stamp (.reorder objectId ids) = .error e ∧
        s.after setup stamp (.reorder objectId ids) = s) ∧
    (s.Orderable objectId ids → (s.reordered ids).KeepsOrder objectId ids ∧
      ∀ setup' stamp', (s.reordered ids).perform setup' stamp' (.reorder objectId ids) =
        .ok (.nothing, s.reordered ids)) := by
  refine ⟨fun answer t => perform_reorder_eq_ok_iff, fun hnot => ?_, fun h => ⟨?_, ?_⟩⟩
  · cases hperform : s.perform setup stamp (.reorder objectId ids) with
    | ok done => exact absurd (perform_reorder_eq_ok_iff.mp hperform).1 hnot
    | error e => exact ⟨e, rfl, after_eq_of_perform_eq_error hs hperform⟩
  · have hperform : s.perform setup stamp (.reorder objectId ids) =
        .ok (.nothing, s.reordered ids) := perform_reorder_eq_ok_iff.mpr ⟨h, rfl, rfl⟩
    exact keepsOrder_reordered (hs.perform hperform) h
  · exact fun _ _ => perform_reorder_eq_ok_iff.mpr ⟨h.reordered, rfl, reordered_reordered.symm⟩

/-- The older deal is brought to the front by itself. No deal can be named twice. -/
theorem keepsOrder_example :
    let step := exampleStep 6 (.reorder (exampleId 0 0) [exampleId 2 0])
    (exampleStore.perform step.setup step.stamp step.call =
        .ok (.nothing, exampleStore.reordered [exampleId 2 0]) ∧
      (exampleStore.reordered [exampleId 2 0]).KeepsOrder (exampleId 0 0) [exampleId 2 0]) ∧
    ∃ e, exampleStore.perform step.setup step.stamp
      (.reorder (exampleId 0 0) [exampleId 2 0, exampleId 2 0]) = .error e := by
  intro step
  have hone : exampleStore.Orderable (exampleId 0 0) [exampleId 2 0] :=
    ⟨⟨_, List.mem_singleton.mpr rfl, rfl⟩, List.nodup_singleton _, fun id hid =>
      ⟨_, List.mem_cons_self, (List.mem_singleton.mp hid).symm⟩⟩
  have htwice : ¬ exampleStore.Orderable (exampleId 0 0) [exampleId 2 0, exampleId 2 0] :=
    fun h => absurd h.distinct (by decide)
  obtain ⟨hok, -, hkeeps⟩ := keepsOrder_of_reorder reachable_exampleStore step.setup step.stamp
    (exampleId 0 0) [exampleId 2 0]
  obtain ⟨-, hfails, -⟩ := keepsOrder_of_reorder reachable_exampleStore step.setup step.stamp
    (exampleId 0 0) [exampleId 2 0, exampleId 2 0]
  obtain ⟨e, hperform, -⟩ := hfails htwice
  exact ⟨⟨(hok _ _).mpr ⟨hone, rfl, rfl⟩, (hkeeps hone).1⟩, e, hperform⟩

end Store

end RecordStore
