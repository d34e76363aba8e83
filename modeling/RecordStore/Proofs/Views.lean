import RecordStore.Proofs.Links

/-!
# Views

Views are drawn from pools in which each record stands once. Whatever is there is found there: each
record of an object has its view, and so has each entry of a list, because its record is there.
-/

namespace RecordStore

/-! ### Pools -/

section

variable {α β : Type}

theorem lookup_map_of_pairwise_ne {k : α → Id} {f : α → β} {rows : List α} {r : α}
    (h : rows.Pairwise fun a b => k a ≠ k b) (hr : r ∈ rows) :
    (rows.map fun a => (k a, f a)).lookup (k r) = some (f r) := by
  induction rows with
  | nil => cases hr
  | cons a rest ih =>
    obtain ⟨ha, hrest⟩ := List.pairwise_cons.mp h
    rw [List.map_cons, List.lookup_cons]
    rcases List.mem_cons.mp hr with rfl | hr
    · simp
    · have hne : (k r == k a) = false := by simpa using (ha r hr).symm
      rw [hne]
      exact ih hrest hr

theorem lookup_filter_of_ne {key other : Id} (pool : List (Id × α)) (h : key ≠ other) :
    (pool.filter fun p => p.1 != other).lookup key = pool.lookup key := by
  induction pool with
  | nil => rfl
  | cons p rest ih =>
    by_cases hp : p.1 = other
    · have hne : (key == p.1) = false := by simp [hp, h]
      rw [List.filter_cons_of_neg (by simp [hp]), ih, List.lookup_cons, hne]
    · rw [List.filter_cons_of_pos (by simp [hp]), List.lookup_cons, List.lookup_cons, ih]

theorem draw?_eq_some {key : Id} {pool : List (Id × α)} {item : α}
    (h : pool.lookup key = some item) :
    draw? key pool = some (item, pool.filter fun p => p.1 != key) := by
  rw [draw?, h]
  rfl

/-- If all keys are in the pool, all of their items are drawn, in the order of the keys. -/
theorem map_some_drawInOrder {keys : List Id} {pool : List (Id × α)} (hnodup : keys.Nodup)
    (hpool : ∀ key ∈ keys, (pool.lookup key).isSome) :
    (drawInOrder keys pool).map some = keys.map fun key => pool.lookup key := by
  induction keys generalizing pool with
  | nil => rfl
  | cons key rest ih =>
    obtain ⟨hkey, hrest⟩ := List.nodup_cons.mp hnodup
    obtain ⟨hhere, hothers⟩ := List.forall_mem_cons.mp hpool
    obtain ⟨item, hitem⟩ := Option.isSome_iff_exists.mp hhere
    -- drawing one item leaves those of the other keys where they are
    have hkept : ∀ other ∈ rest,
        (pool.filter fun p => p.1 != key).lookup other = pool.lookup other :=
      fun other hother => lookup_filter_of_ne pool fun heq => hkey (heq ▸ hother)
    have hothers' : ∀ other ∈ rest, ((pool.filter fun p => p.1 != key).lookup other).isSome := by
      intro other hother
      rw [hkept other hother]
      exact hothers other hother
    rw [drawInOrder, draw?_eq_some hitem, List.map_cons, List.map_cons, hitem, ih hrest hothers']
    congr 1
    exact List.map_congr_left hkept

end

namespace Store

/-- An entry whose record is in the pool has its view. -/
theorem lookup_entryViewsFrom {s : Store} {list : RecordList} {entries : List Entry}
    {pool : List (Id × RecordView)} {e : Entry} {view : RecordView}
    (hids : entries.Pairwise fun e f => e.id ≠ f.id)
    (hrecords : (entries.map (·.recordId)).Nodup) (he : e ∈ entries)
    (hview : pool.lookup e.recordId = some view) :
    (s.entryViewsFrom list entries pool).lookup e.id = some (s.entryView list e view) := by
  induction entries generalizing pool with
  | nil => cases he
  | cons f rest ih =>
    obtain ⟨hid, hids⟩ := List.pairwise_cons.mp hids
    rw [List.map_cons] at hrecords
    obtain ⟨hrecord, hrecords⟩ := List.nodup_cons.mp hrecords
    rcases List.mem_cons.mp he with rfl | he
    · simp [entryViewsFrom, draw?_eq_some hview]
    · rw [entryViewsFrom]
      split
      · rename_i record others hdraw
        have hne : (e.id == f.id) = false := by simpa using (hid e he).symm
        rw [List.lookup_cons, hne]
        refine ih hids hrecords he ?_
        obtain ⟨_, -, rfl, rfl⟩ : ∃ item, pool.lookup f.recordId = some item ∧ item = record ∧
            (pool.filter fun p => p.1 != f.recordId) = others := by
          simpa [draw?] using hdraw
        rw [lookup_filter_of_ne pool fun heq => hrecord (List.mem_map.mpr ⟨e, he, heq⟩)]
        exact hview
      · exact ih hids hrecords he hview

/-! ### Objects -/

section

variable {s : Store} {o : Object}

theorem object?_eq_some (h : s.Indexed) (ho : o ∈ s.objects) : s.object? o.id = some o :=
  find?_of_pairwise_ne (f := Object.id) h.objectIds ho

theorem mem_of_requireObject {id : Id} (h : s.requireObject id = .ok o) :
    o ∈ s.objects ∧ o.id = id :=
  mem_of_find?_key (requireObject_eq_ok_iff.mp h)

theorem exists_requireObject {id : Id} (h : ∃ o ∈ s.objects, o.id = id) :
    ∃ o, s.requireObject id = .ok o := by
  obtain ⟨o, ho, hid⟩ := h
  have hfound : (s.object? id).isSome = true := List.find?_isSome.mpr ⟨o, ho, beq_iff_eq.mpr hid⟩
  obtain ⟨p, hp⟩ := Option.isSome_iff_exists.mp hfound
  exact ⟨p, requireObject_eq_ok_iff.mpr hp⟩

end

/-! ### Records -/

section

variable {s : Store} {r : Record}

theorem record?_eq_some (h : s.Indexed) (hr : r ∈ s.records) : s.record? r.id = some r :=
  find?_of_pairwise_ne (f := Record.id) h.records hr

theorem mem_of_requireRecord {objectId id : Id} (h : s.requireRecord objectId id = .ok r) :
    r ∈ s.records ∧ r.id = id ∧ r.objectId = objectId := by
  obtain ⟨hfind, hobject⟩ := requireRecord_eq_ok_iff.mp h
  obtain ⟨hmem, hid⟩ := mem_of_find?_key hfind
  exact ⟨hmem, hid, hobject⟩

theorem lookup_recordViews (h : s.Indexed) (hr : r ∈ s.records) {ids : List Id}
    (hid : r.id ∈ ids) :
    (s.recordViews r.objectId ids).lookup r.id = some (s.recordView r) := by
  refine lookup_map_of_pairwise_ne (k := Record.id) ((h.records.filter _).filter _) ?_
  simp [recordsOf, hr, hid]

theorem recordView?_eq_some (h : s.Indexed) (hr : r ∈ s.records) :
    s.recordView? r.objectId r.id = some (s.recordView r) := by
  simp [recordView?, record?_eq_some h hr, Option.filter]

theorem requireRecordView_eq_ok (h : s.Indexed) (hr : r ∈ s.records) :
    s.requireRecordView r.objectId r.id = .ok (s.recordView r) :=
  requireRecordView_eq_ok_iff.mpr (recordView?_eq_some h hr)

end

/-! ### Lists and entries -/

section

variable {s : Store} {l : RecordList} {e : Entry}

theorem list?_eq_some (h : s.Indexed) (hl : l ∈ s.lists) : s.list? l.id = some l :=
  find?_of_pairwise_ne (f := RecordList.id) h.listIds hl

theorem mem_of_requireList {id : Id} (h : s.requireList id = .ok l) :
    l ∈ s.lists ∧ l.id = id :=
  mem_of_find?_key (requireList_eq_ok_iff.mp h)

theorem mem_of_requireEntry {id : Id} (h : s.requireEntry id = .ok e) :
    e ∈ s.entries ∧ e.id = id :=
  mem_of_find?_key (requireEntry_eq_ok_iff.mp h)

theorem exists_record_of_mem_entriesOf (hi : s.Indexed) (hl : s.Linked) (hlist : l ∈ s.lists)
    (he : e ∈ s.entriesOf l.id) :
    ∃ r ∈ s.records, r.id = e.recordId ∧ r.objectId = l.objectId := by
  rw [entriesOf, List.mem_filter, beq_iff_eq] at he
  obtain ⟨m, hm, r, hr, hmid, hrid, hobject⟩ := hl.entries e he.1
  have heq : m = l := eq_of_pairwise_ne hi.listIds hm hlist (hmid.trans he.2)
  exact ⟨r, hr, hrid, heq ▸ hobject⟩

theorem nodup_recordId_entriesOf (h : s.Indexed) (listId : Id) :
    ((s.entriesOf listId).map (·.recordId)).Nodup := by
  rw [entriesOf, List.nodup_iff_pairwise_ne, List.pairwise_map]
  refine (h.entries.filter _).imp_of_mem fun {e f} he hf hef heq => hef.2 ⟨?_, heq⟩
  have hel := (List.mem_filter.mp he).2
  have hfl := (List.mem_filter.mp hf).2
  rw [beq_iff_eq] at hel hfl
  rw [hel, hfl]

theorem lookup_entryViews (h : s.Indexed) (he : e ∈ s.entriesOf l.id) {r : Record}
    (hr : r ∈ s.records) (hrid : r.id = e.recordId) (hobject : r.objectId = l.objectId)
    {ids : List Id} (hid : e.id ∈ ids) :
    (s.entryViews l ids).lookup e.id = some (s.entryView l e (s.recordView r)) := by
  rw [entryViews]
  have hperm := List.mergeSort_perm ((s.entriesOf l.id).filter fun e => ids.contains e.id)
    fun a b => decide (b.createdAt.micros ≤ a.createdAt.micros)
  have hsub : ((s.entriesOf l.id).filter fun e => ids.contains e.id).Sublist
      (s.entriesOf l.id) := List.filter_sublist
  have hids : (s.entriesOf l.id).Pairwise fun e f => e.id ≠ f.id := h.entryIds.filter _
  have he' := hperm.mem_iff.mpr (List.mem_filter.mpr ⟨he, by simpa using hid⟩)
  refine lookup_entryViewsFrom ?_ ?_ he' ?_
  · exact hperm.symm.pairwise (hids.sublist hsub) fun h => h.symm
  · refine (hperm.map _).nodup_iff.mpr ?_
    exact (nodup_recordId_entriesOf h l.id).sublist (hsub.map _)
  · rw [← hobject, ← hrid]
    refine lookup_recordViews h hr ?_
    rw [hrid]
    exact List.mem_map_of_mem he'

theorem exists_requireEntryView_eq_ok (hi : s.Indexed) (hl : s.Linked) (hlist : l ∈ s.lists)
    (he : e ∈ s.entriesOf l.id) : ∃ view, s.requireEntryView l e.id = .ok view := by
  obtain ⟨r, hr, hrid, hobject⟩ := exists_record_of_mem_entriesOf hi hl hlist he
  have hlookup := lookup_entryViews hi he hr hrid hobject (List.mem_singleton.mpr rfl)
  exact ⟨_, requireEntryView_eq_ok_iff.mpr hlookup⟩

/-- An entry is found by its id as it is shown in its list. -/
theorem entryViewOf?_eq (h : s.Indexed) (hlist : l ∈ s.lists) (he : e ∈ s.entriesOf l.id) :
    s.entryViewOf? e.id = s.entryViewIn? l e.id := by
  obtain ⟨hmem, hof⟩ := List.mem_filter.mp he
  have hentry? : s.entry? e.id = some e := find?_of_pairwise_ne (f := Entry.id) h.entryIds hmem
  have hlist? : s.list? e.listId = some l := by
    rw [beq_iff_eq.mp hof]
    exact list?_eq_some h hlist
  simp only [entryViewOf?, hentry?, hlist?, Option.bind_eq_bind, Option.bind_some]

theorem entryViewOf?_eq_some (h : s.Indexed) (hlist : l ∈ s.lists)
    (he : e ∈ s.entriesOf l.id) {r : Record} (hr : r ∈ s.records) (hrid : r.id = e.recordId)
    (hobject : r.objectId = l.objectId) :
    s.entryViewOf? e.id = some (s.entryView l e (s.recordView r)) := by
  rw [entryViewOf?_eq h hlist he]
  exact lookup_entryViews h he hr hrid hobject (List.mem_singleton.mpr rfl)

end

end Store

end RecordStore
