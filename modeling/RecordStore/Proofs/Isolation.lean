import RecordStore.Proofs.Confinement

/-!
# Isolation

What is read of an object is read from its share, and what is read of a list from the shares of the
list and of its object. So no call changes what is read of an object that it is not about, and no
call on a list what is read of the records of its object.

Main statement: `Store.answer_after`.
-/

namespace RecordStore

/-- Rows that are looked for can be picked before. -/
theorem find?_filter_of_imp {α : Type} {rows : List α} {P Q : α → Bool}
    (h : ∀ r ∈ rows, P r = true → Q r = true) : (rows.filter Q).find? P = rows.find? P := by
  rw [← List.head?_filter, ← List.head?_filter, Store.filter_filter_of_imp h]

/-- Of rows with keys of their own, picking some leaves the one under a key or takes it away. -/
theorem find?_filter_of_pairwise_ne {α β : Type} [DecidableEq β] {f : α → β} {rows : List α}
    (h : rows.Pairwise fun a b => f a ≠ f b) (Q : α → Bool) (key : β) :
    (rows.filter Q).find? (fun r => f r == key) = (rows.find? fun r => f r == key).filter Q := by
  cases hfind : rows.find? fun r => f r == key with
  | none =>
    refine List.find?_eq_none.mpr fun r hr => ?_
    exact List.find?_eq_none.mp hfind r (List.mem_filter.mp hr).1
  | some r =>
    obtain ⟨hr, rfl⟩ := mem_of_find?_key hfind
    cases hQ : Q r with
    | true =>
      rw [find?_of_pairwise_ne (h.filter Q) (List.mem_filter.mpr ⟨hr, hQ⟩)]
      simp [Option.filter, hQ]
    | false =>
      have hnone : (rows.filter Q).find? (fun q => f q == f r) = none := by
        refine List.find?_eq_none.mpr fun q hq heq => ?_
        obtain ⟨hq, hQq⟩ := List.mem_filter.mp hq
        rw [eq_of_pairwise_ne h hq hr (beq_iff_eq.mp heq), hQ] at hQq
        cases hQq
      rw [hnone]
      simp [Option.filter, hQ]

namespace Store

variable {s t : Store} {p : Parent}

/-! ### Attributes -/

theorem belongs_of_mem_headsOf {a : AttributeHead} (ha : a ∈ s.headsOf p) :
    s.belongs p a.id = true :=
  List.any_eq_true.mpr ⟨a, ha, beq_self_eq_true _⟩

theorem belongs_of_mem_attributesOf {a : Attribute} (ha : a ∈ s.attributesOf p) :
    s.belongs p a.id = true := by
  obtain ⟨⟨b, hb, rfl⟩, hparent⟩ := has_of_mem_attributesOf ha
  exact belongs_iff.mpr ⟨b, hb, hparent, rfl⟩

theorem withChoices_share {a : AttributeHead} (ha : a ∈ s.headsOf p) :
    (s.share p).withChoices a = s.withChoices a := by
  have hbelongs := belongs_of_mem_headsOf ha
  have hoptions : (s.share p).options.filter (fun o => o.attributeId == a.id) =
      s.options.filter fun o => o.attributeId == a.id :=
    filter_filter_of_imp fun o _ ho => beq_iff_eq.mp ho ▸ hbelongs
  have hstatuses : (s.share p).statuses.filter (fun u => u.attributeId == a.id) =
      s.statuses.filter fun u => u.attributeId == a.id :=
    filter_filter_of_imp fun u _ hu => beq_iff_eq.mp hu ▸ hbelongs
  rw [withChoices, hoptions, hstatuses, withChoices]

theorem attributesOf_share : (s.share p).attributesOf p = s.attributesOf p := by
  have hheads : (s.share p).attributes.filter (fun a => a.parent == p) = s.headsOf p :=
    filter_filter_of_imp fun _ _ h => h
  rw [attributesOf, hheads]
  refine List.map_congr_left fun a ha => withChoices_share ?_
  exact List.mem_mergeSort.mp ha

/-! ### Values -/

theorem cellOf?_share {a : AttributeHead} (ha : s.belongs p a.id = true) (table : ValueTable)
    (owner : Id) :
    cellOf? ((s.share p).values table) owner a = cellOf? (s.values table) owner a := by
  rw [cellOf?, values_share, find?_filter_of_imp, cellOf?]
  intro r _ hr
  rwa [(ValueRow.isFor_iff.mp hr).2]

theorem cellsOf_share {attributes : List Attribute} (h : attributes ⊆ s.attributesOf p)
    (table : ValueTable) (owner : Id) :
    cellsOf ((s.share p).values table) attributes owner =
      cellsOf (s.values table) attributes owner := by
  funext id
  rw [cellsOf, cellsOf]
  cases hfind : attributes.find? fun a => a.id == id with
  | none => rfl
  | some a =>
    have hbelongs := belongs_of_mem_attributesOf (h (List.mem_of_find?_eq_some hfind))
    rw [Option.bind_some, Option.bind_some, cellOf?_share hbelongs]

theorem shownValues_share (table : ValueTable) (owner : Id) :
    shownValues ((s.share p).values table) (s.attributesOf p) owner =
      shownValues (s.values table) (s.attributesOf p) owner := by
  rw [shownValues, shownValues]
  congr 1
  refine List.filterMap_congr fun a ha => ?_
  rw [cellOf?_share (belongs_of_mem_attributesOf ha)]

/-! ### Records -/

section

variable {objectId : Id}

theorem requireObject_share :
    (s.share (.object objectId)).requireObject objectId = s.requireObject objectId := by
  have hfind : (s.share (.object objectId)).object? objectId = s.object? objectId :=
    find?_filter_of_imp fun o _ ho => beq_iff_eq.mpr (by rw [beq_iff_eq.mp ho])
  rw [requireObject, hfind, requireObject]

theorem recordsOf_share : (s.share (.object objectId)).recordsOf objectId = s.recordsOf objectId :=
  filter_filter_of_imp fun r _ hr => beq_iff_eq.mpr (by rw [beq_iff_eq.mp hr])

theorem recordView_share {r : Record} (hr : r.objectId = objectId) :
    (s.share (.object objectId)).recordView r = s.recordView r := by
  have hvalues := shownValues_share (s := s) (p := .object objectId) .records r.id
  rw [recordView, hr, attributesOf_share]
  exact (congrArg (RecordView.mk r) hvalues).trans (by rw [recordView, hr]; rfl)

theorem recordViews_share (ids : List Id) :
    (s.share (.object objectId)).recordViews objectId ids = s.recordViews objectId ids := by
  rw [recordViews, recordsOf_share, recordViews]
  refine List.map_congr_left fun r hr => ?_
  have hobject := (List.mem_filter.mp (List.mem_filter.mp hr).1).2
  rw [recordView_share (beq_iff_eq.mp hobject)]

theorem selectRecords_share (setup : Setup) (q : Query) :
    (s.share (.object objectId)).selectRecords setup objectId q =
      s.selectRecords setup objectId q := by
  have hrow : ∀ query : CompiledQuery, (s.share (.object objectId)).recordRow
      (query.needed (s.attributesOf (.object objectId))) =
        s.recordRow (query.needed (s.attributesOf (.object objectId))) := by
    intro query
    funext r
    have hneeded : query.needed (s.attributesOf (.object objectId)) ⊆
        s.attributesOf (.object objectId) := List.filter_subset_self _
    exact congrArg (Row.mk r.id r.createdAt r.updatedAt r.position)
      (cellsOf_share hneeded .records r.id)
  simp only [selectRecords, attributesOf_share, recordsOf_share, hrow]

theorem listRecords_share (setup : Setup) (q : Query) :
    (s.share (.object objectId)).listRecords setup objectId q =
      s.listRecords setup objectId q := by
  simp only [listRecords, requireObject_share, selectRecords_share, recordViews_share]

/-- A record is looked for by its id alone, which is that of no record of another object. -/
theorem recordView?_share (hi : s.Indexed) (id : Id) :
    (s.share (.object objectId)).recordView? objectId id = s.recordView? objectId id := by
  have hfound : ((s.share (.object objectId)).record? id).filter (fun r => r.objectId == objectId) =
      (s.record? id).filter fun r => r.objectId == objectId := by
    have hpicked : (s.share (.object objectId)).record? id =
        (s.record? id).filter fun r => Parent.object objectId == .object r.objectId :=
      find?_filter_of_pairwise_ne hi.records _ id
    have hsame : ∀ r : Record, (Parent.object objectId == .object r.objectId) =
        (r.objectId == objectId) := by
      intro r
      rw [Bool.eq_iff_iff, beq_iff_eq, beq_iff_eq, Parent.object.injEq, eq_comm]
    simp only [hpicked, hsame, Option.filter_filter, Bool.and_self]
  rw [recordView?, hfound, recordView?]
  refine Option.map_congr fun r hr => recordView_share ?_
  exact beq_iff_eq.mp (Option.filter_eq_some_iff.mp hr).2

end

/-! ### Lists -/

section

variable {listId : Id}

theorem list?_share : (s.share (.list listId)).list? listId = s.list? listId :=
  find?_filter_of_imp fun l _ hl => beq_iff_eq.mpr (by rw [beq_iff_eq.mp hl])

theorem entriesOf_share : (s.share (.list listId)).entriesOf listId = s.entriesOf listId :=
  filter_filter_of_imp fun e _ he => beq_iff_eq.mpr (by rw [beq_iff_eq.mp he])

theorem selectEntries_share (setup : Setup) (q : Query) :
    (s.share (.list listId)).selectEntries setup listId q = s.selectEntries setup listId q := by
  have hrow : ∀ query : CompiledQuery, (s.share (.list listId)).entryRow
      (query.needed (s.attributesOf (.list listId))) =
        s.entryRow (query.needed (s.attributesOf (.list listId))) := by
    intro query
    funext e
    have hneeded : query.needed (s.attributesOf (.list listId)) ⊆
        s.attributesOf (.list listId) := List.filter_subset_self _
    exact congrArg (Row.mk e.id e.createdAt e.updatedAt none)
      (cellsOf_share hneeded .entries e.id)
  simp only [selectEntries, attributesOf_share, entriesOf_share, hrow]

theorem entryView_share (list : RecordList) :
    (s.share (.list list.id)).entryView list = s.entryView list := by
  funext e record
  have hvalues := shownValues_share (s := s) (p := .list list.id) .entries e.id
  rw [entryView, attributesOf_share]
  exact congrArg (EntryView.mk e · record) hvalues

end

/-! ### Stores with the same shares -/

section

variable {objectId : Id} (hobject : t.share (.object objectId) = s.share (.object objectId))

include hobject

theorem attributesOf_congr :
    t.attributesOf (.object objectId) = s.attributesOf (.object objectId) := by
  rw [← attributesOf_share, hobject, attributesOf_share]

theorem listRecords_congr (setup : Setup) (q : Query) :
    t.listRecords setup objectId q = s.listRecords setup objectId q := by
  rw [← listRecords_share, hobject, listRecords_share]

theorem recordView?_congr (hi : s.Indexed) (ht : t.Indexed) (id : Id) :
    t.recordView? objectId id = s.recordView? objectId id := by
  rw [← recordView?_share ht, hobject, recordView?_share hi]

theorem selectRecords_congr (setup : Setup) (q : Query) :
    t.selectRecords setup objectId q = s.selectRecords setup objectId q := by
  rw [← selectRecords_share, hobject, selectRecords_share]

theorem recordViews_congr (ids : List Id) :
    t.recordViews objectId ids = s.recordViews objectId ids := by
  rw [← recordViews_share, hobject, recordViews_share]

variable {l : RecordList} (hlist : t.share (.list l.id) = s.share (.list l.id))

include hlist

omit hobject in
theorem requireList_congr : t.requireList l.id = s.requireList l.id := by
  rw [requireList, requireList, ← list?_share, hlist, list?_share]

omit hobject in
theorem entriesOf_congr : t.entriesOf l.id = s.entriesOf l.id := by
  rw [← entriesOf_share, hlist, entriesOf_share]

omit hobject in
theorem entryViewsFrom_congr (entries : List Entry) (pool : List (Id × RecordView)) :
    t.entryViewsFrom l entries pool = s.entryViewsFrom l entries pool := by
  have hview : t.entryView l = s.entryView l := by
    rw [← entryView_share, hlist, entryView_share]
  induction entries generalizing pool with
  | nil => rfl
  | cons e rest ih =>
    rw [entryViewsFrom, entryViewsFrom, hview]
    cases draw? e.recordId pool with
    | none => exact ih pool
    | some found => exact congrArg _ (ih found.2)

theorem listEntries_congr (hl : s.requireList l.id = .ok l) (hof : l.objectId = objectId)
    (setup : Setup) (q : Query) :
    t.listEntries setup l.id q = s.listEntries setup l.id q := by
  have hselect : t.selectEntries setup l.id q = s.selectEntries setup l.id q := by
    rw [← selectEntries_share, hlist, selectEntries_share]
  have hviews : t.entryViews l = s.entryViews l := by
    funext ids
    simp only [entryViews, entriesOf_congr hlist, entryViewsFrom_congr hlist, hof,
      recordViews_congr hobject]
  simp only [listEntries, requireList_congr hlist, hl, hselect, ok_bind, hviews]

theorem availableRecords_congr (setup : Setup) (search : Option String) :
    t.availableRecords setup l.id objectId search =
      s.availableRecords setup l.id objectId search := by
  have hlisted : t.isListed l.id = s.isListed l.id := by
    funext recordId
    rw [isListed, entriesOf_congr hlist, isListed]
  simp only [availableRecords, requireList_congr hlist, selectRecords_congr hobject, hlisted,
    recordViews_congr hobject]

end

end Store

/-! ### Reading calls -/

/-- A call reads the records or the attributes of an object. -/
inductive Call.ReadsObject (objectId : Id) : Call → Prop
  | attributes : ReadsObject objectId (.attributes (.object objectId))
  | record (id : Id) : ReadsObject objectId (.record objectId id)
  | listRecords (q : Query) : ReadsObject objectId (.listRecords objectId q)

namespace Store

variable {s t : Store} {o : Object}

/-- A call reads a list of an object, or the records that the list could still take. -/
inductive ReadsListOf (s : Store) (objectId : Id) : Call → Prop
  | listEntries {l : RecordList} (mem : l ∈ s.lists) (object : l.objectId = objectId) (q : Query) :
      ReadsListOf s objectId (.listEntries l.id q)
  | available {l : RecordList} (mem : l ∈ s.lists) (object : l.objectId = objectId)
      (search : Option String) : ReadsListOf s objectId (.available l.id objectId search)

/-- The object of a parent: itself, or that of the list. -/
def objectOf? (s : Store) : Parent → Option Id
  | .object id => some id
  | .list id => (s.list? id).map (·.objectId)

/-- What is read of an object is the same in two stores that agree on its share. -/
theorem answer_readsObject (hi : s.Indexed) (ht : t.Indexed) {objectId : Id}
    (hobject : t.share (.object objectId) = s.share (.object objectId)) {read : Call}
    (hread : read.ReadsObject objectId) (setup : Setup) (stamp : Stamp) :
    t.answer setup stamp read = s.answer setup stamp read := by
  cases hread with
  | attributes => rw [answer_tell rfl, answer_tell rfl, attributesOf_congr hobject]
  | record id => rw [answer_tell rfl, answer_tell rfl, recordView?_congr hobject hi ht]
  | listRecords q => rw [answer_look rfl, answer_look rfl, listRecords_congr hobject]

/-- What is read of a list is the same in two stores that agree on its share and on that of its
object. -/
theorem answer_readsListOf (hi : s.Indexed) {objectId : Id}
    (hobject : t.share (.object objectId) = s.share (.object objectId))
    (hlists : ∀ l ∈ s.lists, l.objectId = objectId →
      t.share (.list l.id) = s.share (.list l.id)) {read : Call}
    (hread : s.ReadsListOf objectId read) (setup : Setup) (stamp : Stamp) :
    t.answer setup stamp read = s.answer setup stamp read := by
  cases hread with
  | @listEntries l mem object q =>
    have hfound : s.requireList l.id = .ok l := requireList_eq_ok_iff.mpr (list?_eq_some hi mem)
    rw [answer_look rfl, answer_look rfl,
      listEntries_congr hobject (hlists l mem object) hfound object]
  | @available l mem object search =>
    rw [answer_look rfl, answer_look rfl, availableRecords_congr hobject (hlists l mem object)]

/-! ### Isolation -/

/-- After a call that is about something else than an object itself, its attributes or its records,
every reading of these is answered as before. After a call that is not about a list of the object
either, so is every reading of its lists. -/
theorem answer_after (h : s.Reachable) (ho : o ∈ s.objects) (setup : Setup) (stamp : Stamp)
    (call : Call) :
    let t := s.after setup stamp call
    (s.target? call ≠ some (.object o.id) → ∀ read : Call, read.ReadsObject o.id →
      ∀ setup' stamp', t.answer setup' stamp' read = s.answer setup' stamp' read) ∧
    ((∀ p, s.target? call = some p → s.objectOf? p ≠ some o.id) →
      ∀ read : Call, read.ReadsObject o.id ∨ s.ReadsListOf o.id read →
        ∀ setup' stamp', t.answer setup' stamp' read = s.answer setup' stamp' read) := by
  intro t
  have hi := h.sound.indexed
  have ht : t.Indexed := (h.sound.changes (settles_call h.sound setup stamp call).1).indexed
  have hobject (htarget : s.target? call ≠ some (.object o.id)) :
      t.share (.object o.id) = s.share (.object o.id) := by
    refine share_after h (hasParent_object_iff.mpr ⟨o, ho, rfl⟩) setup stamp ?_
    rintro q hq (rfl | ⟨l, -, hlist, -⟩)
    · exact htarget hq
    · cases hlist
  refine ⟨fun htarget read hread setup' stamp' =>
    answer_readsObject hi ht (hobject htarget) hread setup' stamp', ?_⟩
  intro htargets read hread setup' stamp'
  have htarget : s.target? call ≠ some (.object o.id) := fun heq => htargets _ heq rfl
  rcases hread with hread | hread
  · exact answer_readsObject hi ht (hobject htarget) hread setup' stamp'
  refine answer_readsListOf hi (hobject htarget) (fun l hl hof => ?_) hread setup' stamp'
  refine share_after h (hasParent_list_iff.mpr ⟨l, hl, rfl⟩) setup stamp fun q hq hwithin => ?_
  rcases hwithin with rfl | ⟨m, hm, hlist, rfl⟩
  · have hfind : s.list? l.id = some l := list?_eq_some hi hl
    exact htargets _ hq (by rw [objectOf?, hfind, Option.map_some, hof])
  · have hlm : l = m := eq_of_pairwise_ne hi.listIds hl hm (Parent.list.inj hlist)
    exact htargets _ hq (by rw [objectOf?, ← hlm, hof])

/-- The deals and their list beside people, of whom there are none. -/
def exampleShared : Store :=
  { exampleStore with
    objects := exampleStore.objects ++
      [⟨exampleId 6 0, default, "people", "Person", "People", none, false, ⟨6⟩⟩] }

theorem reachable_exampleShared : exampleShared.Reachable := by
  have hrun : exampleStore.run
      [exampleStep 6 (.createObject ⟨default, "people", "Person", "People", none, false⟩)] =
        exampleShared := by cbv
  exact hrun ▸ reachable_exampleStore.run _

/-- People can be deleted without a trace among the deals and in their list; and what an entry of
the list is given does not show among the deals. -/
theorem answer_after_people :
    let step := exampleStep 7 (.deleteObject (exampleId 6 0))
    let t := exampleShared.after step.setup step.stamp step.call
    let noted := exampleShared.after step.setup step.stamp (.updateEntry (exampleId 5 0) [] none)
    t = exampleStore ∧
      (∀ q, t.answer step.setup step.stamp (.listEntries (exampleId 4 0) q) =
        exampleShared.answer step.setup step.stamp (.listEntries (exampleId 4 0) q)) ∧
      ∀ q, noted.answer step.setup step.stamp (.listRecords (exampleId 0 0) q) =
        exampleShared.answer step.setup step.stamp (.listRecords (exampleId 0 0) q) := by
  intro step t noted
  have ho : (⟨exampleId 0 0, default, "deals", "Deal", "Deals", none, false, ⟨0⟩⟩ : Object) ∈
      exampleShared.objects := by decide
  have htargets : ∀ p, exampleShared.target? step.call = some p →
      exampleShared.objectOf? p ≠ some (exampleId 0 0) := by
    intro p hp
    cases hp
    decide
  have hentry : exampleShared.target? (.updateEntry (exampleId 5 0) [] none) ≠
      some (.object (exampleId 0 0)) := by decide
  have hdeleted : exampleShared.after (exampleStep 7 (.deleteObject (exampleId 6 0))).setup
      (exampleStep 7 (.deleteObject (exampleId 6 0))).stamp (.deleteObject (exampleId 6 0)) =
        exampleStore := by cbv
  refine ⟨hdeleted, fun q => ?_, fun q => ?_⟩
  · exact (answer_after reachable_exampleShared ho step.setup step.stamp step.call).2 htargets _
      (.inr (.listEntries (l := exampleShared.lists[0]) (List.mem_singleton.mpr rfl) rfl q)) _ _
  · exact (answer_after reachable_exampleShared ho step.setup step.stamp _).1 hentry _
      (.listRecords q) _ _

end Store

end RecordStore
