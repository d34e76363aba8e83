import RecordStore.Proofs.Ranking
import RecordStore.Proofs.Views

/-!
# Pages

A listing is cut into pages by windows, and each page is hydrated by a second read. The pages of
one query show each ranked item once and lose none, since all of them cut the same ranking and
every ranked item has its view.
-/

namespace RecordStore

/-- A listing of items: what is listed and by which attributes, how items are seen as rows with the
values of some attributes, how a query selects rows and makes a page, and what is shown of an
item. -/
structure Listing (α β : Type) where
  attributes : List Attribute
  items : List α
  row : List Attribute → α → Row
  select : Query → Except Error (List Row)
  page : Query → Except Error (Page β)
  view? : α → Option β
  itemOf : β → α

namespace Store

def recordListing (s : Store) (setup : Setup) (objectId : Id) : Listing Record RecordView where
  attributes := s.attributesOf (.object objectId)
  items := s.recordsOf objectId
  row := s.recordRow
  select := s.selectRecords setup objectId
  page := s.listRecords setup objectId
  view? := fun r => s.recordView? objectId r.id
  itemOf := RecordView.record

def entryListing (s : Store) (setup : Setup) (listId : Id) : Listing Entry EntryView where
  attributes := s.attributesOf (.list listId)
  items := s.entriesOf listId
  row := s.entryRow
  select := s.selectEntries setup listId
  page := s.listEntries setup listId
  view? := fun e => s.entryViewOf? e.id
  itemOf := EntryView.entry

end Store

/-! ### Windows -/

theorem flatMap_windows {α : Type} (l : List α) (size n : Nat) :
    ((List.range n).flatMap fun k => (l.drop (k * size)).take size) = l.take (n * size) := by
  induction n with
  | zero => simp
  | succ n ih =>
    rw [List.range_succ, List.flatMap_append, ih, Nat.succ_mul, List.take_add]
    simp

theorem map_itemOf {α β : Type} {view? : α → Option β} {itemOf : β → α} {views : List β}
    {items : List α} (h : views.map some = items.map view?)
    (hitem : ∀ x ∈ items, ∀ view, view? x = some view → itemOf view = x) :
    views.map itemOf = items := by
  induction items generalizing views with
  | nil => simpa using h
  | cons x rest ih =>
    obtain ⟨hx, hrest⟩ := List.forall_mem_cons.mp hitem
    cases views with
    | nil => cases h
    | cons view others =>
      rw [List.map_cons, List.map_cons, List.cons.injEq] at h
      rw [List.map_cons, hx view h.1.symm, ih h.2 hrest]

namespace Listing

variable {α β : Type}

/-- A listing serves a query by a ranking of its items. The keys are those of the sorts that name
something, or the newest first. The ranking looks at all values, and the same rows are selected
when only those asked for are loaded. A page counts all that is ranked and shows a window of it.
Pages of one size that follow one another show every ranked item once. -/
structure Serves (listing : Listing α β) (setup : Setup) (q : Query) (compiled : CompiledQuery)
    (ranked : List α) : Prop where
  keys : ∃ named, sortKeys setup.unknown listing.attributes q.sorts = .ok named ∧
    compiled.keys = if named = [] then [⟨.createdAt, .descending⟩] else named
  ranks : compiled.Ranks (listing.row listing.attributes) listing.items ranked
  loading : ∃ rows, listing.select q = .ok rows ∧ rows.map (·.id) =
    (compiled.select (listing.items.map (listing.row listing.attributes))).map (·.id)
  page : ∃ page, listing.page q = .ok page ∧ page.total = ranked.length ∧
    page.items.map some = ((ranked.drop q.offset).take
      (q.window setup.defaultPageSize setup.maxPageSize)).map listing.view?
  pages : ∃ pageAt : Nat → Page β,
    (∀ k, listing.page
      { q with offset := k * q.window setup.defaultPageSize setup.maxPageSize } =
        .ok (pageAt k)) ∧
    ∀ n, ranked.length ≤ n * q.window setup.defaultPageSize setup.maxPageSize →
      ((List.range n).flatMap fun k => (pageAt k).items).map listing.itemOf = ranked

variable {listing : Listing α β} {setup : Setup} {q : Query} {compiled : CompiledQuery}

/-- Pages that show windows of a ranking, wherever they begin, show all of it between them. -/
theorem exists_pages {ranked : List α}
    (hpage : ∀ offset, ∃ page, listing.page { q with offset } = .ok page ∧
      page.items.map some = ((ranked.drop offset).take
        (q.window setup.defaultPageSize setup.maxPageSize)).map listing.view?)
    (hitem : ∀ x ∈ ranked, ∀ view, listing.view? x = some view → listing.itemOf view = x) :
    ∃ pageAt : Nat → Page β,
      (∀ k, listing.page
        { q with offset := k * q.window setup.defaultPageSize setup.maxPageSize } =
          .ok (pageAt k)) ∧
      ∀ n, ranked.length ≤ n * q.window setup.defaultPageSize setup.maxPageSize →
        ((List.range n).flatMap fun k => (pageAt k).items).map listing.itemOf = ranked := by
  choose page hok hitems using hpage
  refine ⟨fun k => page (k * q.window setup.defaultPageSize setup.maxPageSize), fun k => hok _,
    fun n hn => ?_⟩
  rw [List.map_flatMap, ← List.take_of_length_le hn, ← flatMap_windows]
  refine List.flatMap_congr fun k _ => map_itemOf (hitems _) fun x hx => hitem x ?_
  exact List.mem_of_mem_drop (List.mem_of_mem_take hx)

theorem serves_rank
    (hcompiled : compileQuery setup.unknown listing.attributes q = .ok compiled)
    (hids : listing.items.Pairwise fun x y =>
      (listing.row listing.attributes x).id ≠ (listing.row listing.attributes y).id)
    (hrows : ∀ x ∈ listing.items, ∀ key ∈ compiled.keys,
      key.Compares (Store.slotAmong listing.attributes) (listing.row listing.attributes x))
    (hagree : ∀ x, (listing.row (compiled.needed listing.attributes) x).AgreeOn compiled.referenced
      (listing.row listing.attributes x))
    (hselect : listing.select q = .ok (compiled.select
      (listing.items.map (listing.row (compiled.needed listing.attributes)))))
    (hpage : ∀ offset, ∃ page, listing.page { q with offset } = .ok page ∧
      page.total = (compiled.rank (listing.row listing.attributes) listing.items).length ∧
      page.items.map some =
        (((compiled.rank (listing.row listing.attributes) listing.items).drop offset).take
          (q.window setup.defaultPageSize setup.maxPageSize)).map listing.view?)
    (hitem : ∀ x ∈ listing.items, ∀ view, listing.view? x = some view →
      listing.itemOf view = x) :
    listing.Serves setup q compiled
      (compiled.rank (listing.row listing.attributes) listing.items) := by
  refine ⟨exists_sortKeys_of_compileQuery hcompiled, CompiledQuery.ranks_rank hids hrows,
    ⟨_, hselect, ?_⟩, hpage q.offset, exists_pages (fun offset => ?_) fun x hx => hitem x ?_⟩
  · -- both selections are images of one ranking, by rows that agree in their ids
    rw [CompiledQuery.select_map fun x _ => hagree x,
      CompiledQuery.select_map fun x _ => ⟨rfl, rfl, rfl, rfl, fun _ _ => rfl⟩, List.map_map,
      List.map_map]
    exact List.map_congr_left fun x _ => (hagree x).id
  · obtain ⟨page, hok, -, hitems⟩ := hpage offset
    exact ⟨page, hok, hitems⟩
  · exact (List.mem_filter.mp ((compiled.rank_perm _ _).subset hx)).1

end Listing

/-! ### Hydration -/

section

variable {α β : Type} {setup : Setup} {q : Query} {compiled : CompiledQuery} {row row' : α → Row}
  {items : List α}

theorem windowOf_select (h : ∀ x ∈ items, (row' x).AgreeOn compiled.referenced (row x)) :
    Store.windowOf setup q (compiled.select (items.map row')) =
      (((compiled.rank row items).drop q.offset).take
        (q.window setup.defaultPageSize setup.maxPageSize)).map fun x => (row' x).id := by
  rw [Store.windowOf, CompiledQuery.select_map h, ← List.map_drop, ← List.map_take, List.map_map]
  rfl

theorem map_some_drawInOrder_map {id : α → Id} {view? : α → Option β} {pool : List (Id × β)}
    (hnodup : (items.map id).Nodup)
    (hpool : ∀ x ∈ items, ∃ view, pool.lookup (id x) = some view ∧ view? x = some view) :
    (drawInOrder (items.map id) pool).map some = items.map view? := by
  rw [map_some_drawInOrder hnodup, List.map_map]
  · refine List.map_congr_left fun x hx => ?_
    obtain ⟨view, hlookup, hview⟩ := hpool x hx
    rw [hview]
    exact hlookup
  · intro key hkey
    obtain ⟨x, hx, rfl⟩ := List.mem_map.mp hkey
    obtain ⟨view, hlookup, -⟩ := hpool x hx
    rw [hlookup]
    rfl

/-- A page made of the views in a pool shows the ranked items in its window. -/
theorem map_some_drawInOrder_windowOf {view? : α → Option β} {pool : List Id → List (Id × β)}
    (h : ∀ x ∈ items, (row' x).AgreeOn compiled.referenced (row x))
    (hids : items.Pairwise fun x y => (row' x).id ≠ (row' y).id)
    (hpool : ∀ x ∈ items, ∀ ids, (row' x).id ∈ ids →
      ∃ view, (pool ids).lookup (row' x).id = some view ∧ view? x = some view) :
    (drawInOrder (Store.windowOf setup q (compiled.select (items.map row')))
      (pool (Store.windowOf setup q (compiled.select (items.map row'))))).map some =
        (((compiled.rank row items).drop q.offset).take
          (q.window setup.defaultPageSize setup.maxPageSize)).map view? := by
  rw [windowOf_select h]
  have hsub : (((compiled.rank row items).drop q.offset).take
      (q.window setup.defaultPageSize setup.maxPageSize)).Sublist (compiled.rank row items) :=
    (List.take_sublist _ _).trans (List.drop_sublist _ _)
  have hperm := compiled.rank_perm row items
  refine map_some_drawInOrder_map ?_ fun x hx => ?_
  · have hnodup : ((items.filter fun x => compiled.accepts (row x)).map fun x =>
        (row' x).id).Nodup := List.pairwise_map.mpr (hids.filter _)
    exact ((hperm.map _).nodup_iff.mpr hnodup).sublist (hsub.map _)
  · refine hpool x (List.mem_filter.mp (hperm.subset (hsub.subset hx))).1 _ ?_
    exact List.mem_map_of_mem hx

end

namespace Store

variable {s : Store} {setup : Setup} {q : Query} {compiled : CompiledQuery}

/-! ### Records -/

theorem selectRecords_eq_ok {objectId : Id}
    (hcompiled : compileQuery setup.unknown (s.attributesOf (.object objectId)) q = .ok compiled) :
    s.selectRecords setup objectId q = .ok (compiled.select ((s.recordsOf objectId).map
      (s.recordRow (compiled.needed (s.attributesOf (.object objectId)))))) := by
  simp only [selectRecords, hcompiled]
  rfl

theorem recordView?_of_mem_recordsOf (hi : s.Indexed) {objectId : Id} {r : Record}
    (hr : r ∈ s.recordsOf objectId) : s.recordView? objectId r.id = some (s.recordView r) := by
  obtain ⟨hmem, hobject⟩ := List.mem_filter.mp hr
  rw [← beq_iff_eq.mp hobject]
  exact recordView?_eq_some hi hmem

theorem exists_listRecords_eq_ok (hi : s.Indexed) {o : Object} (ho : o ∈ s.objects)
    (hcompiled : compileQuery setup.unknown (s.attributesOf (.object o.id)) q = .ok compiled) :
    ∃ page, s.listRecords setup o.id q = .ok page ∧
      page.total = (compiled.rank (s.recordRow (s.attributesOf (.object o.id)))
        (s.recordsOf o.id)).length ∧
      page.items.map some = (((compiled.rank (s.recordRow (s.attributesOf (.object o.id)))
        (s.recordsOf o.id)).drop q.offset).take
          (q.window setup.defaultPageSize setup.maxPageSize)).map
            fun r => s.recordView? o.id r.id := by
  have hrequire : s.requireObject o.id = .ok o :=
    requireObject_eq_ok_iff.mpr (object?_eq_some hi ho)
  have hselect := selectRecords_eq_ok hcompiled
  have hagree := fun r (_ : r ∈ s.recordsOf o.id) =>
    s.agreeOn_recordRow (s.attributesOf (.object o.id)) compiled r
  refine ⟨_, by rw [listRecords, hrequire, hselect]; rfl, ?_, ?_⟩
  · rw [CompiledQuery.select_map hagree, List.length_map]
  · refine map_some_drawInOrder_windowOf hagree (hi.records.filter _) fun r hr ids hid => ?_
    obtain ⟨hr, hobject⟩ := List.mem_filter.mp hr
    rw [← beq_iff_eq.mp hobject]
    exact ⟨s.recordView r, lookup_recordViews hi hr hid, recordView?_eq_some hi hr⟩

theorem serves_rank_recordListing (hs : s.Sound) (hoffered : s.Offered) {o : Object}
    (ho : o ∈ s.objects)
    (hcompiled : compileQuery setup.unknown (s.attributesOf (.object o.id)) q = .ok compiled) :
    (s.recordListing setup o.id).Serves setup q compiled
      (compiled.rank (s.recordRow (s.attributesOf (.object o.id))) (s.recordsOf o.id)) := by
  refine Listing.serves_rank hcompiled (hs.indexed.records.filter _) (fun r _ => ?_)
    (s.agreeOn_recordRow _ compiled) (selectRecords_eq_ok hcompiled) (fun offset => ?_)
    fun r hr view hview => ?_
  · exact compares_of_compileQuery hoffered hcompiled .records r.id rfl
  · exact exists_listRecords_eq_ok hs.indexed ho hcompiled
  · cases (recordView?_of_mem_recordsOf hs.indexed hr).symm.trans hview
    rfl

theorem serves_recordListing (hs : s.Sound) (hoffered : s.Offered) {o : Object} (ho : o ∈ s.objects)
    (hcompiled : compileQuery setup.unknown (s.attributesOf (.object o.id)) q = .ok compiled) :
    ∃ ranked, (s.recordListing setup o.id).Serves setup q compiled ranked :=
  ⟨_, serves_rank_recordListing hs hoffered ho hcompiled⟩

/-! ### Entries -/

theorem selectEntries_eq_ok {listId : Id}
    (hcompiled : compileQuery setup.unknown (s.attributesOf (.list listId)) q = .ok compiled) :
    s.selectEntries setup listId q = .ok (compiled.select ((s.entriesOf listId).map
      (s.entryRow (compiled.needed (s.attributesOf (.list listId)))))) := by
  simp only [selectEntries, hcompiled]
  rfl

theorem exists_listEntries_eq_ok (hs : s.Sound) {l : RecordList} (hl : l ∈ s.lists)
    (hcompiled : compileQuery setup.unknown (s.attributesOf (.list l.id)) q = .ok compiled) :
    ∃ page, s.listEntries setup l.id q = .ok page ∧
      page.total = (compiled.rank (s.entryRow (s.attributesOf (.list l.id)))
        (s.entriesOf l.id)).length ∧
      page.items.map some = (((compiled.rank (s.entryRow (s.attributesOf (.list l.id)))
        (s.entriesOf l.id)).drop q.offset).take
          (q.window setup.defaultPageSize setup.maxPageSize)).map
            fun e => s.entryViewOf? e.id := by
  have hrequire : s.requireList l.id = .ok l :=
    requireList_eq_ok_iff.mpr (list?_eq_some hs.indexed hl)
  have hselect := selectEntries_eq_ok hcompiled
  have hagree := fun e (_ : e ∈ s.entriesOf l.id) =>
    s.agreeOn_entryRow (s.attributesOf (.list l.id)) compiled e
  refine ⟨_, by rw [listEntries, hrequire, hselect]; rfl, ?_, ?_⟩
  · rw [CompiledQuery.select_map hagree, List.length_map]
  · refine map_some_drawInOrder_windowOf hagree (hs.indexed.entryIds.filter _)
      fun e he ids hid => ?_
    obtain ⟨r, hr, hrid, hobject⟩ := exists_record_of_mem_entriesOf hs.indexed hs.linked hl he
    exact ⟨_, lookup_entryViews hs.indexed he hr hrid hobject hid,
      entryViewOf?_eq_some hs.indexed hl he hr hrid hobject⟩

theorem serves_entryListing (hs : s.Sound) (hoffered : s.Offered) {l : RecordList}
    (hl : l ∈ s.lists)
    (hcompiled : compileQuery setup.unknown (s.attributesOf (.list l.id)) q = .ok compiled) :
    ∃ ranked, (s.entryListing setup l.id).Serves setup q compiled ranked := by
  refine ⟨_, Listing.serves_rank hcompiled (hs.indexed.entryIds.filter _) (fun e _ => ?_)
    (s.agreeOn_entryRow _ compiled) (selectEntries_eq_ok hcompiled) (fun offset => ?_)
    fun e he view hview => ?_⟩
  · exact compares_of_compileQuery hoffered hcompiled .entries e.id rfl
  · exact exists_listEntries_eq_ok hs hl hcompiled
  · obtain ⟨r, hr, hrid, hobject⟩ := exists_record_of_mem_entriesOf hs.indexed hs.linked hl he
    cases (entryViewOf?_eq_some hs.indexed hl he hr hrid hobject).symm.trans hview
    rfl

/-! ### Listings -/

/-- After any calls every query that compiles is served for the records of every object and for the
entries of every list. -/
theorem serves_of_reachable (h : s.Reachable) (setup : Setup) (q : Query) :
    (∀ o ∈ s.objects, ∀ compiled,
      compileQuery setup.unknown (s.attributesOf (.object o.id)) q = .ok compiled →
        ∃ ranked, (s.recordListing setup o.id).Serves setup q compiled ranked) ∧
    ∀ l ∈ s.lists, ∀ compiled,
      compileQuery setup.unknown (s.attributesOf (.list l.id)) q = .ok compiled →
        ∃ ranked, (s.entryListing setup l.id).Serves setup q compiled ranked :=
  ⟨fun _ ho _ hcompiled => serves_recordListing h.sound h.offered ho hcompiled,
    fun _ hl _ hcompiled => serves_entryListing h.sound h.offered hl hcompiled⟩

/-- The first page of one item, the won deals first where there are deals. -/
def exampleQuery : Query := { Query.default with limit := some 1, sorts := [⟨"won", .descending⟩] }

/-- The deals are sorted by their values. The list has no such attribute, so that the sort is
dropped there and the newest entries come first. -/
theorem serves_example :
    (∃ ranked, (exampleStore.recordListing ⟨50, 200, .ignore, []⟩ (exampleId 0 0)).Serves
      ⟨50, 200, .ignore, []⟩ exampleQuery
        ⟨.all, none, [⟨.value (exampleId 1 0) [], .descending⟩]⟩ ranked) ∧
    ∃ ranked, (exampleStore.entryListing ⟨50, 200, .ignore, []⟩ (exampleId 4 0)).Serves
      ⟨50, 200, .ignore, []⟩ exampleQuery ⟨.all, none, [⟨.createdAt, .descending⟩]⟩ ranked := by
  obtain ⟨hrecords, hentries⟩ :=
    serves_of_reachable reachable_exampleStore ⟨50, 200, .ignore, []⟩ exampleQuery
  constructor
  · exact hrecords _ (List.mem_singleton.mpr rfl) _ (by cbv)
  · exact hentries _ (List.mem_singleton.mpr rfl) _ (by cbv)

end Store

end RecordStore
