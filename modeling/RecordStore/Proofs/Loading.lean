import RecordStore.Proofs.RowOrder
import RecordStore.Store.Listing

/-!
# Partial loading

A listing loads only the values that its query asks for. Rows that agree on these are accepted
alike and compared alike, so what is selected does not depend on what else is loaded.
-/

namespace RecordStore

/-! ### What queries ask for -/

namespace Matcher

variable {cells cells' : Cells}

mutual

/-- A matcher looks at no other values than those of its attributes. -/
theorem accepts_congr : ∀ m : Matcher, (∀ id ∈ m.attributeIds, cells id = cells' id) →
    accepts cells m = accepts cells' m
  | .all, _ => by rw [accepts, accepts]
  | .and parts, h => by
    rw [accepts, accepts]
    exact allAccept_congr parts h
  | .or parts, h => by
    rw [accepts, accepts]
    exact someAccepts_congr parts h
  | .test t, h => by
    rw [accepts, accepts, h t.attributeId (by simp [attributeIds])]

theorem allAccept_congr : ∀ parts : List Matcher,
    (∀ id ∈ attributeIdsOf parts, cells id = cells' id) →
      allAccept cells parts = allAccept cells' parts
  | [], _ => by rw [allAccept, allAccept]
  | part :: rest, h => by
    rw [attributeIdsOf, List.forall_mem_append] at h
    rw [allAccept, allAccept, accepts_congr part h.1, allAccept_congr rest h.2]

theorem someAccepts_congr : ∀ parts : List Matcher,
    (∀ id ∈ attributeIdsOf parts, cells id = cells' id) →
      someAccepts cells parts = someAccepts cells' parts
  | [], _ => by rw [someAccepts, someAccepts]
  | part :: rest, h => by
    rw [attributeIdsOf, List.forall_mem_append] at h
    rw [someAccepts, someAccepts, accepts_congr part h.1, someAccepts_congr rest h.2]

end

end Matcher

theorem Search.accepts_congr {cells cells' : Cells} (search : Search)
    (h : ∀ id ∈ search.attributeIds, cells id = cells' id) :
    search.accepts cells = search.accepts cells' := by
  rw [accepts, accepts, Bool.eq_iff_iff, List.any_eq_true, List.any_eq_true]
  exact exists_congr fun id => and_congr_right fun hid => by rw [h id hid]

/-- Two rows are the same as far as the values of some attributes go. -/
structure Row.AgreeOn (ids : List Id) (a b : Row) : Prop where
  id : a.id = b.id
  createdAt : a.createdAt = b.createdAt
  updatedAt : a.updatedAt = b.updatedAt
  position : a.position = b.position
  cells : ∀ id ∈ ids, a.cells id = b.cells id

theorem Row.AgreeOn.subset {ids ids' : List Id} {a b : Row} (h : a.AgreeOn ids' b)
    (hids : ids ⊆ ids') : a.AgreeOn ids b :=
  { h with cells := fun id hid => h.cells id (hids hid) }

section

variable {a a' b b' : Row}

theorem SortKey.compareRows_congr (key : SortKey)
    (ha : a.AgreeOn (sortedAttributeIds [key]) a') (hb : b.AgreeOn (sortedAttributeIds [key]) b') :
    key.compareRows a b = key.compareRows a' b' := by
  obtain ⟨field, direction⟩ := key
  cases field with
  | createdAt => simp only [compareRows, ha.createdAt, hb.createdAt]
  | updatedAt => simp only [compareRows, ha.updatedAt, hb.updatedAt]
  | position => simp only [compareRows, ha.position, hb.position]
  | value id ranks =>
    have hid : id ∈ sortedAttributeIds [⟨.value id ranks, direction⟩] := by
      simp [sortedAttributeIds]
    simp only [compareRows, ha.cells id hid, hb.cells id hid]

theorem compareRows_congr {keys : List SortKey} (ha : a.AgreeOn (sortedAttributeIds keys) a')
    (hb : b.AgreeOn (sortedAttributeIds keys) b') :
    compareRows keys a b = compareRows keys a' b' := by
  induction keys with
  | nil => rw [compareRows, compareRows, ha.id, hb.id]
  | cons key rest ih =>
    have hids : sortedAttributeIds (key :: rest) =
        sortedAttributeIds [key] ++ sortedAttributeIds rest :=
      List.filterMap_append (l := [key])
    have hkey : sortedAttributeIds [key] ⊆ sortedAttributeIds (key :: rest) :=
      hids ▸ List.subset_append_left _ _
    have hrest : sortedAttributeIds rest ⊆ sortedAttributeIds (key :: rest) :=
      hids ▸ List.subset_append_right _ _
    rw [compareRows, compareRows, key.compareRows_congr (ha.subset hkey) (hb.subset hkey),
      ih (ha.subset hrest) (hb.subset hrest)]

end

/-! ### Selecting -/

namespace CompiledQuery

variable {q : CompiledQuery} {a a' b b' : Row}

theorem accepts_congr (h : a.AgreeOn q.referenced a') : q.accepts a = q.accepts a' := by
  have hmatcher : q.matcher.accepts a.cells = q.matcher.accepts a'.cells :=
    q.matcher.accepts_congr fun id hid => h.cells id (by simp [referenced, hid])
  rw [accepts, accepts, hmatcher]
  cases hsearch : q.search with
  | none => rfl
  | some search =>
    rw [Option.all_some, Option.all_some, search.accepts_congr]
    exact fun id hid => h.cells id (by simp [referenced, hsearch, hid])

theorem compareRows_congr (ha : a.AgreeOn q.referenced a') (hb : b.AgreeOn q.referenced b') :
    compareRows q.keys a b = compareRows q.keys a' b' := by
  have hkeys : sortedAttributeIds q.keys ⊆ q.referenced := fun id hid => by simp [referenced, hid]
  exact RecordStore.compareRows_congr (ha.subset hkeys) (hb.subset hkeys)

variable {α : Type} {row row' : α → Row} {items : List α}

/-- The items whose rows are accepted, in the order of their rows. -/
def rank (q : CompiledQuery) (row : α → Row) (items : List α) : List α :=
  (items.filter fun x => q.accepts (row x)).mergeSort
    fun x y => (compareRows q.keys (row x) (row y)).isLE

theorem rank_perm (q : CompiledQuery) (row : α → Row) (items : List α) :
    (q.rank row items).Perm (items.filter fun x => q.accepts (row x)) :=
  List.mergeSort_perm _ _

/-- Whatever else rows have, they are selected by what the query asks for. -/
theorem select_map (h : ∀ x ∈ items, (row' x).AgreeOn q.referenced (row x)) :
    q.select (items.map row') = (q.rank row items).map row' := by
  have hfilter : items.filter (q.accepts ∘ row') = items.filter fun x => q.accepts (row x) :=
    List.filter_congr fun x hx => accepts_congr (h x hx)
  rw [select, List.filter_map, hfilter, rank, sortRows, List.map_mergeSort]
  intro x hx y hy
  rw [compareRows_congr (h x (List.mem_filter.mp hx).1) (h y (List.mem_filter.mp hy).1)]

theorem cellsOf_needed {rows : List ValueRow} {attributes : List Attribute} {owner id : Id}
    (hid : id ∈ q.referenced) :
    cellsOf rows (q.needed attributes) owner id = cellsOf rows attributes owner id := by
  have hfind : (q.needed attributes).find? (fun a => a.id == id) =
      attributes.find? fun a => a.id == id := by
    rw [needed, List.find?_filter]
    congr 1
    funext a
    by_cases ha : a.id = id
    · simp [ha, hid]
    · simp [ha]
  rw [cellsOf, cellsOf, hfind]

end CompiledQuery

namespace Store

variable (s : Store) (attributes : List Attribute) (q : CompiledQuery)

theorem agreeOn_recordRow (r : Record) :
    (s.recordRow (q.needed attributes) r).AgreeOn q.referenced (s.recordRow attributes r) :=
  ⟨rfl, rfl, rfl, rfl, fun _ => CompiledQuery.cellsOf_needed⟩

theorem agreeOn_entryRow (e : Entry) :
    (s.entryRow (q.needed attributes) e).AgreeOn q.referenced (s.entryRow attributes e) :=
  ⟨rfl, rfl, rfl, rfl, fun _ => CompiledQuery.cellsOf_needed⟩

end Store

end RecordStore
