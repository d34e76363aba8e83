import Mathlib.Logic.Relation
import RecordStore.Proofs.Effects

/-!
# Changes

Whatever a call does to the tables is a sequence of changes of a few kinds. Each kind is said with
what the call has made sure of before: what is inserted refers to what is there, what is deleted is
no longer referred to, a stored value is one that the attribute takes. An invariant of stores has
to be shown for each kind once, and then holds whatever calls there are.
-/

namespace RecordStore

namespace Store

/-! ### Attributes and owners -/

/-- The store has an attribute, with these choices. -/
def Has (s : Store) (a : Attribute) : Prop := ∃ h ∈ s.attributes, s.withChoices h = a

/-- An owner of values in a table belongs to a parent: a record to its object, an entry to its
list. -/
def Owns (s : Store) : ValueTable → Id → Parent → Prop
  | .records, owner, parent => ∃ r ∈ s.records, r.id = owner ∧ parent = .object r.objectId
  | .entries, owner, parent => ∃ e ∈ s.entries, e.id = owner ∧ parent = .list e.listId

theorem owns_setValues_iff {s : Store} {table other : ValueTable} {rows : List ValueRow}
    {owner : Id} {parent : Parent} :
    (s.setValues table rows).Owns other owner parent ↔ s.Owns other owner parent := by
  cases table <;> cases other <;> exact Iff.rfl

/-- A cell may be stored for an owner and an attribute: the attribute is one of the owner's parent
and has made the cell of what was given. -/
structure Admits (s : Store) (table : ValueTable) (owner : Id) (a : Attribute) (cell : Cell) :
    Prop where
  has : s.Has a
  owns : s.Owns table owner a.parent
  encoded : ∃ raw, encodeValue a raw = .ok (some cell)

theorem Has.head {s : Store} {a : Attribute} (h : s.Has a) :
    ∃ b ∈ s.attributes, b.kept = a.toAttributeHead := by
  obtain ⟨b, hb, rfl⟩ := h
  exact ⟨b, hb, rfl⟩

theorem Owns.valueTable_eq {s : Store} {table : ValueTable} {owner : Id} {parent : Parent}
    (h : s.Owns table owner parent) : parent.valueTable = table := by
  cases table with
  | records =>
    obtain ⟨r, -, -, rfl⟩ := h
    rfl
  | entries =>
    obtain ⟨e, -, -, rfl⟩ := h
    rfl

theorem has_of_mem_attributesOf {s : Store} {parent : Parent} {a : Attribute}
    (h : a ∈ s.attributesOf parent) : s.Has a ∧ a.parent = parent := by
  simp only [attributesOf, List.mem_map, List.mem_mergeSort, List.mem_filter, beq_iff_eq] at h
  obtain ⟨b, ⟨hb, hparent⟩, rfl⟩ := h
  exact ⟨⟨b, hb, rfl⟩, hparent⟩

theorem mem_attributesOf {s : Store} {a : AttributeHead} (ha : a ∈ s.attributes) :
    s.withChoices a ∈ s.attributesOf a.parent := by
  simp only [attributesOf, List.mem_map, List.mem_mergeSort, List.mem_filter, beq_iff_eq]
  exact ⟨a, ⟨ha, rfl⟩, rfl⟩

theorem has_of_requireAttribute {s : Store} {id : Id} {a : Attribute}
    (h : s.requireAttribute id = .ok a) : s.Has a ∧ a.id = id := by
  obtain ⟨b, hfind, rfl⟩ := Option.map_eq_some_iff.mp (requireAttribute_eq_ok_iff.mp h)
  obtain ⟨hb, hid⟩ := mem_of_find?_key hfind
  exact ⟨⟨b, hb, rfl⟩, hid⟩

/-! ### Kinds of changes -/

/-- One change of the tables. -/
inductive Change (s : Store) : Store → Prop
  | insertObject {o : Object} (apart : ∀ p ∈ s.objects, p.Apart o)
      (slug : checkSlug o.slug = .ok ()) : Change s { s with objects := s.objects ++ [o] }
  | mapObjects {f : Object → Object}
      (same : ∀ o, (f o).id = o.id ∧ (f o).workspace = o.workspace ∧ (f o).slug = o.slug) :
      Change s { s with objects := s.objects.map f }
  | deleteObjects (p : Object → Bool)
      (unused : ∀ o ∈ s.objects, p o = false → (∀ a ∈ s.attributes, a.parent ≠ .object o.id) ∧
        (∀ r ∈ s.records, r.objectId ≠ o.id) ∧ ∀ l ∈ s.lists, l.objectId ≠ o.id) :
      Change s { s with objects := s.objects.filter p }
  | insertAttribute {a : AttributeHead} (parent : s.hasParent a.parent = true)
      (apart : ∀ b ∈ s.attributes, b.Apart a) (sets : a.isSet = true → a.type.allowsSets = true)
      (slug : checkSlug a.slug = .ok ()) :
      Change s { s with attributes := s.attributes ++ [a] }
  | replaceAttribute {current : Attribute} {next : AttributeHead} {changes : AttributeChanges}
      {t : Store} (has : s.Has current)
      (changed : s.changedAttribute current.toAttributeHead changes = .ok next)
      (run : (Session.replaceAttribute current { current with toAttributeHead := next }).run s =
        .ok () t) : Change s t
  | deleteAttributes {table : ValueTable} {ids : List Id}
      (parents : ∀ a ∈ s.attributes, a.id ∈ ids → a.parent.valueTable = table) :
      Change s (s.withoutAttributes table ids)
  | insertOption {o : SelectOption} (used : ∃ a ∈ s.attributes, a.id = o.attributeId)
      (apart : ∀ p ∈ s.options, p.Apart o)
      (place : ∀ p ∈ s.options, p.attributeId = o.attributeId → p.sortOrder < o.sortOrder) :
      Change s { s with options := s.options ++ [o] }
  | removeOption {o : SelectOption} {a : Attribute} {t : Store} (found : o ∈ s.options)
      (has : s.Has a) (ofAttribute : a.id = o.attributeId) (type : a.type = .select)
      (run : (Session.detachChoice a o.id).run
        { s with options := s.options.filter fun p => p.id != o.id } = .ok () t) : Change s t
  | insertStatus {u : Status} (used : ∃ a ∈ s.attributes, a.id = u.attributeId)
      (apart : ∀ v ∈ s.statuses, v.Apart u)
      (place : ∀ v ∈ s.statuses, v.attributeId = u.attributeId → v.sortOrder < u.sortOrder) :
      Change s { s with statuses := s.statuses ++ [u] }
  | removeStatus {u : Status} {a : Attribute} {t : Store} (found : u ∈ s.statuses)
      (has : s.Has a) (ofAttribute : a.id = u.attributeId) (type : a.type = .status)
      (run : (Session.detachChoice a u.id).run
        { s with statuses := s.statuses.filter fun v => v.id != u.id } = .ok () t) : Change s t
  | insertRecord {r : Record} (object : ∃ o ∈ s.objects, o.id = r.objectId)
      (apart : ∀ q ∈ s.records, q.Apart r) : Change s { s with records := s.records ++ [r] }
  | mapRecords {f : Record → Record}
      (same : ∀ r, (f r).id = r.id ∧ (f r).objectId = r.objectId) :
      Change s { s with records := s.records.map f }
  | deleteRecords (p : Record → Bool)
      (unused : ∀ r ∈ s.records, p r = false →
        (∀ e ∈ s.entries, e.recordId ≠ r.id) ∧ ∀ v ∈ s.recordValues, v.owner ≠ r.id) :
      Change s { s with records := s.records.filter p }
  | insertList {l : RecordList} (object : ∃ o ∈ s.objects, o.id = l.objectId)
      (apart : ∀ m ∈ s.lists, m.Apart l) (slug : checkSlug l.slug = .ok ()) :
      Change s { s with lists := s.lists ++ [l] }
  | mapLists {f : RecordList → RecordList}
      (same : ∀ l, (f l).id = l.id ∧ (f l).objectId = l.objectId ∧ (f l).slug = l.slug) :
      Change s { s with lists := s.lists.map f }
  | deleteLists (p : RecordList → Bool)
      (unused : ∀ l ∈ s.lists, p l = false →
        (∀ a ∈ s.attributes, a.parent ≠ .list l.id) ∧ ∀ e ∈ s.entries, e.listId ≠ l.id) :
      Change s { s with lists := s.lists.filter p }
  | insertEntry {e : Entry} (list : ∃ l ∈ s.lists, ∃ r ∈ s.records,
        l.id = e.listId ∧ r.id = e.recordId ∧ r.objectId = l.objectId)
      (apart : ∀ f ∈ s.entries, f.Apart e) : Change s { s with entries := s.entries ++ [e] }
  | mapEntries {f : Entry → Entry} (same : ∀ e, (f e).id = e.id ∧ (f e).listId = e.listId ∧
        (f e).recordId = e.recordId) : Change s { s with entries := s.entries.map f }
  | deleteEntries (p : Entry → Bool)
      (unused : ∀ e ∈ s.entries, p e = false → ∀ v ∈ s.entryValues, v.owner ≠ e.id) :
      Change s { s with entries := s.entries.filter p }
  | storeValue {table : ValueTable} {owner : Id} {a : Attribute} {cell : Cell}
      {key : Option String} (admits : s.Admits table owner a cell)
      (stored : storedKeyOf a cell = .ok key)
      (free : keyTaken (s.values table) owner a.id key = false) :
      Change s (s.setValues table (upsertRow ⟨owner, a.id, cell, key⟩ (s.values table)))
  | deleteValues (table : ValueTable) (p : ValueRow → Bool) :
      Change s (s.setValues table ((s.values table).filter p))

abbrev Changes : Store → Store → Prop := Relation.ReflTransGen Change

theorem Changes.invariant {I : Store → Prop} (h : ∀ s t, Change s t → I s → I t) {s t : Store}
    (hst : Changes s t) (hs : I s) : I t := by
  induction hst with
  | refl => exact hs
  | tail _ hchange ih => exact h _ _ hchange ih

/-! ### Unique indexes -/

theorem indexed_empty : empty.Indexed := by
  refine ⟨.nil, .nil, .nil, .nil, .nil, .nil, .nil, fun table => ?_⟩
  cases table <;> exact .nil

theorem Indexed.change {s t : Store} (hchange : Change s t) (h : s.Indexed) : t.Indexed := by
  cases hchange with
  | insertObject apart => exact { h with objects := pairwise_concat h.objects apart }
  | mapObjects same =>
    refine { h with objects := h.objects.map _ fun o p hop => ?_ }
    rw [Object.Apart, (same o).1, (same p).1, (same o).2.1, (same p).2.1, (same o).2.2,
      (same p).2.2]
    exact hop
  | deleteObjects p => exact { h with objects := h.objects.filter p }
  | insertAttribute _ apart => exact { h with attributes := pairwise_concat h.attributes apart }
  | replaceAttribute _ _ run => exact Session.indexed_replaceAttribute _ _ s h run
  | deleteAttributes =>
    refine setValues ?_ ((h.values _).filter _)
    exact { h with
      attributes := h.attributes.filter _
      options := h.options.filter _
      statuses := h.statuses.filter _ }
  | insertOption _ apart => exact { h with options := pairwise_concat h.options apart }
  | removeOption _ _ _ _ run =>
    refine Session.indexed_detachChoice _ _ _ ?_ run
    exact { h with options := h.options.filter _ }
  | insertStatus _ apart => exact { h with statuses := pairwise_concat h.statuses apart }
  | removeStatus _ _ _ _ run =>
    refine Session.indexed_detachChoice _ _ _ ?_ run
    exact { h with statuses := h.statuses.filter _ }
  | insertRecord _ apart => exact { h with records := pairwise_concat h.records apart }
  | mapRecords same =>
    refine { h with records := h.records.map _ fun r q hrq => ?_ }
    rw [Record.Apart, (same r).1, (same q).1]
    exact hrq
  | deleteRecords p => exact { h with records := h.records.filter p }
  | insertList _ apart => exact { h with lists := pairwise_concat h.lists apart }
  | mapLists same =>
    refine { h with lists := h.lists.map _ fun l m hlm => ?_ }
    rw [RecordList.Apart, (same l).1, (same m).1, (same l).2.1, (same m).2.1, (same l).2.2,
      (same m).2.2]
    exact hlm
  | deleteLists p => exact { h with lists := h.lists.filter p }
  | insertEntry _ apart => exact { h with entries := pairwise_concat h.entries apart }
  | mapEntries same =>
    refine { h with entries := h.entries.map _ fun e f hef => ?_ }
    rw [Entry.Apart, (same e).1, (same f).1, (same e).2.1, (same f).2.1, (same e).2.2,
      (same f).2.2]
    exact hef
  | deleteEntries p => exact { h with entries := h.entries.filter p }
  | storeValue _ _ free => exact h.setValues (pairwise_upsertRow (h.values _) free)
  | deleteValues table p => exact h.setValues ((h.values table).filter p)

end Store

end RecordStore
