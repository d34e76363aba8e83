import Mathlib
import RecordStore.Proofs.Runs

/-!
# Removals

A removal takes exactly what depends on what is removed. That nothing else goes is seen statement by
statement: each deletes rows that depend on it and no others. That nothing of it stays is seen at
the end: whatever a row refers to is there, so a row that depends on a missing one is missing too.
-/

namespace RecordStore

/-- What can be removed, by its id. -/
inductive Removable where
  | object (id : Id)
  | list (id : Id)
  | attribute (id : Id)
  | record (id : Id)
  | entry (id : Id)
deriving DecidableEq

def Call.removes? : Call → Option Removable
  | .deleteObject id => some (.object id)
  | .deleteList id => some (.list id)
  | .deleteAttribute id => some (.attribute id)
  | .deleteRecord _ id => some (.record id)
  | .removeEntry id => some (.entry id)
  | _ => none

/-! ### What goes with what is removed -/

namespace Removable

variable (x : Removable) (s : Store)

def TakesObject (o : Object) : Prop := x = .object o.id

def TakesList (l : RecordList) : Prop := x = .list l.id ∨ x = .object l.objectId

def TakesRecord (r : Record) : Prop := x = .record r.id ∨ x = .object r.objectId

instance (o : Object) : Decidable (x.TakesObject o) := inferInstanceAs (Decidable (_ = _))

instance (l : RecordList) : Decidable (x.TakesList l) := inferInstanceAs (Decidable (_ ∨ _))

instance (r : Record) : Decidable (x.TakesRecord r) := inferInstanceAs (Decidable (_ ∨ _))

def TakesListOf (listId : Id) : Prop := ∃ l ∈ s.lists, l.id = listId ∧ x.TakesList l

instance (listId : Id) : Decidable (x.TakesListOf s listId) :=
  inferInstanceAs (Decidable (∃ l ∈ s.lists, _))

def TakesParent : Parent → Prop
  | .object id => x = .object id
  | .list id => x.TakesListOf s id

instance (parent : Parent) : Decidable (x.TakesParent s parent) :=
  match parent with
  | .object _ => inferInstanceAs (Decidable (_ = _))
  | .list id => inferInstanceAs (Decidable (x.TakesListOf s id))

def TakesAttribute (a : AttributeHead) : Prop := x = .attribute a.id ∨ x.TakesParent s a.parent

instance (a : AttributeHead) : Decidable (x.TakesAttribute s a) :=
  inferInstanceAs (Decidable (_ ∨ _))

/-- Options, statuses and values go with their attribute. -/
def TakesAttributeOf (attributeId : Id) : Prop :=
  ∃ a ∈ s.attributes, a.id = attributeId ∧ x.TakesAttribute s a

instance (attributeId : Id) : Decidable (x.TakesAttributeOf s attributeId) :=
  inferInstanceAs (Decidable (∃ a ∈ s.attributes, _))

def TakesEntry (e : Entry) : Prop :=
  x = .entry e.id ∨ x = .record e.recordId ∨ x.TakesListOf s e.listId

instance (e : Entry) : Decidable (x.TakesEntry s e) := inferInstanceAs (Decidable (_ ∨ _ ∨ _))

def TakesOwner : ValueTable → Id → Prop
  | .records, owner => ∃ r ∈ s.records, r.id = owner ∧ x.TakesRecord r
  | .entries, owner => ∃ e ∈ s.entries, e.id = owner ∧ x.TakesEntry s e

instance (table : ValueTable) (owner : Id) : Decidable (x.TakesOwner s table owner) :=
  match table with
  | .records => inferInstanceAs (Decidable (∃ r ∈ s.records, _))
  | .entries => inferInstanceAs (Decidable (∃ e ∈ s.entries, _))

def TakesValue (table : ValueTable) (v : ValueRow) : Prop :=
  x.TakesAttributeOf s v.attributeId ∨ x.TakesOwner s table v.owner

instance (table : ValueTable) (v : ValueRow) : Decidable (x.TakesValue s table v) :=
  inferInstanceAs (Decidable (_ ∨ _))

end Removable

/-- The store without what is removed and all that goes with it. -/
def Store.without (s : Store) (x : Removable) : Store where
  objects := s.objects.filter fun o => ¬ x.TakesObject o
  attributes := s.attributes.filter fun a => ¬ x.TakesAttribute s a
  options := s.options.filter fun o => ¬ x.TakesAttributeOf s o.attributeId
  statuses := s.statuses.filter fun u => ¬ x.TakesAttributeOf s u.attributeId
  records := s.records.filter fun r => ¬ x.TakesRecord r
  lists := s.lists.filter fun l => ¬ x.TakesList l
  entries := s.entries.filter fun e => ¬ x.TakesEntry s e
  recordValues := s.recordValues.filter fun v => ¬ x.TakesValue s .records v
  entryValues := s.entryValues.filter fun v => ¬ x.TakesValue s .entries v

/-- What was to be removed is not there. -/
def Store.Lacks (t : Store) : Removable → Prop
  | .object id => ∀ o ∈ t.objects, o.id ≠ id
  | .list id => ∀ l ∈ t.lists, l.id ≠ id
  | .attribute id => ∀ a ∈ t.attributes, a.id ≠ id
  | .record id => ∀ r ∈ t.records, r.id ≠ id
  | .entry id => ∀ e ∈ t.entries, e.id ≠ id

/-! ### Tables with fewer rows -/

/-- Some rows of a table are left out, all of which have a property. -/
def Thinned {α : Type} (gone : α → Prop) (rows left : List α) : Prop :=
  ∃ p : α → Bool, left = rows.filter p ∧ ∀ row ∈ rows, p row = false → gone row

namespace Thinned

variable {α : Type} {gone : α → Prop} {rows left : List α}

theorem refl : Thinned gone rows rows := ⟨fun _ => true, by simp, by simp⟩

theorem subset (h : Thinned gone rows left) : left ⊆ rows := by
  obtain ⟨p, rfl, -⟩ := h
  exact List.filter_subset_self _

theorem filter (h : Thinned gone rows left) {q : α → Bool}
    (hq : ∀ row ∈ left, q row = false → gone row) : Thinned gone rows (left.filter q) := by
  obtain ⟨p, rfl, hp⟩ := h
  refine ⟨fun row => q row && p row, List.filter_filter, fun row hrow hout => ?_⟩
  cases hkept : p row with
  | false => exact hp row hrow hkept
  | true => exact hq row (List.mem_filter.mpr ⟨hrow, hkept⟩) (by simpa [hkept] using hout)

theorem eq_filter [DecidablePred gone] (h : Thinned gone rows left)
    (hkept : ∀ row ∈ left, ¬ gone row) : left = rows.filter fun row => ¬ gone row := by
  obtain ⟨p, rfl, hp⟩ := h
  refine List.filter_congr fun row hrow => ?_
  cases hrowp : p row with
  | false => simp [hp row hrow hrowp]
  | true => simp [hkept row (List.mem_filter.mpr ⟨hrow, hrowp⟩)]

end Thinned

theorem of_exists_key {α β : Type} {f : α → β} {gone : α → Prop} {rows : List α} {key : β} {r : α}
    (apart : rows.Pairwise fun a b => f a ≠ f b) (h : ∃ q ∈ rows, f q = key ∧ gone q)
    (hr : r ∈ rows) (hkey : f r = key) : gone r := by
  obtain ⟨q, hq, hqkey, hgone⟩ := h
  rwa [← eq_of_pairwise_ne apart hq hr (hqkey.trans hkey.symm)]

namespace Store

/-- A store from which rows are missing, all of which go with what is removed. -/
structure Thinner (s : Store) (x : Removable) (t : Store) : Prop where
  objects : Thinned x.TakesObject s.objects t.objects
  attributes : Thinned (x.TakesAttribute s) s.attributes t.attributes
  options : Thinned (fun o => x.TakesAttributeOf s o.attributeId) s.options t.options
  statuses : Thinned (fun u => x.TakesAttributeOf s u.attributeId) s.statuses t.statuses
  records : Thinned x.TakesRecord s.records t.records
  lists : Thinned x.TakesList s.lists t.lists
  entries : Thinned (x.TakesEntry s) s.entries t.entries
  values : ∀ table, Thinned (x.TakesValue s table) (s.values table) (t.values table)

variable {s t u : Store} {x : Removable}

namespace Thinner

theorem refl : s.Thinner x s :=
  ⟨.refl, .refl, .refl, .refl, .refl, .refl, .refl, fun _ => .refl⟩

theorem setValues (h : s.Thinner x u) (table : ValueTable) {q : ValueRow → Bool}
    (hq : ∀ v ∈ u.values table, q v = false → x.TakesValue s table v) :
    s.Thinner x (u.setValues table ((u.values table).filter q)) := by
  have hvalues : ∀ other, Thinned (x.TakesValue s other) (s.values other)
      ((u.setValues table ((u.values table).filter q)).values other) := by
    intro other
    by_cases hother : other = table
    · subst hother
      rw [values_setValues]
      exact (h.values other).filter hq
    · rw [values_setValues_of_ne _ _ _ hother]
      exact h.values other
  cases table <;> exact { h with values := hvalues }

theorem withoutAttributes (h : s.Thinner x u) (hi : s.Indexed) {table : ValueTable}
    {ids : List Id} (hids : ∀ id ∈ ids, x.TakesAttributeOf s id) :
    s.Thinner x (u.withoutAttributes table ids) := by
  have hheads : s.Thinner x { u with
      attributes := u.attributes.filter fun a => !ids.contains a.id
      options := u.options.filter fun o => !ids.contains o.attributeId
      statuses := u.statuses.filter fun t => !ids.contains t.attributeId } := { h with
    attributes := h.attributes.filter fun a ha hout =>
      of_exists_key hi.attributeIds (hids a.id (by simpa using hout)) (h.attributes.subset ha) rfl
    options := h.options.filter fun o _ hout => hids o.attributeId (by simpa using hout)
    statuses := h.statuses.filter fun v _ hout => hids v.attributeId (by simpa using hout) }
  exact hheads.setValues table fun v _ hout => .inl (hids v.attributeId (by simpa using hout))

theorem takes_of_mem_attributesOf (h : s.Thinner x u) {parent : Parent}
    (hparent : x.TakesParent s parent) :
    ∀ id ∈ (u.attributesOf parent).map (·.id), x.TakesAttributeOf s id := by
  intro id hid
  obtain ⟨a, ha, rfl⟩ := List.mem_map.mp hid
  obtain ⟨⟨b, hb, rfl⟩, hbparent⟩ := has_of_mem_attributesOf ha
  have htakes : x.TakesParent s b.parent := by rwa [← parent_withChoices u b, hbparent]
  exact ⟨b, h.attributes.subset hb, rfl, .inr htakes⟩

end Thinner

end Store

/-! ### Nothing else goes -/

namespace Session

open Store (Thinner)

variable {s u : Store} {x : Removable}

theorem thinner_purgeAttributesOf (hi : s.Indexed) (h : s.Thinner x u) (setup : Setup)
    {table : ValueTable} (parent : Parent) (hparent : x.TakesParent s parent) :
    Yields u (purgeAttributes setup table ((u.attributesOf parent).map (·.id)))
      fun _ t => s.Thinner x t := by
  refine (yields_purgeAttributes u setup _ _).mono ?_
  rintro - t rfl
  exact h.withoutAttributes hi (h.takes_of_mem_attributesOf hparent)

theorem thinner_deleteEntries (h : s.Thinner x u) {q : Entry → Bool}
    (hq : ∀ e ∈ s.entries, q e = true → x.TakesEntry s e) :
    s.Thinner x { u with
      entries := u.entries.filter fun e => !q e
      entryValues := u.entryValues.filter fun v =>
        !((u.entries.filter q).map (·.id)).contains v.owner } := by
  -- the values go first, while the entries tell which they are
  have hvalues := h.setValues .entries
    (q := fun v => !((u.entries.filter q).map (·.id)).contains v.owner) fun v _ hout => by
      obtain ⟨e, ⟨he, hqe⟩, howner⟩ : ∃ e, (e ∈ u.entries ∧ q e = true) ∧ e.id = v.owner := by
        simpa using hout
      exact .inr ⟨e, h.entries.subset he, howner, hq e (h.entries.subset he) hqe⟩
  exact { hvalues with
    entries := h.entries.filter fun e he hout => hq e (h.entries.subset he) (by simpa using hout) }

theorem thinner_purgeList (hi : s.Indexed) (h : s.Thinner x u) (setup : Setup) {id : Id}
    (hlist : x.TakesListOf s id) :
    Yields u (purgeList setup id) fun _ t => s.Thinner x t ∧ ∀ l ∈ t.lists, l.id ≠ id := by
  refine .get (.bind ((thinner_purgeAttributesOf hi h setup (.list id) hlist).mono ?_))
  rintro - v hv
  refine .get (.bind (.modify (.bind (.modify (.liftM fun _ _ => .modify ⟨?_, ?_⟩)))))
  · have htakes : ∀ e ∈ s.entries, (e.listId == id) = true → x.TakesEntry s e := by
      intro e _ hin
      have hid : e.listId = id := by simpa using hin
      exact .inr (.inr (hid ▸ hlist))
    have hentries := thinner_deleteEntries hv htakes
    exact { hentries with
      lists := hv.lists.filter fun l hl hout => of_exists_key (hi.lists.imp And.left) hlist
        (hv.lists.subset hl) (by simpa using hout) }
  · intro l hl
    simpa using (List.mem_filter.mp hl).2

theorem thinner_purgeLists (hi : s.Indexed) (h : s.Thinner x u) (setup : Setup) {ids : List Id}
    (hids : ∀ id ∈ ids, x.TakesListOf s id) :
    Yields u (purgeLists setup ids) fun _ t => s.Thinner x t := by
  induction ids generalizing u with
  | nil => exact .pure h
  | cons id rest ih =>
    obtain ⟨hid, hrest⟩ := List.forall_mem_cons.mp hids
    refine .bind ((thinner_purgeList hi h setup hid).mono ?_)
    rintro - v ⟨hv, -⟩
    exact ih hv hrest

theorem thinner_purgeObject (hi : s.Indexed) (setup : Setup) (id : Id) :
    Yields s (purgeObject setup id) fun _ t =>
      s.Thinner (.object id) t ∧ t.Lacks (.object id) := by
  have hlists : ∀ listId ∈ (s.listsOf id).map (·.id),
      (Removable.object id).TakesListOf s listId := by
    intro listId hmem
    obtain ⟨l, hl, rfl⟩ := List.mem_map.mp hmem
    obtain ⟨hl, hobject⟩ := List.mem_filter.mp (List.mem_mergeSort.mp hl)
    have hid : l.objectId = id := by simpa using hobject
    exact ⟨l, hl, rfl, .inr (by rw [hid])⟩
  refine .get (.bind ((thinner_purgeLists hi .refl setup hlists).mono ?_))
  rintro - u hu
  refine .get (.bind ((thinner_purgeAttributesOf hi hu setup (.object id) rfl).mono ?_))
  rintro - v hv
  refine .bind (.modify (.modify ⟨?_, fun o ho => by simpa using (List.mem_filter.mp ho).2⟩))
  exact { hv with
    records := hv.records.filter fun r _ hout => by
      have hobject : r.objectId = id := by simpa using hout
      exact .inr (by rw [hobject])
    objects := hv.objects.filter fun o _ hout => by
      have hid : o.id = id := by simpa using hout
      rw [Removable.TakesObject, hid] }

theorem thinner_purgeRecord (setup : Setup) {r : Record} (hr : r ∈ s.records) :
    Yields s (purgeRecord setup r.id) fun _ t =>
      s.Thinner (.record r.id) t ∧ t.Lacks (.record r.id) := by
  refine .get (.bind (.modify (.bind (.modify ?_))))
  refine .liftM fun _ _ => .bind (.modify (.liftM fun _ _ => .modify ⟨?_, ?_⟩))
  · have htakes : ∀ e ∈ s.entries, (e.recordId == r.id) = true →
        (Removable.record r.id).TakesEntry s e := by
      intro e _ hin
      have hid : e.recordId = r.id := by simpa using hin
      exact .inr (.inl (by rw [hid]))
    have hentries := thinner_deleteEntries Thinner.refl htakes
    have hvalues := hentries.setValues .records
      (q := fun v => !([r.id] : List Id).contains v.owner) fun v _ hout =>
        .inr ⟨r, hr, Eq.symm (by simpa using hout), .inl rfl⟩
    exact { hvalues with
      records := hentries.records.filter fun q _ hout => by
        have hid : q.id = r.id := by simpa using hout
        exact .inl (by rw [hid]) }
  · intro q hq
    simpa using (List.mem_filter.mp hq).2

theorem thinner_removeEntry {e : Entry} (he : e ∈ s.entries) :
    s.Thinner (.entry e.id) { s with
      entries := s.entries.filter fun f => f.id != e.id
      entryValues := s.entryValues.filter fun v => !([e.id] : List Id).contains v.owner } := by
  have hvalues := (Thinner.refl (x := .entry e.id)).setValues .entries
    (q := fun v => !([e.id] : List Id).contains v.owner) fun v _ hout =>
      .inr ⟨e, he, Eq.symm (by simpa using hout), .inl rfl⟩
  exact { hvalues with
    entries := Thinned.refl.filter fun f _ hout => by
      have hid : f.id = e.id := by simpa using hout
      exact .inl (by rw [hid]) }

/-- A call for a removal deletes only rows that go with what is removed, and that itself. -/
theorem settles_removal (hi : s.Indexed) (setup : Setup) (stamp : Stamp) {call : Call}
    (hcall : call.removes? = some x) :
    Settles s (ofCall setup stamp call) fun _ t => s.Thinner x t ∧ t.Lacks x := by
  cases call with
  | deleteObject id =>
    cases hcall
    exact settles_silently (.look fun _ _ => .liftM fun _ _ =>
      .transaction (thinner_purgeObject hi setup id))
  | deleteList id =>
    cases hcall
    refine settles_silently (.look fun l hl => .transaction ?_)
    obtain ⟨hl, hid⟩ := Store.mem_of_requireList hl
    exact thinner_purgeList hi .refl setup ⟨l, hl, hid, .inl (by rw [hid])⟩
  | deleteAttribute id =>
    cases hcall
    refine settles_silently (.look fun a ha => .liftM fun _ _ => .transaction ?_)
    obtain ⟨⟨b, hb, rfl⟩, hid⟩ := Store.has_of_requireAttribute ha
    have hid : b.id = id := hid
    refine (yields_purgeAttributes s setup _ _).mono ?_
    rintro - t rfl
    refine ⟨Thinner.refl.withoutAttributes hi fun other hother => ?_, fun a ha => ?_⟩
    · rw [List.mem_singleton.mp hother]
      exact ⟨b, hb, hid, .inl (by rw [hid])⟩
    · rw [Store.attributes_withoutAttributes] at ha
      simpa using (List.mem_filter.mp ha).2
  | deleteRecord objectId id =>
    cases hcall
    refine settles_silently (.look fun r hr => .transaction ?_)
    obtain ⟨hmem, rfl, -⟩ := Store.mem_of_requireRecord hr
    exact thinner_purgeRecord setup hmem
  | removeEntry id =>
    cases hcall
    refine settles_silently (.look fun e he => .transaction (.bind (.modify (.modify ?_))))
    obtain ⟨hmem, rfl⟩ := Store.mem_of_requireEntry he
    refine ⟨thinner_removeEntry hmem, fun f hf => ?_⟩
    simpa using (List.mem_filter.mp hf).2
  | _ => cases hcall

end Session

/-! ### Nothing stays -/

namespace Store

variable {s t : Store} {x : Removable}

namespace Thinner

section

variable (h : s.Thinner x t) (hi : s.Indexed) (ht : t.Linked) (hlacks : t.Lacks x)

include hlacks

theorem not_takesObject {o : Object} (ho : o ∈ t.objects) : ¬ x.TakesObject o := by
  rintro rfl
  exact hlacks o ho rfl

theorem ne_object {id : Id} (hid : ∃ o ∈ t.objects, o.id = id) : x ≠ .object id := by
  rintro rfl
  obtain ⟨o, ho, hid⟩ := hid
  exact hlacks o ho hid

include ht

theorem not_takesList {l : RecordList} (hl : l ∈ t.lists) : ¬ x.TakesList l := by
  rintro (rfl | hobject)
  · exact hlacks l hl rfl
  · exact ne_object hlacks (ht.lists l hl) hobject

theorem not_takesRecord {r : Record} (hr : r ∈ t.records) : ¬ x.TakesRecord r := by
  rintro (rfl | hobject)
  · exact hlacks r hr rfl
  · exact ne_object hlacks (ht.records r hr) hobject

include h hi

theorem not_takesListOf {id : Id} (hid : ∃ l ∈ t.lists, l.id = id) : ¬ x.TakesListOf s id := by
  obtain ⟨l, hl, hid⟩ := hid
  exact fun htakes => not_takesList ht hlacks hl
    (of_exists_key (hi.lists.imp And.left) htakes (h.lists.subset hl) hid)

theorem not_takesAttribute {a : AttributeHead} (ha : a ∈ t.attributes) :
    ¬ x.TakesAttribute s a := by
  rintro (rfl | hparent)
  · exact hlacks a ha rfl
  · have hthere := ht.attributes a ha
    cases hp : a.parent with
    | object id =>
      rw [hp] at hparent hthere
      exact ne_object hlacks (hasParent_object_iff.mp hthere) hparent
    | list id =>
      rw [hp] at hparent hthere
      exact not_takesListOf h hi ht hlacks (hasParent_list_iff.mp hthere) hparent

theorem not_takesAttributeOf {id : Id} (hid : ∃ a ∈ t.attributes, a.id = id) :
    ¬ x.TakesAttributeOf s id := by
  obtain ⟨a, ha, hid⟩ := hid
  exact fun htakes => not_takesAttribute h hi ht hlacks ha
    (of_exists_key hi.attributeIds htakes (h.attributes.subset ha) hid)

theorem not_takesEntry {e : Entry} (he : e ∈ t.entries) : ¬ x.TakesEntry s e := by
  obtain ⟨l, hl, r, hr, hlist, hrecord, -⟩ := ht.entries e he
  rintro (rfl | rfl | htakes)
  · exact hlacks e he rfl
  · exact hlacks r hr hrecord
  · exact not_takesListOf h hi ht hlacks ⟨l, hl, hlist⟩ htakes

theorem not_takesOwner {table : ValueTable} {owner : Id} {parent : Parent}
    (howns : t.Owns table owner parent) : ¬ x.TakesOwner s table owner := by
  cases table with
  | records =>
    obtain ⟨r, hr, howner, -⟩ := howns
    exact fun htakes => not_takesRecord ht hlacks hr
      (of_exists_key hi.records htakes (h.records.subset hr) howner)
  | entries =>
    obtain ⟨e, he, howner, -⟩ := howns
    exact fun htakes => not_takesEntry h hi ht hlacks he
      (of_exists_key (hi.entries.imp And.left) htakes (h.entries.subset he) howner)

theorem not_takesValue (table : ValueTable) {v : ValueRow} (hv : v ∈ t.values table) :
    ¬ x.TakesValue s table v := by
  obtain ⟨a, ha, hid, howns⟩ := ht.values table v hv
  rintro (htakes | htakes)
  · exact not_takesAttributeOf h hi ht hlacks ⟨a, ha, hid⟩ htakes
  · exact not_takesOwner h hi ht hlacks howns htakes

/-- With what is removed, all that goes with it is gone if the links hold. -/
theorem eq_without : t = s.without x := by
  have hrecordValues : t.recordValues = s.recordValues.filter _ :=
    (h.values .records).eq_filter fun _ => not_takesValue h hi ht hlacks .records
  have hentryValues : t.entryValues = s.entryValues.filter _ :=
    (h.values .entries).eq_filter fun _ => not_takesValue h hi ht hlacks .entries
  rw [without, ← h.objects.eq_filter fun _ => not_takesObject hlacks,
    ← h.attributes.eq_filter fun _ => not_takesAttribute h hi ht hlacks,
    ← h.options.eq_filter fun o ho => not_takesAttributeOf h hi ht hlacks (ht.options o ho),
    ← h.statuses.eq_filter fun u hu => not_takesAttributeOf h hi ht hlacks (ht.statuses u hu),
    ← h.records.eq_filter fun _ => not_takesRecord ht hlacks,
    ← h.lists.eq_filter fun _ => not_takesList ht hlacks,
    ← h.entries.eq_filter fun _ => not_takesEntry h hi ht hlacks,
    ← hrecordValues, ← hentryValues]

end

end Thinner

/-! ### Calls for removals -/

/-- A removal that succeeds leaves the store without what was to be removed and what goes with it,
and every other row of every table as it was. -/
theorem eq_without_of_perform {setup : Setup} {stamp : Stamp} {call : Call} {answer : Answer}
    (h : s.Reachable) (hcall : call.removes? = some x)
    (hok : s.perform setup stamp call = .ok (answer, t)) : t = s.without x := by
  have hs := h.sound
  have hrun : (Session.ofCall setup stamp call).run s = .ok answer t := by
    rw [perform] at hok
    split at hok <;> cases hok
    assumption
  -- that nothing stays rests on the links of what is left, not on the statements of the call
  obtain ⟨hthinner, hlacks⟩ := (Session.settles_removal hs.indexed setup stamp hcall).yields hrun
  have ht := hs.changes ((Session.settles_ofCall hs setup stamp call).yields hrun)
  exact hthinner.eq_without hs.indexed ht.linked hlacks

def exampleRemoval : Step := exampleStep 6 (.deleteRecord (exampleId 0 0) (exampleId 2 0))

/-- With the first deal its value and its entry go; the second and the list stay. -/
theorem eq_without_of_deal :
    { exampleStore with
      records := [⟨exampleId 3 0, exampleId 0 0, none, ⟨3⟩, none, ⟨3⟩⟩]
      entries := []
      recordValues := [⟨exampleId 3 0, exampleId 1 0, .boolean false, some "false"⟩] } =
      exampleStore.without (.record (exampleId 2 0)) := by
  have hok : exampleStore.perform exampleRemoval.setup exampleRemoval.stamp exampleRemoval.call =
      .ok (.nothing, { exampleStore with
        records := [⟨exampleId 3 0, exampleId 0 0, none, ⟨3⟩, none, ⟨3⟩⟩]
        entries := []
        recordValues := [⟨exampleId 3 0, exampleId 1 0, .boolean false, some "false"⟩] }) := by cbv
  exact eq_without_of_perform reachable_exampleStore rfl hok

end Store

end RecordStore
