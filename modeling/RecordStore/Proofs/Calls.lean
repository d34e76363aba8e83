import RecordStore.Proofs.Views

/-!
# What calls do

Every call either fails and leaves the store as it was, or succeeds and has made changes of the
known kinds, one after the other. A call that ends by showing what it has written does not fail
there, because what it has written is there to be shown.
-/

namespace RecordStore

namespace Store

/-- The unique indexes hold, and whatever a row refers to is there. -/
structure Sound (s : Store) : Prop where
  indexed : s.Indexed
  linked : s.Linked

theorem sound_empty : empty.Sound := ⟨indexed_empty, linked_empty⟩

theorem Sound.changes {s t : Store} (h : s.Sound) (hst : Changes s t) : t.Sound :=
  hst.invariant (fun _ _ hchange hs =>
    ⟨hs.indexed.change hchange, hs.linked.change hchange hs.indexed⟩) h

theorem Sound.invariant {I : Store → Prop}
    (h : ∀ s t, Change s t → s.Sound → I s → I t) {s t : Store} (hs : s.Sound)
    (hst : Changes s t) (hI : I s) : I t := by
  induction hst with
  | refl => exact hI
  | tail hsu hchange ih => exact h _ _ hchange (hs.changes hsu) ih

/-- The options of an attribute have their places below one. -/
def OptionsBelow (s : Store) (attributeId : Id) (place : Int) : Prop :=
  ∀ o ∈ s.options, o.attributeId = attributeId → o.sortOrder.toInt < place

def StatusesBelow (s : Store) (attributeId : Id) (place : Int) : Prop :=
  ∀ u ∈ s.statuses, u.attributeId = attributeId → u.sortOrder.toInt < place

end Store

namespace Session

open Store (Changes Change Sound)

variable {s : Store}

/-! ### Objects -/

theorem settles_createObject (s : Store) (stamp : Stamp) (new : NewObject) :
    Settles s (createObject stamp new) fun _ t => Changes s t := by
  refine .liftM fun _ hslug => .liftM fun _ _ => .liftM fun _ _ => .get (.liftM fun _ _ => .bind ?_)
  exact .write fun apart => .pure (.single (.insertObject apart hslug))

theorem settles_updateObject (s : Store) (id : Id) (changes : ObjectChanges) :
    Settles s (updateObject id changes) fun _ t => Changes s t := by
  refine .look fun current _ => .liftM fun _ _ => .liftM fun _ _ => .bind ?_
  refine .modify (.pure (.single (.mapObjects fun o => ?_)))
  split <;> exact ⟨rfl, rfl, rfl⟩

/-! ### Attributes -/

theorem settles_insertOption {attributeId : Id} (hused : ∃ a ∈ s.attributes, a.id = attributeId)
    (id : Id) {place : Int32} (hbelow : s.OptionsBelow attributeId place.toInt) (new : NewOption) :
    Settles s (insertOption attributeId id place new) fun _ t => Changes s t ∧
      t.attributes = s.attributes ∧ t.statuses = s.statuses ∧
        t.OptionsBelow attributeId (place.toInt + 1) := by
  refine .liftM fun _ _ => .bind (.write fun apart => .pure ⟨?_, rfl, rfl, fun o ho hid => ?_⟩)
  · exact .single (.insertOption hused apart fun o ho hid =>
      Int32.lt_iff_toInt_lt.mpr (hbelow o ho hid))
  · rcases List.mem_append.mp ho with ho | ho
    · exact Int.lt_add_one_of_le (Int.le_of_lt (hbelow o ho hid))
    · rw [List.mem_singleton.mp ho]
      exact Int.lt_succ place.toInt

theorem settles_insertStatus {attributeId : Id} (hused : ∃ a ∈ s.attributes, a.id = attributeId)
    (id : Id) {place : Int32} (hbelow : s.StatusesBelow attributeId place.toInt) (new : NewStatus) :
    Settles s (insertStatus attributeId id place new) fun _ t => Changes s t ∧
      t.attributes = s.attributes ∧ t.StatusesBelow attributeId (place.toInt + 1) := by
  refine .liftM fun _ _ => .bind (.write fun apart => .pure ⟨?_, rfl, fun u hu hid => ?_⟩)
  · exact .single (.insertStatus hused apart fun u hu hid =>
      Int32.lt_iff_toInt_lt.mpr (hbelow u hu hid))
  · rcases List.mem_append.mp hu with hu | hu
    · exact Int.lt_add_one_of_le (Int.le_of_lt (hbelow u hu hid))
    · rw [List.mem_singleton.mp hu]
      exact Int.lt_succ place.toInt

theorem yields_insertOptions {attributeId : Id} (hused : ∃ a ∈ s.attributes, a.id = attributeId)
    (setup : Setup) (stamp : Stamp) {place : Nat} (hbelow : s.OptionsBelow attributeId place)
    {new : List NewOption} (hfew : place + new.length ≤ placeCount) :
    Yields s (insertOptions setup stamp attributeId place new) fun _ t =>
      Changes s t ∧ t.attributes = s.attributes ∧ t.statuses = s.statuses := by
  induction new generalizing s place with
  | nil => exact .pure ⟨.refl, rfl, rfl⟩
  | cons o rest ih =>
    rw [List.length_cons] at hfew
    have hplace : (Int32.ofNat place).toInt = place := toInt_ofNat_of_lt_placeCount (by omega)
    refine .bind ((settles_insertOption hused _ (hplace ▸ hbelow) o).yields.mono ?_)
    rintro option u ⟨hsu, hattributes, hstatuses, hbelow'⟩
    have hused' : ∃ a ∈ u.attributes, a.id = attributeId := by rwa [hattributes]
    have hnext : u.OptionsBelow attributeId (place + 1 : Nat) := by rwa [hplace] at hbelow'
    refine .liftM fun _ _ => .bind ((ih hused' hnext (by omega)).mono ?_)
    rintro others t ⟨hut, hattributes', hstatuses'⟩
    exact .pure ⟨hsu.trans hut, hattributes'.trans hattributes, hstatuses'.trans hstatuses⟩

theorem yields_insertStatuses {attributeId : Id} (hused : ∃ a ∈ s.attributes, a.id = attributeId)
    (setup : Setup) (stamp : Stamp) {place : Nat} (hbelow : s.StatusesBelow attributeId place)
    {new : List NewStatus} (hfew : place + new.length ≤ placeCount) :
    Yields s (insertStatuses setup stamp attributeId place new) fun _ t =>
      Changes s t ∧ t.attributes = s.attributes := by
  induction new generalizing s place with
  | nil => exact .pure ⟨.refl, rfl⟩
  | cons o rest ih =>
    rw [List.length_cons] at hfew
    have hplace : (Int32.ofNat place).toInt = place := toInt_ofNat_of_lt_placeCount (by omega)
    refine .bind ((settles_insertStatus hused _ (hplace ▸ hbelow) o).yields.mono ?_)
    rintro status u ⟨hsu, hattributes, hbelow'⟩
    have hused' : ∃ a ∈ u.attributes, a.id = attributeId := by rwa [hattributes]
    have hnext : u.StatusesBelow attributeId (place + 1 : Nat) := by rwa [hplace] at hbelow'
    refine .liftM fun _ _ => .bind ((ih hused' hnext (by omega)).mono ?_)
    rintro others t ⟨hut, hattributes'⟩
    exact .pure ⟨hsu.trans hut, hattributes'.trans hattributes⟩

theorem sets_of_check {new : NewAttribute} (h : new.check = .ok ()) :
    new.isSet = true → new.type.allowsSets = true := by
  obtain ⟨_, -, h⟩ := bind_eq_ok_iff.mp h
  obtain ⟨_, -, h⟩ := bind_eq_ok_iff.mp h
  obtain ⟨_, hsets, -⟩ := bind_eq_ok_iff.mp h
  exact require_eq_ok_iff.mp hsets

theorem slug_of_check {new : NewAttribute} (h : new.check = .ok ()) :
    checkSlug new.slug = .ok () := by
  obtain ⟨_, hslug, -⟩ := bind_eq_ok_iff.mp h
  exact hslug

theorem settles_createAttribute (hs : s.Sound) (setup : Setup) (stamp : Stamp)
    (new : NewAttribute) :
    Settles s (createAttribute setup stamp new) fun _ t => Changes s t := by
  refine .liftM fun _ hcheck => .liftM fun title _ => .get (.liftM fun _ hparent => ?_)
  refine .liftM fun _ _ => .liftM fun place hplace => ?_
  refine .transaction (.bind (.write fun apart => .liftM fun _ _ => .bind ?_))
  obtain ⟨hoptions, hstatuses⟩ := NewAttribute.few_of_place hplace
  have hinserted :=
    Change.insertAttribute (require_eq_ok_iff.mp hparent) apart (sets_of_check hcheck)
      (slug_of_check hcheck)
  -- choices belong to attributes that are there, so the new one has none yet
  have hunused : ∀ id, (∃ a ∈ s.attributes, a.id = id) → id ≠ stamp.fresh 0 := by
    rintro _ ⟨a, ha, rfl⟩
    exact (apart a ha).1
  refine (yields_insertOptions ⟨_, List.mem_append_right _ (List.mem_singleton.mpr rfl), rfl⟩
    setup stamp ?_ (by omega)).mono ?_
  · intro o ho hid
    exact absurd hid (hunused _ (hs.linked.options o ho))
  rintro options u ⟨hsu, hattributes, hsame⟩
  refine .bind ((yields_insertStatuses ?_ setup stamp ?_ (by omega)).mono ?_)
  · rw [hattributes]
    exact ⟨_, List.mem_append_right _ (List.mem_singleton.mpr rfl), rfl⟩
  · intro v hv hid
    rw [hsame] at hv
    exact absurd hid (hunused _ (hs.linked.statuses v hv))
  · rintro statuses t ⟨hut, -⟩
    exact .pure (.head hinserted (hsu.trans hut))

theorem settles_updateAttribute (s : Store) (id : Id) (changes : AttributeChanges) :
    Settles s (updateAttribute id changes) fun _ t => Changes s t := by
  refine .look fun current hcurrent => .look fun next hnext => .bind (.transaction ?_)
  intro _ t hrun
  exact .pure (.single (.replaceAttribute (Store.has_of_requireAttribute hcurrent).1 hnext hrun))

/-! ### Choices -/

theorem requireChoices_eq_ok {id : Id} {type : ValueType} {a : Attribute}
    (h : s.requireChoices id type = .ok a) : s.Has a ∧ a.id = id ∧ a.type = type := by
  obtain ⟨b, hb, h⟩ := bind_eq_ok_iff.mp h
  obtain ⟨_, htype, h⟩ := bind_eq_ok_iff.mp h
  cases h
  obtain ⟨hhas, hid⟩ := Store.has_of_requireAttribute hb
  exact ⟨hhas, hid, require_eq_ok_iff.mp htype⟩

theorem exists_of_has {a : Attribute} {id : Id} (h : s.Has a) (hid : a.id = id) :
    ∃ b ∈ s.attributes, b.id = id := by
  obtain ⟨b, hb, rfl⟩ := h
  exact ⟨b, hb, hid⟩

theorem settles_addOption (s : Store) (stamp : Stamp) (attributeId : Id) (new : NewOption) :
    Settles s (addOption stamp attributeId new) fun _ t => Changes s t := by
  refine .look fun a ha => ?_
  obtain ⟨hhas, hid, htype⟩ := requireChoices_eq_ok ha
  refine .liftM fun place hplace => ?_
  have hbelow : s.OptionsBelow attributeId place.toInt := by
    intro o ho hoid
    obtain ⟨b, -, rfl⟩ := hhas
    rw [Store.id_withChoices] at hid
    have hselect : b.type = .select := htype
    refine Int32.lt_iff_toInt_lt.mp (lt_of_nextPlace hplace ?_)
    refine List.mem_map_of_mem (f := SelectOption.sortOrder) ?_
    simp [Store.withChoices, hselect, ho, hoid, hid]
  exact (settles_insertOption (exists_of_has hhas hid) _ hbelow new).mono fun _ _ h => h.1

theorem settles_addStatus (s : Store) (stamp : Stamp) (attributeId : Id) (new : NewStatus) :
    Settles s (addStatus stamp attributeId new) fun _ t => Changes s t := by
  refine .look fun a ha => ?_
  obtain ⟨hhas, hid, htype⟩ := requireChoices_eq_ok ha
  refine .liftM fun place hplace => ?_
  have hbelow : s.StatusesBelow attributeId place.toInt := by
    intro u hu huid
    obtain ⟨b, -, rfl⟩ := hhas
    rw [Store.id_withChoices] at hid
    have hstatus : b.type = .status := htype
    refine Int32.lt_iff_toInt_lt.mp (lt_of_nextPlace hplace ?_)
    refine List.mem_map_of_mem (f := Status.sortOrder) ?_
    simp [Store.withChoices, hstatus, hu, huid, hid]
  exact (settles_insertStatus (exists_of_has hhas hid) _ hbelow new).mono fun _ _ h => h.1

theorem mem_of_requireOption {id : Id} {o : SelectOption} (h : s.requireOption id = .ok o) :
    o ∈ s.options ∧ o.id = id :=
  mem_of_find?_key (Store.requireOption_eq_ok_iff.mp h)

theorem mem_of_requireStatus {id : Id} {u : Status} (h : s.requireStatus id = .ok u) :
    u ∈ s.statuses ∧ u.id = id :=
  mem_of_find?_key (Store.requireStatus_eq_ok_iff.mp h)

theorem settles_removeOption (s : Store) (id : Id) :
    Settles s (removeOption id) fun _ t => Changes s t := by
  refine .look fun option hoption => .look fun a ha => .transaction (.bind (.modify ?_))
  intro _ t hrun
  obtain ⟨hmem, rfl⟩ := mem_of_requireOption hoption
  obtain ⟨hhas, hid, htype⟩ := requireChoices_eq_ok ha
  exact .single (.removeOption hmem hhas hid htype hrun)

theorem settles_removeStatus (s : Store) (id : Id) :
    Settles s (removeStatus id) fun _ t => Changes s t := by
  refine .look fun status hstatus => .look fun a ha => .transaction (.bind (.modify ?_))
  intro _ t hrun
  obtain ⟨hmem, rfl⟩ := mem_of_requireStatus hstatus
  obtain ⟨hhas, hid, htype⟩ := requireChoices_eq_ok ha
  exact .single (.removeStatus hmem hhas hid htype hrun)

/-! ### Removal -/

theorem parent_of_mem_attributesOf (h : s.Indexed) {parent : Parent} {b : AttributeHead}
    (hb : b ∈ s.attributes) (hid : b.id ∈ (s.attributesOf parent).map (·.id)) :
    b.parent = parent := by
  obtain ⟨a, ha, hab⟩ := List.mem_map.mp hid
  obtain ⟨⟨c, hc, rfl⟩, hparent⟩ := Store.has_of_mem_attributesOf ha
  have heq : c = b := eq_of_pairwise_ne h.attributeIds hc hb hab
  rw [← heq]
  exact hparent

theorem mem_attributesOf_of_parent {parent : Parent} {b : AttributeHead}
    (hb : b ∈ s.attributes) (hparent : b.parent = parent) :
    b.id ∈ (s.attributesOf parent).map (·.id) :=
  List.mem_map.mpr ⟨s.withChoices b, hparent ▸ Store.mem_attributesOf hb, rfl⟩

theorem yields_purgeAttributesOf (hs : s.Sound) (setup : Setup) (parent : Parent) :
    Yields s (purgeAttributes setup parent.valueTable ((s.attributesOf parent).map (·.id)))
      fun _ t => Changes s t ∧ t.lists = s.lists ∧ ∀ a ∈ t.attributes, a.parent ≠ parent := by
  refine (yields_purgeAttributes s setup _ _).mono ?_
  rintro - t rfl
  refine ⟨.single (.deleteAttributes fun a ha hid => ?_), by simp, fun a ha hparent => ?_⟩
  · rw [parent_of_mem_attributesOf hs.indexed ha hid]
  · rw [Store.attributes_withoutAttributes, List.mem_filter] at ha
    simp [mem_attributesOf_of_parent ha.1 hparent] at ha

/-- Entries can be deleted once the values are deleted whose owners they are. -/
theorem changes_deleteEntries (s : Store) (p : Entry → Bool) {ids : List Id}
    (hids : ∀ e ∈ s.entries, p e = false → e.id ∈ ids) :
    Changes s { s with
      entries := s.entries.filter p
      entryValues := s.entryValues.filter fun v => !ids.contains v.owner } := by
  have hvalues := Change.deleteValues (s := s) .entries fun v => !ids.contains v.owner
  refine Relation.ReflTransGen.tail (.single hvalues) (.deleteEntries p ?_)
  intro e he hdeleted v hv howner
  have hkept := (List.mem_filter.mp hv).2
  rw [howner] at hkept
  simp [hids e he hdeleted] at hkept

theorem yields_purgeList (hs : s.Sound) (setup : Setup) (id : Id) :
    Yields s (purgeList setup id) fun _ t =>
      Changes s t ∧ t.lists = s.lists.filter fun l => l.id != id := by
  refine .get (.bind ((yields_purgeAttributesOf hs setup (.list id)).mono ?_))
  rintro - u ⟨hsu, hlists, hattributes⟩
  refine .get (.bind (.modify (.bind (.modify (.liftM fun _ _ => .modify ?_)))))
  refine ⟨?_, by rw [← hlists]; rfl⟩
  have hentries : ∀ e ∈ u.entries, (e.listId != id) = false →
      e.id ∈ (u.entriesOf id).map (·.id) := by
    intro e he hdeleted
    exact List.mem_map_of_mem (List.mem_filter.mpr ⟨he, by simpa using hdeleted⟩)
  refine (hsu.trans (changes_deleteEntries u _ hentries)).tail (.deleteLists _ ?_)
  intro l _ hdeleted
  have hid : l.id = id := by simpa using hdeleted
  rw [hid]
  refine ⟨hattributes, fun e he => ?_⟩
  simpa using (List.mem_filter.mp he).2

theorem yields_purgeLists (hs : s.Sound) (setup : Setup) (ids : List Id) :
    Yields s (purgeLists setup ids) fun _ t =>
      Changes s t ∧ t.lists = s.lists.filter fun l => !ids.contains l.id := by
  induction ids generalizing s with
  | nil => exact .pure ⟨.refl, by simp⟩
  | cons id rest ih =>
    refine .bind ((yields_purgeList hs setup id).mono ?_)
    rintro - u ⟨hsu, hlists⟩
    refine (ih (hs.changes hsu)).mono ?_
    rintro - t ⟨hut, hlists'⟩
    refine ⟨hsu.trans hut, ?_⟩
    rw [hlists', hlists, List.filter_filter]
    refine List.filter_congr fun l _ => ?_
    by_cases hid : l.id = id <;> simp [hid]

/-- Without its lists and its attributes, an object's records are not in use. -/
theorem unused_of_without (hs : s.Sound) {r : Record} (hr : r ∈ s.records)
    (hlists : ∀ l ∈ s.lists, l.objectId ≠ r.objectId)
    (hattributes : ∀ a ∈ s.attributes, a.parent ≠ .object r.objectId) :
    (∀ e ∈ s.entries, e.recordId ≠ r.id) ∧ ∀ v ∈ s.recordValues, v.owner ≠ r.id := by
  constructor
  · intro e he hrecord
    obtain ⟨l, hl, q, hq, -, hqid, hobject⟩ := hs.linked.entries e he
    have heq : q = r := eq_of_pairwise_ne hs.indexed.records hq hr (hqid.trans hrecord)
    exact hlists l hl (by rw [← hobject, heq])
  · intro v hv howner
    obtain ⟨a, ha, -, q, hq, hqid, hparent⟩ := hs.linked.values .records v hv
    have heq : q = r := eq_of_pairwise_ne hs.indexed.records hq hr (hqid.trans howner)
    exact hattributes a ha (by rw [hparent, heq])

theorem yields_purgeObject (hs : s.Sound) (setup : Setup) (id : Id) :
    Yields s (purgeObject setup id) fun _ t => Changes s t := by
  refine .get (.bind ((yields_purgeLists hs setup _).mono ?_))
  rintro - u ⟨hsu, hulists⟩
  have hu := hs.changes hsu
  refine .get (.bind ((yields_purgeAttributesOf hu setup (.object id)).mono ?_))
  rintro - v ⟨huv, hvlists, hattributes⟩
  have hv := hu.changes huv
  -- the lists are gone before the attributes, and deleting attributes brings none back
  have hlists : ∀ l ∈ v.lists, l.objectId ≠ id := by
    intro l hl hobject
    rw [hvlists, hulists, List.mem_filter] at hl
    have hmem : l.id ∈ (s.listsOf id).map (·.id) := by
      refine List.mem_map_of_mem (List.mem_mergeSort.mpr (List.mem_filter.mpr ⟨hl.1, ?_⟩))
      simpa using hobject
    simp [hmem] at hl
  refine .bind (.modify (.modify ?_))
  refine ((hsu.trans huv).tail (.deleteRecords _ ?_)).tail (.deleteObjects _ ?_)
  · intro r hr hdeleted
    have hobject : r.objectId = id := by simpa using hdeleted
    subst hobject
    exact unused_of_without hv hr hlists hattributes
  · intro o _ hdeleted
    have hid : o.id = id := by simpa using hdeleted
    rw [hid]
    refine ⟨hattributes, fun r hr => ?_, hlists⟩
    simpa using (List.mem_filter.mp hr).2

theorem settles_deleteObject (hs : s.Sound) (setup : Setup) (id : Id) :
    Settles s (deleteObject setup id) fun _ t => Changes s t :=
  .look fun _ _ => .liftM fun _ _ => .transaction (yields_purgeObject hs setup id)

theorem settles_deleteAttribute (hs : s.Sound) (setup : Setup) (id : Id) :
    Settles s (deleteAttribute setup id) fun _ t => Changes s t := by
  refine .look fun a ha => .liftM fun _ _ => .transaction ?_
  obtain ⟨⟨b, hb, rfl⟩, hid⟩ := Store.has_of_requireAttribute ha
  refine (yields_purgeAttributes s setup _ _).mono ?_
  rintro - t rfl
  refine .single (.deleteAttributes fun c hc hcid => ?_)
  have heq : c = b := eq_of_pairwise_ne hs.indexed.attributeIds hc hb
    ((List.mem_singleton.mp hcid).trans hid.symm)
  rw [heq]
  rfl

theorem settles_deleteRecord (s : Store) (setup : Setup) (objectId id : Id) :
    Settles s (deleteRecord setup objectId id) fun _ t => Changes s t := by
  refine .look fun _ _ => .transaction (.get (.bind (.modify (.bind (.modify ?_)))))
  refine .liftM fun _ _ => .bind (.modify (.liftM fun _ _ => .modify ?_))
  have hentries : ∀ e ∈ s.entries, (e.recordId != id) = false →
      e.id ∈ (s.entries.filter fun e => e.recordId == id).map (·.id) := by
    intro e he hdeleted
    exact List.mem_map_of_mem (List.mem_filter.mpr ⟨he, by simpa using hdeleted⟩)
  refine ((changes_deleteEntries s _ hentries).tail (.deleteValues .records _)).tail
    (.deleteRecords _ ?_)
  intro r _ hdeleted
  have hid : r.id = id := by simpa using hdeleted
  rw [hid]
  constructor
  · intro e he
    simpa using (List.mem_filter.mp he).2
  · intro v hv
    simpa using (List.mem_filter.mp hv).2

theorem settles_deleteList (hs : s.Sound) (setup : Setup) (id : Id) :
    Settles s (deleteList setup id) fun _ t => Changes s t :=
  .look fun _ _ => .transaction ((yields_purgeList hs setup id).mono fun _ _ h => h.1)

theorem settles_removeEntry (s : Store) (id : Id) :
    Settles s (removeEntry id) fun _ t => Changes s t := by
  refine .look fun _ _ => .transaction (.bind (.modify (.modify ?_)))
  refine changes_deleteEntries s (fun e => e.id != id) fun e _ hdeleted => ?_
  simpa using hdeleted

/-! ### Values -/

theorem admits_setValues {table other : ValueTable} {rows : List ValueRow} {owner : Id}
    {a : Attribute} {cell : Cell} (h : s.Admits table owner a cell) :
    (s.setValues other rows).Admits table owner a cell := by
  refine ⟨?_, ?_, h.encoded⟩
  · cases other <;> exact h.has
  · cases other <;> cases table <;> exact h.owns

theorem yields_storeValues {table : ValueTable} {owner : Id} {sets : List (Attribute × Cell)}
    (hadmits : ∀ p ∈ sets, s.Admits table owner p.1 p.2) :
    Yields s (storeValues table owner sets) fun _ t =>
      Changes s t ∧ ∃ rows, t = s.setValues table rows := by
  induction sets generalizing s with
  | nil => exact .pure ⟨.refl, s.values table, by simp⟩
  | cons p rest ih =>
    obtain ⟨hhere, hothers⟩ := List.forall_mem_cons.mp hadmits
    refine .bind (.liftM fun key hkey => .get (.liftM fun _ hfree => .write fun _ => ?_))
    have hchange := Change.storeValue hhere hkey (require_eq_ok_iff.mp hfree)
    refine (ih fun q hq => admits_setValues (hothers q hq)).mono ?_
    rintro - t ⟨hst, rows, rfl⟩
    exact ⟨.head hchange hst, rows, Store.setValues_setValues ..⟩

theorem yields_clearValues (s : Store) (table : ValueTable) (owner : Id)
    (clears : List Attribute) :
    Yields s (clearValues table owner clears) fun _ t =>
      Changes s t ∧ ∃ rows, t = s.setValues table rows := by
  induction clears generalizing s with
  | nil => exact .pure ⟨.refl, s.values table, by simp⟩
  | cons a rest ih =>
    refine .bind (.modify ((ih _).mono ?_))
    rintro - t ⟨hst, rows, rfl⟩
    exact ⟨.head (.deleteValues table _) hst, rows, Store.setValues_setValues ..⟩

theorem yields_applyValues {table : ValueTable} {owner : Id} {prepared : Prepared}
    (hadmits : ∀ p ∈ prepared.sets, s.Admits table owner p.1 p.2) :
    Yields s (applyValues table owner prepared) fun _ t =>
      Changes s t ∧ ∃ rows, t = s.setValues table rows := by
  refine .bind ((yields_storeValues hadmits).mono ?_)
  rintro - u ⟨hsu, rows, rfl⟩
  refine (yields_clearValues _ table owner prepared.clears).mono ?_
  rintro - t ⟨hut, rows', rfl⟩
  exact ⟨hsu.trans hut, rows', Store.setValues_setValues ..⟩

theorem admits_of_prepareValues {parent : Parent} {given : List (String × Json)}
    {mode : WriteMode} {prepared : Prepared} {table : ValueTable} {owner : Id}
    (howns : s.Owns table owner parent)
    (h : prepareValues (s.attributesOf parent) given mode = .ok prepared) :
    ∀ p ∈ prepared.sets, s.Admits table owner p.1 p.2 := by
  intro p hp
  obtain ⟨hmem, hraw⟩ := encoded_of_prepareValues h p hp
  obtain ⟨hhas, hparent⟩ := Store.has_of_mem_attributesOf hmem
  exact ⟨hhas, hparent ▸ howns, hraw⟩

/-! ### Records -/

theorem settles_createRecord (hs : s.Sound) (stamp : Stamp) (new : NewRecord) :
    Settles s (createRecord stamp new) fun _ t => Changes s t := by
  refine .look fun _ hobject => .get (.liftM fun prepared hprepared => ?_)
  refine .bind (.transaction (.bind (.write fun apart => ?_)))
  -- only the object of the new record matters from here on, and that its id was free
  generalize hrecord : Record.mk _ _ _ _ _ _ = record at apart ⊢
  have hid : record.objectId = new.objectId := by rw [← hrecord]
  have hinserted := Change.insertRecord (hid ▸ ⟨_, Store.mem_of_requireObject hobject⟩) apart
  have hmem : record ∈ s.records ++ [record] := List.mem_append_right _ (List.mem_singleton.mpr rfl)
  have howns : Store.Owns { s with records := s.records ++ [record] } .records record.id
      (.object new.objectId) := ⟨record, hmem, rfl, by rw [hid]⟩
  have hadmits := admits_of_prepareValues howns hprepared
  refine (yields_applyValues hadmits).mono ?_
  rintro - t ⟨hut, rows, rfl⟩
  have hst := Relation.ReflTransGen.head hinserted hut
  rw [← hid]
  exact .look (Store.requireRecordView_eq_ok (hs.changes hst).indexed (by simp)) hst

theorem settles_touchRecord (s : Store) (id : Id) (now : Timestamp) :
    Settles s (touchRecord id now) fun _ t => Changes s t ∧
      ∀ r ∈ s.records, ∃ q ∈ t.records, q.id = r.id ∧ q.objectId = r.objectId := by
  have hsame : ∀ r : Record, (if r.id = id then { r with updatedAt := now } else r).id = r.id ∧
      (if r.id = id then { r with updatedAt := now } else r).objectId = r.objectId := by
    intro r
    split <;> exact ⟨rfl, rfl⟩
  exact .modify ⟨.single (.mapRecords hsame), fun r hr => ⟨_, List.mem_map_of_mem hr, hsame r⟩⟩

theorem settles_updateRecord (hs : s.Sound) (stamp : Stamp) (changes : RecordChanges) :
    Settles s (updateRecord stamp changes) fun _ t => Changes s t := by
  refine .look fun r hr => .get (.liftM fun prepared hprepared => .bind (.transaction (.bind ?_)))
  obtain ⟨objectId, recordId, given, actor⟩ := changes
  obtain ⟨hmem, rfl, rfl⟩ := Store.mem_of_requireRecord hr
  have howns : s.Owns .records r.id (.object r.objectId) := ⟨r, hmem, rfl, rfl⟩
  refine (yields_applyValues (admits_of_prepareValues howns hprepared)).mono ?_
  rintro - u ⟨hsu, rows, rfl⟩
  refine (settles_touchRecord _ r.id stamp.now).yields.mono ?_
  rintro - t ⟨hut, hkept⟩
  have hst := hsu.trans hut
  obtain ⟨q, hq, hqid, hqobject⟩ := hkept r (by simpa using hmem)
  have hview := Store.requireRecordView_eq_ok (hs.changes hst).indexed hq
  rw [hqid, hqobject] at hview
  exact .look hview hst

theorem settles_assertRecord (hs : s.Sound) (stamp : Stamp) (assertion : RecordAssertion) :
    Settles s (assertRecord stamp assertion) fun _ t => Changes s t := by
  refine .look fun _ _ => .get (.liftM fun found _ => ?_)
  dsimp only
  split
  · exact settles_updateRecord hs stamp _
  · exact settles_createRecord hs stamp _

theorem yields_placeRecords (s : Store) (place : Nat) (ids : List Id) :
    Yields s (placeRecords place ids) fun _ t => Changes s t := by
  induction ids generalizing s place with
  | nil => exact .pure .refl
  | cons id rest ih =>
    refine .bind (.modify ((ih _ _).mono ?_))
    rintro - t hut
    refine .head (.mapRecords fun r => ?_) hut
    split <;> exact ⟨rfl, rfl⟩

theorem settles_reorder (s : Store) (objectId : Id) (ids : List Id) :
    Settles s (reorder objectId ids) fun _ t => Changes s t :=
  .look fun _ _ => .get (.liftM fun _ _ => .liftM fun _ _ =>
    .transaction (yields_placeRecords s 0 ids))

/-! ### Lists -/

theorem settles_createList (s : Store) (stamp : Stamp) (new : NewList) :
    Settles s (createList stamp new) fun _ t => Changes s t := by
  refine .liftM fun _ hslug => .liftM fun _ _ => .look fun _ hobject => .get (.liftM fun _ _ => ?_)
  exact .bind (.write fun apart =>
    .pure (.single (.insertList ⟨_, Store.mem_of_requireObject hobject⟩ apart hslug)))

theorem settles_updateList (s : Store) (id : Id) (changes : ListChanges) :
    Settles s (updateList id changes) fun _ t => Changes s t := by
  refine .look fun current _ => .liftM fun _ _ => .bind (.modify (.pure (.single ?_)))
  refine .mapLists fun l => ?_
  split <;> exact ⟨rfl, rfl, rfl⟩

theorem mem_of_requireAnyRecord {id : Id} {r : Record} (h : s.requireAnyRecord id = .ok r) :
    r ∈ s.records ∧ r.id = id :=
  mem_of_find?_key (Store.requireAnyRecord_eq_ok_iff.mp h)

theorem settles_addEntry (hs : s.Sound) (stamp : Stamp) (new : NewEntry) :
    Settles s (addEntry stamp new) fun _ t => Changes s t := by
  refine .look fun list hlist => .look fun r hr => .get (.liftM fun _ hobject => ?_)
  refine .liftM fun _ _ => .liftM fun prepared hprepared => ?_
  refine .bind (.transaction (.bind (.write fun apart => ?_)))
  obtain ⟨hlmem, -⟩ := Store.mem_of_requireList hlist
  obtain ⟨hrmem, -⟩ := mem_of_requireAnyRecord hr
  generalize hentry : Entry.mk _ _ _ _ _ _ = entry at apart ⊢
  have hlid : entry.listId = list.id := by rw [← hentry]
  have hrid : entry.recordId = r.id := by rw [← hentry]
  have hinserted := Change.insertEntry
    ⟨list, hlmem, r, hrmem, hlid.symm, hrid.symm, require_eq_ok_iff.mp hobject⟩ apart
  have hmem : entry ∈ s.entries ++ [entry] := List.mem_append_right _ (List.mem_singleton.mpr rfl)
  have howns : Store.Owns { s with entries := s.entries ++ [entry] } .entries entry.id
      (.list list.id) := ⟨entry, hmem, rfl, by rw [hlid]⟩
  have hadmits := admits_of_prepareValues howns hprepared
  refine (yields_applyValues hadmits).mono ?_
  rintro - t ⟨hut, rows, rfl⟩
  have hst := Relation.ReflTransGen.head hinserted hut
  have ht := hs.changes hst
  obtain ⟨view, hview⟩ := Store.exists_requireEntryView_eq_ok ht.indexed ht.linked
    (l := list) (e := entry) (by simpa using hlmem) (by simp [Store.entriesOf, hlid])
  exact .look hview hst

theorem settles_touchEntry (s : Store) (id : Id) (now : Timestamp) :
    Settles s (touchEntry id now) fun _ t => Changes s t ∧ t.lists = s.lists ∧
      ∀ e ∈ s.entries, ∃ f ∈ t.entries, f.id = e.id ∧ f.listId = e.listId := by
  have hsame : ∀ e : Entry, (if e.id = id then { e with updatedAt := now } else e).id = e.id ∧
      (if e.id = id then { e with updatedAt := now } else e).listId = e.listId ∧
      (if e.id = id then { e with updatedAt := now } else e).recordId = e.recordId := by
    intro e
    split <;> exact ⟨rfl, rfl, rfl⟩
  exact .modify ⟨.single (.mapEntries hsame), rfl,
    fun e he => ⟨_, List.mem_map_of_mem he, (hsame e).1, (hsame e).2.1⟩⟩

theorem settles_updateEntry (hs : s.Sound) (stamp : Stamp) (id : Id)
    (given : List (String × Json)) :
    Settles s (updateEntry stamp id given) fun _ t => Changes s t := by
  refine .look fun e he => .look fun list hlist => .get (.liftM fun prepared hprepared => ?_)
  refine .bind (.transaction (.bind ?_))
  obtain ⟨hmem, rfl⟩ := Store.mem_of_requireEntry he
  obtain ⟨hlmem, hlid⟩ := Store.mem_of_requireList hlist
  have howns : s.Owns .entries e.id (.list list.id) := ⟨e, hmem, rfl, by rw [hlid]⟩
  refine (yields_applyValues (admits_of_prepareValues howns hprepared)).mono ?_
  rintro - u ⟨hsu, rows, rfl⟩
  refine (settles_touchEntry _ e.id stamp.now).yields.mono ?_
  rintro - t ⟨hut, hlists, hkept⟩
  have hst := hsu.trans hut
  have ht := hs.changes hst
  obtain ⟨f, hf, hfid, hflist⟩ := hkept e (by simpa using hmem)
  obtain ⟨view, hview⟩ := Store.exists_requireEntryView_eq_ok ht.indexed ht.linked (l := list)
    (by simpa [hlists] using hlmem) (List.mem_filter.mpr ⟨hf, by simp [hflist, hlid]⟩)
  rw [hfid] at hview
  exact .look hview hst

/-! ### Calls -/

theorem settles_answering {α : Type} {x : Session α} (answer : α → Answer)
    (h : Settles s x fun _ t => Changes s t) :
    Settles s (answering answer x) fun _ t => Changes s t :=
  .bind (h.mono fun _ _ hst => .pure hst)

theorem settles_silently {x : Session Unit} {P : Store → Prop} (h : Settles s x fun _ t => P t) :
    Settles s (silently x) fun _ t => P t :=
  .bind (h.mono fun _ _ ht => .pure ht)

theorem settles_tell (s : Store) (answer : Store → Answer) :
    Settles s (tell answer) fun _ t => Changes s t := .get (.pure .refl)

theorem settles_lookOnly {α : Type} (s : Store) (answer : α → Answer)
    (f : Store → Except Error α) :
    Settles s (answering answer (look f)) fun _ t => Changes s t :=
  settles_answering answer (.lookOnly fun _ _ => .refl)

/-- A call fails without a trace or makes changes of the known kinds. -/
theorem settles_ofCall (hs : s.Sound) (setup : Setup) (stamp : Stamp) (call : Call) :
    Settles s (ofCall setup stamp call) fun _ t => Changes s t := by
  cases call with
  | objectNamed | object | objects | attributes | anAttribute | record | related | list
  | listNamed | lists | entry => exact settles_tell s _
  | forward | listRecords | listEntries | available => exact settles_lookOnly s _ _
  | createObject new => exact settles_answering _ (settles_createObject s stamp new)
  | updateObject id changes => exact settles_answering _ (settles_updateObject s id changes)
  | deleteObject id => exact settles_silently (settles_deleteObject hs setup id)
  | createAttribute new =>
    exact settles_answering _ (settles_createAttribute hs setup stamp new)
  | updateAttribute id changes =>
    exact settles_answering _ (settles_updateAttribute s id changes)
  | deleteAttribute id => exact settles_silently (settles_deleteAttribute hs setup id)
  | addOption id new => exact settles_answering _ (settles_addOption s stamp id new)
  | addStatus id new => exact settles_answering _ (settles_addStatus s stamp id new)
  | removeOption id => exact settles_silently (settles_removeOption s id)
  | removeStatus id => exact settles_silently (settles_removeStatus s id)
  | createRecord new => exact settles_answering _ (settles_createRecord hs stamp new)
  | updateRecord changes => exact settles_answering _ (settles_updateRecord hs stamp changes)
  | assertRecord assertion =>
    exact settles_answering _ (settles_assertRecord hs stamp assertion)
  | deleteRecord objectId id =>
    exact settles_silently (settles_deleteRecord s setup objectId id)
  | reorder objectId ids => exact settles_silently (settles_reorder s objectId ids)
  | createList new => exact settles_answering _ (settles_createList s stamp new)
  | updateList id changes => exact settles_answering _ (settles_updateList s id changes)
  | deleteList id => exact settles_silently (settles_deleteList hs setup id)
  | addEntry new => exact settles_answering _ (settles_addEntry hs stamp new)
  | removeEntry id => exact settles_silently (settles_removeEntry s id)
  | updateEntry id given _ => exact settles_answering _ (settles_updateEntry hs stamp id given)

end Session

end RecordStore
