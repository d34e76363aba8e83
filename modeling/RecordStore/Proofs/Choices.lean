import RecordStore.Proofs.IdSets

/-!
# References to choices

A value of a select or a status attribute refers to choices of that attribute for as long as it is
stored, by itself or as a set. What breaks this is not looked for when values are read: storing
checks the choices, the removal of a choice takes it out of the values, and no attribute that has
values becomes one with choices.
-/

namespace RecordStore.Store

/-- An attribute offers an id as one of its choices, if it is of a type that has choices. -/
def Offers (s : Store) (a : AttributeHead) (id : Id) : Prop :=
  match a.type with
  | .select => ∃ o ∈ s.options, o.attributeId = a.id ∧ o.id = id
  | .status => ∃ u ∈ s.statuses, u.attributeId = a.id ∧ u.id = id
  | _ => True

/-- Every id that is stored for an attribute is one of those it offers. -/
def Offered (s : Store) : Prop :=
  ∀ table, ∀ row ∈ s.values table, ∀ a ∈ s.attributes, a.id = row.attributeId →
    ∀ id, row.cell.Holds id → s.Offers a id

variable {s t : Store}

namespace Offers

variable {a b : AttributeHead} {id : Id}

theorem mono (h : s.Offers a id)
    (options : ∀ o ∈ s.options, o.attributeId = a.id → o.id = id → o ∈ t.options)
    (statuses : ∀ u ∈ s.statuses, u.attributeId = a.id → u.id = id → u ∈ t.statuses) :
    t.Offers a id := by
  unfold Offers at h ⊢
  split at h
  · obtain ⟨o, ho, hattribute, hid⟩ := h
    exact ⟨o, options o ho hattribute hid, hattribute, hid⟩
  · obtain ⟨u, hu, hattribute, hid⟩ := h
    exact ⟨u, statuses u hu hattribute hid, hattribute, hid⟩
  · trivial

theorem of_eq (h : s.Offers a id) (options : t.options = s.options)
    (statuses : t.statuses = s.statuses) : t.Offers a id :=
  h.mono (fun _ ho _ _ => options ▸ ho) fun _ hu _ _ => statuses ▸ hu

theorem congr (h : s.Offers a id) (hid : a.id = b.id) (htype : a.type = b.type) :
    s.Offers b id := by
  rw [Offers, ← hid, ← htype]
  exact h

theorem of_hasOwnContent_eq_false (h : hasOwnContent a.type = false) : s.Offers a id := by
  rw [Offers]
  cases htype : a.type <;> first | trivial | simp [htype, hasOwnContent] at h

theorem of_slot_ne (h : a.type.slot ≠ .reference) : s.Offers a id := by
  rw [Offers]
  cases htype : a.type <;> first | trivial | exact absurd (by rw [htype]; rfl) h

theorem withoutOption (h : s.Offers a id) (hi : s.Indexed) {o : SelectOption}
    (found : o ∈ s.options) (hother : a.id = o.attributeId → id ≠ o.id) :
    Offers { s with options := s.options.filter fun p => p.id != o.id } a id := by
  refine h.mono (fun p hp hattribute hpid => ?_) fun _ hu _ _ => hu
  refine List.mem_filter.mpr ⟨hp, bne_iff_ne.mpr fun heq => ?_⟩
  have hpo : p = o := eq_of_pairwise_ne (f := SelectOption.id) hi.options hp found heq
  subst hpo
  exact hother hattribute.symm hpid.symm

theorem withoutStatus (h : s.Offers a id) (hi : s.Indexed) {u : Status}
    (found : u ∈ s.statuses) (hother : a.id = u.attributeId → id ≠ u.id) :
    Offers { s with statuses := s.statuses.filter fun v => v.id != u.id } a id := by
  refine h.mono (fun _ ho _ _ => ho) fun v hv hattribute hvid => ?_
  refine List.mem_filter.mpr ⟨hv, bne_iff_ne.mpr fun heq => ?_⟩
  have hvu : v = u := eq_of_pairwise_ne (f := Status.id) hi.statuses hv found heq
  subst hvu
  exact hother hattribute.symm hvid.symm

end Offers

theorem offers_of_encodeSingle {b : AttributeHead} {raw : Json} {id : Id}
    (hsingle : encodeSingle (s.withChoices b) raw = .ok (some (.reference id))) :
    s.Offers b id := by
  rw [Offers]
  split
  · rename_i htype
    obtain ⟨r, hr, hoption⟩ := hasOption_of_encodeSingle hsingle htype
    cases hr
    obtain ⟨o, ho, hid⟩ := List.any_eq_true.mp hoption
    simp only [withChoices, htype, if_true, List.mem_mergeSort, List.mem_filter,
      beq_iff_eq] at ho hid
    exact ⟨o, ho.1, ho.2, hid⟩
  · rename_i htype
    obtain ⟨r, hr, hstatus⟩ := hasStatus_of_encodeSingle hsingle htype
    cases hr
    obtain ⟨u, hu, hid⟩ := List.any_eq_true.mp hstatus
    simp only [withChoices, htype, if_true, List.mem_mergeSort, List.mem_filter,
      beq_iff_eq] at hu hid
    exact ⟨u, hu.1, hu.2, hid⟩
  · trivial

/-- What is accepted for an attribute holds choices of it only. -/
theorem offers_of_encodeValue {b : AttributeHead} {raw : Json} {cell : Cell} {id : Id}
    (h : encodeValue (s.withChoices b) raw = .ok (some cell)) (hid : cell.Holds id) :
    s.Offers b id := by
  by_cases hslot : b.type.slot = .reference
  · rcases (encodeValue_cases h).2 with ⟨-, items, m, rest, hmembers, rfl⟩ | ⟨-, h⟩
    · have hoffers : ∀ i, choiceMember i ∈ m :: rest → s.Offers b i := by
        intro i hi
        obtain ⟨item, -, hmade⟩ := exists_item_of_collectMembers hmembers hi
        obtain ⟨made, hsingle, hi⟩ := exists_id_of_encodeMember hslot hmade
        rw [choiceMember_injective hi]
        exact offers_of_encodeSingle hsingle
      cases hid with
      | member mem => exact hoffers id mem
    · cases hid with
      | single => exact offers_of_encodeSingle h
      | member =>
        have hstructured := slot_of_encodeSingle h
        cases hstructured.trans hslot
  · exact .of_slot_ne hslot

/-- What is left in a row after the removal of a choice was there before, and is not the choice. -/
theorem holds_of_detached {a : Attribute} {b : AttributeHead} {choice id : Id} {r row : ValueRow}
    (h : r.Detached a choice row) (hids : OfIds b r.cell)
    (hset : r.attributeId = a.id → a.isSet = b.isSet) (hholds : row.cell.Holds id) :
    r.cell.Holds id ∧ (r.attributeId = a.id → id ≠ choice) := by
  cases h with
  | kept single set =>
    refine ⟨hholds, fun hra hchoice => ?_⟩
    subst hchoice
    rcases hids with ⟨hsingle, i, hcell⟩ | ⟨hisSet, ids, -, -, hcell⟩
    · rw [hcell] at hholds
      cases hholds
      have hrefers := single ((hset hra).trans hsingle) hra
      simp [hcell, Cell.refersTo] at hrefers
    · rw [hcell, holds_idSet] at hholds
      have hisSet' := (hset hra).trans hisSet
      exact set hisSet' hra _ (r.members?_of_idSet hisSet' hcell) (List.mem_map_of_mem hholds)
  | @shrunk members _ isSet ofAttribute read =>
    rcases hids with ⟨hsingle, -, -⟩ | ⟨-, ids, -, -, hcell⟩
    · rw [hset ofAttribute, hsingle] at isSet
      cases isSet
    · rw [ValueRow.members?_of_idSet isSet hcell, Option.some.injEq] at read
      cases hholds with
      | member mem =>
        obtain ⟨mem, hother⟩ := List.mem_filter.mp mem
        rw [← read] at mem
        refine ⟨by rw [hcell]; exact .member mem, fun _ hchoice => ?_⟩
        simp [hchoice, same_choiceMember.mpr rfl] at hother

namespace Offered

theorem of_subset (h : s.Offered) (hattributes : t.attributes ⊆ s.attributes)
    (hvalues : ∀ table, t.values table ⊆ s.values table)
    (hoffers : ∀ a ∈ t.attributes, ∀ id, s.Offers a id → t.Offers a id) : t.Offered :=
  fun table row hrow a ha hid id hcell =>
    hoffers a ha id (h table row (hvalues table hrow) a (hattributes ha) hid id hcell)

theorem setValues (h : s.Offered) {table : ValueTable} {rows : List ValueRow}
    (hrows : ∀ row ∈ rows, ∀ a ∈ s.attributes, a.id = row.attributeId →
      ∀ id, row.cell.Holds id → s.Offers a id) : (s.setValues table rows).Offered := by
  intro other row hrow a ha hid id hcell
  rw [attributes_setValues] at ha
  suffices hoffers : s.Offers a id from hoffers.of_eq (by simp) (by simp)
  by_cases hother : other = table
  · subst hother
    rw [values_setValues] at hrow
    exact hrows row hrow a ha hid id hcell
  · rw [values_setValues_of_ne s table rows hother] at hrow
    exact h other row hrow a ha hid id hcell

/-- After the removal of a choice what is left holds other choices. -/
theorem detachChoice (hi : s.Indexed) (hl : s.Linked) (hf : s.Fitting) (hc : s.AllCells HoldsIds)
    {a : Attribute} (head : ∃ b ∈ s.attributes, b.kept = a.toAttributeHead) {choice : Id}
    (others : ∀ table, ∀ row ∈ s.values table, ∀ b ∈ s.attributes, b.id = row.attributeId →
      ∀ id, row.cell.Holds id → (b.id = a.id → id ≠ choice) → s.Offers b id)
    (run : (Session.detachChoice a choice).run s = .ok () t) : t.Offered := by
  obtain ⟨⟨rows, rfl⟩, hrows⟩ := Session.yields_detachChoice s a choice run
  obtain ⟨c, hcmem, hca⟩ := head
  have hcid : c.id = a.id := congrArg (·.id) hca
  intro table row hrow b hb hid id hholds
  rw [attributes_setValues] at hb
  suffices hoffers : s.Offers b id from hoffers.of_eq (by simp) (by simp)
  have heq : b.id = a.id → b = c := fun hba =>
    eq_of_pairwise_ne hi.attributeIds hb hcmem (hba.trans hcid.symm)
  by_cases hslot : b.type.slot = .reference
  case neg => exact .of_slot_ne hslot
  by_cases htable : table = a.parent.valueTable
  · subst htable
    obtain ⟨r, hr, hdetached⟩ := hrows row hrow
    rw [hdetached.attributeId_eq] at hid
    have hids := (hc _ r hr b hb hid).ofIds hslot (hf _ r hr b hb hid).slot
    have hset : r.attributeId = a.id → a.isSet = b.isSet := fun hra => by
      rw [heq (hid.trans hra)]
      exact (congrArg (·.isSet) hca).symm
    obtain ⟨hheld, hother⟩ := holds_of_detached hdetached hids hset hholds
    exact others _ r hr b hb hid id hheld fun hba => hother (hid.symm.trans hba)
  · rw [values_setValues_of_ne _ _ _ htable] at hrow
    refine others table row hrow b hb hid id hholds fun hba => absurd ?_ htable
    obtain ⟨d, hd, hdid, howns⟩ := hl.values table row hrow
    have hdb : d = b := eq_of_pairwise_ne hi.attributeIds hd hb (hdid.trans hid.symm)
    rw [hdb, heq hba] at howns
    rw [← howns.valueTable_eq, ← hca]
    rfl

theorem replaceAttribute (h : s.Offered) (hi : s.Indexed) (hl : s.Linked) {current : Attribute}
    {next : AttributeHead} {changes : AttributeChanges} (has : s.Has current)
    (changed : s.changedAttribute current.toAttributeHead changes = .ok next)
    (run : (Session.replaceAttribute current { current with toAttributeHead := next }).run s =
      .ok () t) : t.Offered := by
  obtain ⟨a, ha, rfl⟩ := has
  have hnext : next.id = (s.withChoices a).id := id_of_changedAttribute changed
  rw [id_withChoices] at hnext
  have hguard := (Session.yields_replaceAttribute hi _ _ run).1
  obtain ⟨hattributes, hoptions, hstatuses, hvalues⟩ :=
    Session.rows_replaceAttribute hi _ _ run
  intro table v hv b hb hid id hholds
  obtain ⟨row, hrow, -, hrowid, hrowcell⟩ := hvalues table v hv
  rw [hattributes] at hb
  suffices hoffers : s.Offers b id from hoffers.of_eq hoptions hstatuses
  rcases mem_attributes_withReplaced hb with ⟨hb, -⟩ | ⟨hbid, hbtype, -⟩
  · exact h table row hrow b hb (hid.trans hrowid) id (hrowcell ▸ hholds)
  · have harow : a.id = row.attributeId := by rw [← hrowid, ← hid, hbid, hnext]
    have hstays := (Fitting.storageChanges_of_row hi hl ha hguard hrow harow).1
    rcases (storageChanges_eq_false_iff.mp hstays).2 with htype | ⟨-, hplain⟩
    · exact (h table row hrow a ha harow id (hrowcell ▸ hholds)).congr (hnext.symm.trans hbid.symm)
        (htype.trans hbtype.symm)
    · exact .of_hasOwnContent_eq_false (hbtype ▸ hplain)

theorem change (hchange : Change s t) (hi : s.Indexed) (hl : s.Linked) (hf : s.Fitting)
    (hc : s.AllCells HoldsIds) (h : s.Offered) : t.Offered := by
  have hmore : ∀ {t : Store}, t.attributes = s.attributes →
      (∀ table, t.values table = s.values table) → (∀ o ∈ s.options, o ∈ t.options) →
        (∀ u ∈ s.statuses, u ∈ t.statuses) → t.Offered := by
    intro t hattributes hvalues hoptions hstatuses
    refine h.of_subset (by simp [hattributes]) (fun table => by simp [hvalues]) ?_
    exact fun a _ id hoffers =>
      hoffers.mono (fun o ho _ _ => hoptions o ho) fun u hu _ _ => hstatuses u hu
  -- neither which slots there are nor what lies in them depends on the choices that there are
  have hsame : ∀ {u : Store}, u.attributes = s.attributes →
      (∀ table, u.values table = s.values table) → u.Fitting ∧ u.AllCells HoldsIds := by
    intro u hattributes hvalues
    exact ⟨hf.of_subset (by simp [hattributes]) fun table => by simp [hvalues],
      hc.of_subset (by simp [hattributes]) fun table => by simp [hvalues]⟩
  cases hchange with
  | insertObject | mapObjects | deleteObjects | insertRecord | mapRecords | deleteRecords
  | insertList | mapLists | deleteLists | insertEntry | mapEntries | deleteEntries =>
    exact hmore rfl (fun table => by cases table <;> rfl) (fun _ ho => ho) fun _ hu => hu
  | @insertAttribute a _ apart =>
    intro table row hrow b hb hid
    have hrow' : row ∈ s.values table := by cases table <;> exact hrow
    rcases List.mem_append.mp hb with hb | hb
    · exact h table row hrow' b hb hid
    · obtain ⟨c, hc, hcid, -⟩ := hl.values table row hrow'
      rw [List.mem_singleton.mp hb] at hid
      exact absurd (hcid.trans hid.symm) (apart c hc).1
  | replaceAttribute has changed run => exact h.replaceAttribute hi hl has changed run
  | @deleteAttributes table ids =>
    refine h.of_subset (by simp) (s.values_withoutAttributes_subset table ids) ?_
    intro a ha id hoffers
    rw [attributes_withoutAttributes, List.mem_filter] at ha
    refine hoffers.mono (fun o ho hattribute _ => ?_) fun u hu hattribute _ => ?_
    · simpa [withoutAttributes, ho, hattribute] using ha.2
    · simpa [withoutAttributes, hu, hattribute] using ha.2
  | @insertOption o =>
    exact hmore rfl (fun table => by cases table <;> rfl) (fun _ => List.mem_append_left _)
      fun _ hu => hu
  | @insertStatus u =>
    exact hmore rfl (fun table => by cases table <;> rfl) (fun _ ho => ho)
      fun _ => List.mem_append_left _
  | @removeOption o a _ found has ofAttribute _ run =>
    have hi' : Indexed { s with options := s.options.filter fun p => p.id != o.id } :=
      { hi with options := hi.options.filter _ }
    have hl' : Linked { s with options := s.options.filter fun p => p.id != o.id } :=
      hl.withOptions fun p hp => hl.options p (List.mem_filter.mp hp).1
    obtain ⟨hf', hc'⟩ := hsame rfl fun table => by cases table <;> rfl
    refine detachChoice hi' hl' hf' hc' has.head ?_ run
    intro table row hrow b hb hid id hholds hother
    have hrow' : row ∈ s.values table := by cases table <;> exact hrow
    exact (h table row hrow' b hb hid id hholds).withoutOption hi found
      fun hba => hother (hba.trans ofAttribute.symm)
  | @removeStatus u a _ found has ofAttribute _ run =>
    have hi' : Indexed { s with statuses := s.statuses.filter fun v => v.id != u.id } :=
      { hi with statuses := hi.statuses.filter _ }
    have hl' : Linked { s with statuses := s.statuses.filter fun v => v.id != u.id } :=
      hl.withStatuses fun v hv => hl.statuses v (List.mem_filter.mp hv).1
    obtain ⟨hf', hc'⟩ := hsame rfl fun table => by cases table <;> rfl
    refine detachChoice hi' hl' hf' hc' has.head ?_ run
    intro table row hrow b hb hid id hholds hother
    have hrow' : row ∈ s.values table := by cases table <;> exact hrow
    exact (h table row hrow' b hb hid id hholds).withoutStatus hi found
      fun hba => hother (hba.trans ofAttribute.symm)
  | @storeValue table owner a cell key admits stored =>
    refine h.setValues fun row hrow b hb hid id hholds => ?_
    rcases mem_upsertRow.mp hrow with rfl | ⟨hrow, -⟩
    · obtain ⟨c, hc, rfl⟩ := admits.has
      obtain ⟨raw, hraw⟩ := admits.encoded
      have hbc : b = c := eq_of_pairwise_ne hi.attributeIds hb hc hid
      subst hbc
      exact offers_of_encodeValue hraw hholds
    · exact h table row hrow b hb hid id hholds
  | deleteValues table p =>
    exact h.setValues fun row hrow => h table row (List.mem_filter.mp hrow).1

end Offered

theorem offered_empty : empty.Offered := by
  intro table row hrow
  cases table <;> cases hrow

/-- After any calls, what is stored of choices is offered. -/
theorem Reachable.offered (h : s.Reachable) : s.Offered := by
  have hempty : empty.AllCells HoldsIds := by
    intro table row hrow
    cases table <;> cases hrow
  have hall : s.Fitting ∧ s.AllCells HoldsIds ∧ s.Offered := by
    refine sound_empty.invariant (I := fun s => s.Fitting ∧ s.AllCells HoldsIds ∧ s.Offered) ?_
      h.changes ⟨fitting_empty, hempty, offered_empty⟩
    rintro u t hchange hs ⟨hf, hc, ho⟩
    exact ⟨hf.change hchange hs.indexed hs.linked,
      hc.change lasting_holdsIds hchange hs.indexed hs.linked hf,
      ho.change hchange hs.indexed hs.linked hf hc⟩
  exact hall.2.2

end RecordStore.Store
