import RecordStore.Proofs.Changes

/-!
# Links

Rows refer to rows of other tables by id, and no table checks that for another. Whatever a row
refers to is nevertheless there, and of the right kind: an entry's record is of the object that the
entry's list is of, and a value's attribute is one of its owner's own object or list. For each
table there is one lemma on putting other rows in place of those it has; every change comes down to
such replacements.
-/

namespace RecordStore.Store

/-- Whatever a row refers to is there. -/
structure Linked (s : Store) : Prop where
  attributes : ∀ a ∈ s.attributes, s.hasParent a.parent = true
  options : ∀ o ∈ s.options, ∃ a ∈ s.attributes, a.id = o.attributeId
  statuses : ∀ u ∈ s.statuses, ∃ a ∈ s.attributes, a.id = u.attributeId
  records : ∀ r ∈ s.records, ∃ o ∈ s.objects, o.id = r.objectId
  lists : ∀ l ∈ s.lists, ∃ o ∈ s.objects, o.id = l.objectId
  entries : ∀ e ∈ s.entries, ∃ l ∈ s.lists, ∃ r ∈ s.records,
    l.id = e.listId ∧ r.id = e.recordId ∧ r.objectId = l.objectId
  values : ∀ table, ∀ v ∈ s.values table, ∃ a ∈ s.attributes,
    a.id = v.attributeId ∧ s.Owns table v.owner a.parent

theorem hasParent_object_iff {s : Store} {id : Id} :
    s.hasParent (.object id) = true ↔ ∃ o ∈ s.objects, o.id = id := by
  simp [hasParent, object?]

theorem hasParent_list_iff {s : Store} {id : Id} :
    s.hasParent (.list id) = true ↔ ∃ l ∈ s.lists, l.id = id := by
  simp [hasParent, list?]

theorem linked_empty : empty.Linked := by
  refine ⟨?_, ?_, ?_, ?_, ?_, ?_, fun table => ?_⟩
  case refine_7 => cases table <;> simp [values, empty]
  all_goals simp [empty]

/-! ### Tables with other rows -/

namespace Linked

variable {s : Store}

theorem withObjects (h : s.Linked) {objects : List Object}
    (kept : ∀ o ∈ s.objects, (∃ p ∈ objects, p.id = o.id) ∨
      (∀ a ∈ s.attributes, a.parent ≠ .object o.id) ∧ (∀ r ∈ s.records, r.objectId ≠ o.id) ∧
        ∀ l ∈ s.lists, l.objectId ≠ o.id) :
    Linked { s with objects := objects } := by
  refine { h with attributes := fun a ha => ?_, records := fun r hr => ?_, lists := fun l hl => ?_ }
  · have hparent := h.attributes a ha
    cases hp : a.parent with
    | list id =>
      rw [hp] at hparent
      exact hparent
    | object id =>
      rw [hp, hasParent_object_iff] at hparent
      obtain ⟨o, ho, rfl⟩ := hparent
      rcases kept o ho with hkept | ⟨hunused, -, -⟩
      · exact hasParent_object_iff.mpr hkept
      · exact absurd hp (hunused a ha)
  · obtain ⟨o, ho, hid⟩ := h.records r hr
    rcases kept o ho with ⟨p, hp, hpo⟩ | ⟨-, hunused, -⟩
    · exact ⟨p, hp, hpo.trans hid⟩
    · exact absurd hid.symm (hunused r hr)
  · obtain ⟨o, ho, hid⟩ := h.lists l hl
    rcases kept o ho with ⟨p, hp, hpo⟩ | ⟨-, -, hunused⟩
    · exact ⟨p, hp, hpo.trans hid⟩
    · exact absurd hid.symm (hunused l hl)

theorem withAttributes (h : s.Linked) (attributes : List AttributeHead)
    (kept : ∀ a ∈ s.attributes, (∃ b ∈ attributes, b.id = a.id ∧ b.parent = a.parent) ∨
      (∀ o ∈ s.options, o.attributeId ≠ a.id) ∧ (∀ u ∈ s.statuses, u.attributeId ≠ a.id) ∧
        ∀ v ∈ s.values a.parent.valueTable, v.attributeId ≠ a.id)
    (linked : ∀ b ∈ attributes, s.hasParent b.parent = true) :
    Linked { s with attributes := attributes } := by
  refine { h with
    attributes := linked
    options := fun o ho => ?_
    statuses := fun u hu => ?_
    values := fun table v hv => ?_ }
  · obtain ⟨a, ha, hid⟩ := h.options o ho
    rcases kept a ha with ⟨b, hb, hba, -⟩ | ⟨hunused, -, -⟩
    · exact ⟨b, hb, hba.trans hid⟩
    · exact absurd hid.symm (hunused o ho)
  · obtain ⟨a, ha, hid⟩ := h.statuses u hu
    rcases kept a ha with ⟨b, hb, hba, -⟩ | ⟨-, hunused, -⟩
    · exact ⟨b, hb, hba.trans hid⟩
    · exact absurd hid.symm (hunused u hu)
  · have hv' : v ∈ s.values table := by
      cases table <;> exact hv
    obtain ⟨a, ha, hid, howns⟩ := h.values table v hv'
    rcases kept a ha with ⟨b, hb, hba, hparent⟩ | ⟨-, -, hunused⟩
    · refine ⟨b, hb, hba.trans hid, ?_⟩
      rw [hparent]
      cases table <;> exact howns
    · rw [howns.valueTable_eq] at hunused
      exact absurd hid.symm (hunused v hv')

theorem withOptions (h : s.Linked) {options : List SelectOption}
    (linked : ∀ o ∈ options, ∃ a ∈ s.attributes, a.id = o.attributeId) :
    Linked { s with options := options } := { h with options := linked }

theorem withStatuses (h : s.Linked) {statuses : List Status}
    (linked : ∀ u ∈ statuses, ∃ a ∈ s.attributes, a.id = u.attributeId) :
    Linked { s with statuses := statuses } := { h with statuses := linked }

theorem withRecords (h : s.Linked) {records : List Record}
    (kept : ∀ r ∈ s.records, (∃ q ∈ records, q.id = r.id ∧ q.objectId = r.objectId) ∨
      (∀ e ∈ s.entries, e.recordId ≠ r.id) ∧ ∀ v ∈ s.recordValues, v.owner ≠ r.id)
    (linked : ∀ q ∈ records, ∃ o ∈ s.objects, o.id = q.objectId) :
    Linked { s with records := records } := by
  refine { h with
    records := linked
    entries := fun e he => ?_
    values := fun table v hv => ?_ }
  · obtain ⟨l, hl, r, hr, hlist, hrecord, hobject⟩ := h.entries e he
    rcases kept r hr with ⟨q, hq, hqr, hqo⟩ | ⟨hunused, -⟩
    · exact ⟨l, hl, q, hq, hlist, hqr.trans hrecord, hqo.trans hobject⟩
    · exact absurd hrecord.symm (hunused e he)
  · cases table with
    | entries => exact h.values .entries v hv
    | records =>
      obtain ⟨a, ha, hid, r, hr, howner, hparent⟩ := h.values .records v hv
      rcases kept r hr with ⟨q, hq, hqr, hqo⟩ | ⟨-, hunused⟩
      · exact ⟨a, ha, hid, q, hq, hqr.trans howner, by rw [hparent, hqo]⟩
      · exact absurd howner.symm (hunused v hv)

theorem withLists (h : s.Linked) {lists : List RecordList}
    (kept : ∀ l ∈ s.lists, (∃ m ∈ lists, m.id = l.id ∧ m.objectId = l.objectId) ∨
      (∀ a ∈ s.attributes, a.parent ≠ .list l.id) ∧ ∀ e ∈ s.entries, e.listId ≠ l.id)
    (linked : ∀ m ∈ lists, ∃ o ∈ s.objects, o.id = m.objectId) :
    Linked { s with lists := lists } := by
  refine { h with
    attributes := fun a ha => ?_
    lists := linked
    entries := fun e he => ?_ }
  · have hparent := h.attributes a ha
    cases hp : a.parent with
    | object id =>
      rw [hp] at hparent
      exact hparent
    | list id =>
      rw [hp, hasParent_list_iff] at hparent
      obtain ⟨l, hl, rfl⟩ := hparent
      rcases kept l hl with ⟨m, hm, hml, -⟩ | ⟨hunused, -⟩
      · exact hasParent_list_iff.mpr ⟨m, hm, hml⟩
      · exact absurd hp (hunused a ha)
  · obtain ⟨l, hl, r, hr, hlist, hrecord, hobject⟩ := h.entries e he
    rcases kept l hl with ⟨m, hm, hml, hmo⟩ | ⟨-, hunused⟩
    · exact ⟨m, hm, r, hr, hml.trans hlist, hrecord, hobject.trans hmo.symm⟩
    · exact absurd hlist.symm (hunused e he)

theorem withEntries (h : s.Linked) {entries : List Entry}
    (kept : ∀ e ∈ s.entries, (∃ f ∈ entries, f.id = e.id ∧ f.listId = e.listId) ∨
      ∀ v ∈ s.entryValues, v.owner ≠ e.id)
    (linked : ∀ f ∈ entries, ∃ l ∈ s.lists, ∃ r ∈ s.records,
      l.id = f.listId ∧ r.id = f.recordId ∧ r.objectId = l.objectId) :
    Linked { s with entries := entries } := by
  refine { h with
    entries := linked
    values := fun table v hv => ?_ }
  cases table with
  | records => exact h.values .records v hv
  | entries =>
    obtain ⟨a, ha, hid, e, he, howner, hparent⟩ := h.values .entries v hv
    rcases kept e he with ⟨f, hf, hfe, hfl⟩ | hunused
    · exact ⟨a, ha, hid, f, hf, hfe.trans howner, by rw [hparent, hfl]⟩
    · exact absurd howner.symm (hunused v hv)

theorem setValues (h : s.Linked) {table : ValueTable} {rows : List ValueRow}
    (linked : ∀ v ∈ rows, ∃ a ∈ s.attributes,
      a.id = v.attributeId ∧ s.Owns table v.owner a.parent) :
    (s.setValues table rows).Linked := by
  have howns : ∀ {other : ValueTable} {owner : Id} {parent : Parent},
      s.Owns other owner parent → (s.setValues table rows).Owns other owner parent := by
    intro other owner parent hother
    cases table <;> cases other <;> exact hother
  refine ⟨?_, by simpa using h.options, by simpa using h.statuses, by simpa using h.records,
    by simpa using h.lists, by simpa using h.entries, fun other v hv => ?_⟩
  · intro a ha
    rw [attributes_setValues] at ha
    have hparent := h.attributes a ha
    cases hp : a.parent with
    | object id =>
      rw [hp, hasParent_object_iff] at hparent
      simpa [hasParent_object_iff] using hparent
    | list id =>
      rw [hp, hasParent_list_iff] at hparent
      simpa [hasParent_list_iff] using hparent
  · rw [attributes_setValues]
    have hlinked : ∃ a ∈ s.attributes, a.id = v.attributeId ∧ s.Owns other v.owner a.parent := by
      by_cases hother : other = table
      · subst hother
        rw [values_setValues] at hv
        exact linked v hv
      · rw [values_setValues_of_ne s table rows hother] at hv
        exact h.values other v hv
    obtain ⟨a, ha, hid, hown⟩ := hlinked
    exact ⟨a, ha, hid, howns hown⟩

theorem setValues_of_same (h : s.Linked) {table : ValueTable} {rows : List ValueRow}
    (same : ∀ v ∈ rows, ∃ r ∈ s.values table,
      v.owner = r.owner ∧ v.attributeId = r.attributeId) :
    (s.setValues table rows).Linked := by
  refine h.setValues fun v hv => ?_
  obtain ⟨r, hr, howner, hid⟩ := same v hv
  rw [howner, hid]
  exact h.values table r hr

/-! ### Changes -/

theorem withReplaced (h : s.Linked) (next : AttributeHead) : (s.withReplaced next).Linked := by
  have hsame : ∀ a, (Session.replaced next a).id = a.id ∧
      (Session.replaced next a).parent = a.parent := by
    intro a
    rw [Session.replaced]
    split <;> exact ⟨rfl, rfl⟩
  refine h.withAttributes _ (fun a ha => .inl ⟨_, List.mem_map_of_mem ha, hsame a⟩) fun b hb => ?_
  obtain ⟨a, ha, rfl⟩ := List.mem_map.mp hb
  rw [(hsame a).2]
  exact h.attributes a ha

theorem withoutAttributes (h : s.Linked) {table : ValueTable} {ids : List Id}
    (parents : ∀ a ∈ s.attributes, a.id ∈ ids → a.parent.valueTable = table) :
    (s.withoutAttributes table ids).Linked := by
  have hchoices : Linked { s with
      options := s.options.filter fun o => !ids.contains o.attributeId
      statuses := s.statuses.filter fun u => !ids.contains u.attributeId } :=
    (h.withOptions fun o ho => h.options o (List.mem_filter.mp ho).1).withStatuses
      fun u hu => h.statuses u (List.mem_filter.mp hu).1
  have hvalues : (Store.setValues _ table
      ((s.values table).filter fun r => !ids.contains r.attributeId)).Linked :=
    hchoices.setValues_of_same fun v hv =>
      ⟨v, by cases table <;> exact (List.mem_filter.mp hv).1, rfl, rfl⟩
  have hattributes := hvalues.withAttributes (s.attributes.filter fun a => !ids.contains a.id) ?_ ?_
  · cases table <;> exact hattributes
  · intro a ha
    rw [attributes_setValues] at ha
    by_cases hid : a.id ∈ ids
    · rw [parents a ha hid, values_setValues, options_setValues, statuses_setValues]
      refine .inr ⟨fun o ho heq => ?_, fun u hu heq => ?_, fun v hv heq => ?_⟩
      · simpa [heq, hid] using (List.mem_filter.mp ho).2
      · simpa [heq, hid] using (List.mem_filter.mp hu).2
      · simpa [heq, hid] using (List.mem_filter.mp hv).2
    · exact .inl ⟨a, List.mem_filter.mpr ⟨ha, by simpa using hid⟩, rfl, rfl⟩
  · exact fun b hb => hvalues.attributes b (by
      rw [attributes_setValues]
      exact (List.mem_filter.mp hb).1)

theorem detachChoice {t : Store} (h : s.Linked) {a : Attribute} {choice : Id}
    (run : (Session.detachChoice a choice).run s = .ok () t) : t.Linked := by
  obtain ⟨⟨rows, rfl⟩, hrows⟩ := Session.yields_detachChoice s a choice run
  rw [values_setValues] at hrows
  refine h.setValues_of_same fun v hv => ?_
  obtain ⟨r, hr, hdetached⟩ := hrows v hv
  exact ⟨r, hr, hdetached.owner_eq, hdetached.attributeId_eq⟩

theorem change {t : Store} (hchange : Change s t) (hi : s.Indexed) (h : s.Linked) :
    t.Linked := by
  cases hchange with
  | insertObject => exact h.withObjects fun o ho => .inl ⟨o, List.mem_append_left _ ho, rfl⟩
  | mapObjects same =>
    exact h.withObjects fun o ho => .inl ⟨_, List.mem_map_of_mem ho, (same o).1⟩
  | deleteObjects p unused =>
    refine h.withObjects fun o ho => ?_
    cases hp : p o with
    | false => exact .inr (unused o ho hp)
    | true => exact .inl ⟨o, List.mem_filter.mpr ⟨ho, hp⟩, rfl⟩
  | @insertAttribute a parent =>
    refine h.withAttributes _ (fun b hb => .inl ⟨b, List.mem_append_left _ hb, rfl, rfl⟩)
      fun b hb => ?_
    rcases List.mem_append.mp hb with hb | hb
    · exact h.attributes b hb
    · rw [List.mem_singleton.mp hb]
      exact parent
  | replaceAttribute _ _ run =>
    -- neither ids nor parents change, whether or not the values get new keys
    obtain ⟨-, -, ht⟩ := Session.yields_replaceAttribute hi _ _ run
    split at ht
    · rw [ht]
      exact h.withReplaced _
    · rw [ht.1]
      refine (h.withReplaced _).setValues_of_same fun v hv => ?_
      rw [values_withReplaced]
      obtain ⟨r, hr, rfl⟩ := List.mem_map.mp hv
      exact ⟨r, hr, by simp⟩
  | deleteAttributes parents => exact h.withoutAttributes parents
  | insertOption used =>
    refine h.withOptions fun o ho => ?_
    rcases List.mem_append.mp ho with ho | ho
    · exact h.options o ho
    · rw [List.mem_singleton.mp ho]
      exact used
  | removeOption _ _ _ _ run =>
    exact (h.withOptions fun o ho => h.options o (List.mem_filter.mp ho).1).detachChoice run
  | insertStatus used =>
    refine h.withStatuses fun u hu => ?_
    rcases List.mem_append.mp hu with hu | hu
    · exact h.statuses u hu
    · rw [List.mem_singleton.mp hu]
      exact used
  | removeStatus _ _ _ _ run =>
    exact (h.withStatuses fun u hu => h.statuses u (List.mem_filter.mp hu).1).detachChoice run
  | insertRecord object =>
    refine h.withRecords (fun r hr => .inl ⟨r, List.mem_append_left _ hr, rfl, rfl⟩) fun q hq => ?_
    rcases List.mem_append.mp hq with hq | hq
    · exact h.records q hq
    · rw [List.mem_singleton.mp hq]
      exact object
  | mapRecords same =>
    refine h.withRecords (fun r hr => .inl ⟨_, List.mem_map_of_mem hr, same r⟩) fun q hq => ?_
    obtain ⟨r, hr, rfl⟩ := List.mem_map.mp hq
    rw [(same r).2]
    exact h.records r hr
  | deleteRecords p unused =>
    refine h.withRecords (fun r hr => ?_) fun q hq => h.records q (List.mem_filter.mp hq).1
    cases hp : p r with
    | false => exact .inr (unused r hr hp)
    | true => exact .inl ⟨r, List.mem_filter.mpr ⟨hr, hp⟩, rfl, rfl⟩
  | insertList object =>
    refine h.withLists (fun l hl => .inl ⟨l, List.mem_append_left _ hl, rfl, rfl⟩) fun m hm => ?_
    rcases List.mem_append.mp hm with hm | hm
    · exact h.lists m hm
    · rw [List.mem_singleton.mp hm]
      exact object
  | mapLists same =>
    refine h.withLists (fun l hl => .inl ⟨_, List.mem_map_of_mem hl, (same l).1, (same l).2.1⟩)
      fun m hm => ?_
    obtain ⟨l, hl, rfl⟩ := List.mem_map.mp hm
    rw [(same l).2.1]
    exact h.lists l hl
  | deleteLists p unused =>
    refine h.withLists (fun l hl => ?_) fun m hm => h.lists m (List.mem_filter.mp hm).1
    cases hp : p l with
    | false => exact .inr (unused l hl hp)
    | true => exact .inl ⟨l, List.mem_filter.mpr ⟨hl, hp⟩, rfl, rfl⟩
  | insertEntry list =>
    refine h.withEntries (fun e he => .inl ⟨e, List.mem_append_left _ he, rfl, rfl⟩) fun f hf => ?_
    rcases List.mem_append.mp hf with hf | hf
    · exact h.entries f hf
    · rw [List.mem_singleton.mp hf]
      exact list
  | mapEntries same =>
    refine h.withEntries (fun e he => .inl ⟨_, List.mem_map_of_mem he, (same e).1, (same e).2.1⟩)
      fun f hf => ?_
    obtain ⟨e, he, rfl⟩ := List.mem_map.mp hf
    rw [(same e).2.1, (same e).2.2]
    exact h.entries e he
  | deleteEntries p unused =>
    refine h.withEntries (fun e he => ?_) fun f hf => h.entries f (List.mem_filter.mp hf).1
    cases hp : p e with
    | false => exact .inr (unused e he hp)
    | true => exact .inl ⟨e, List.mem_filter.mpr ⟨he, hp⟩, rfl, rfl⟩
  | storeValue admits =>
    refine h.setValues fun v hv => ?_
    rcases mem_upsertRow.mp hv with rfl | ⟨hv, -⟩
    · obtain ⟨b, hb, rfl⟩ := admits.has
      exact ⟨b, hb, rfl, admits.owns⟩
    · exact h.values _ v hv
  | deleteValues table p =>
    exact h.setValues_of_same fun v hv => ⟨v, (List.mem_filter.mp hv).1, rfl, rfl⟩

end Linked

end RecordStore.Store
