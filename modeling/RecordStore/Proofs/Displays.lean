import RecordStore.Proofs.Slots
import RecordStore.Proofs.Views

/-!
# Values under their slugs

Views name values by slug. Main statement: what a record or an entry shows under the slug of an
attribute of its parent is what the attribute now reads in the row that is stored for both.
-/

namespace RecordStore

/-! ### Pairs in key order -/

section

variable {α β : Type}

theorem lookup_eq_none_of_forall_ne {pairs : List (String × β)} {key : String}
    (h : ∀ p ∈ pairs, p.1 ≠ key) : pairs.lookup key = none := by
  refine List.lookup_eq_none_iff.mpr fun p hp => ?_
  simpa using (h p hp).symm

/-- Inserted one after the other into what is there, pairs are found before it. -/
theorem lookup_foldl_insertKey {pairs : List (String × β)}
    (h : pairs.Pairwise fun p q => p.1 ≠ q.1) (done : List (String × β)) (key : String) :
    (pairs.foldl (fun done p => insertKey p.1 p.2 done) done).lookup key =
      (pairs.lookup key).or (done.lookup key) := by
  induction pairs generalizing done with
  | nil => rfl
  | cons p rest ih =>
    obtain ⟨hp, hrest⟩ := List.pairwise_cons.mp h
    rw [List.foldl_cons, ih hrest, List.lookup_cons]
    by_cases hkey : key = p.1
    · subst hkey
      rw [lookup_eq_none_of_forall_ne fun q hq => (hp q hq).symm, lookup_insertKey_self,
        beq_self_eq_true]
      rfl
    · rw [lookup_insertKey_of_ne _ _ hkey, beq_false_of_ne hkey]

theorem lookup_orderKeys {pairs : List (String × β)} (h : pairs.Pairwise fun p q => p.1 ≠ q.1)
    (key : String) : (orderKeys pairs).lookup key = pairs.lookup key := by
  rw [orderKeys, lookup_foldl_insertKey h, List.lookup_nil, Option.or_none]

/-- Of items with keys of their own, each is found under its key, if it has a value. -/
theorem lookup_filterMap_of_pairwise_ne {key : α → String} {items : List α} {item : α}
    (h : items.Pairwise fun a b => key a ≠ key b) (hitem : item ∈ items)
    (value? : α → Option β) :
    (items.filterMap fun a => (value? a).map fun v => (key a, v)).lookup (key item) =
      value? item := by
  induction items with
  | nil => cases hitem
  | cons a rest ih =>
    obtain ⟨ha, hrest⟩ := List.pairwise_cons.mp h
    rcases List.mem_cons.mp hitem with rfl | hitem
    · cases hvalue : value? item with
      | some v => simp [hvalue]
      | none =>
        rw [List.filterMap_cons_none (by rw [hvalue]; rfl)]
        refine lookup_eq_none_of_forall_ne fun p hp => ?_
        obtain ⟨b, hb, hbp⟩ := List.mem_filterMap.mp hp
        obtain ⟨v, -, rfl⟩ := Option.map_eq_some_iff.mp hbp
        exact (ha b hb).symm
    · cases hvalue : value? a with
      | none =>
        rw [List.filterMap_cons_none (by rw [hvalue]; rfl)]
        exact ih hrest hitem
      | some v =>
        rw [List.filterMap_cons_some (by rw [hvalue]; rfl), List.lookup_cons,
          beq_false_of_ne (ha item hitem).symm]
        exact ih hrest hitem

theorem pairwise_filterMap_key {key : α → String} {items : List α}
    (h : items.Pairwise fun a b => key a ≠ key b) (value? : α → Option β) :
    (items.filterMap fun a => (value? a).map fun v => (key a, v)).Pairwise
      fun p q => p.1 ≠ q.1 := by
  refine List.pairwise_filterMap.mpr (h.imp fun {a b} hab p hp q hq => ?_)
  obtain ⟨v, -, rfl⟩ := Option.map_eq_some_iff.mp hp
  obtain ⟨w, -, rfl⟩ := Option.map_eq_some_iff.mp hq
  exact hab

end

theorem toOption_eq_some_iff {ε α : Type} {x : Except ε α} {v : α} :
    x.toOption = some v ↔ x = .ok v := by
  cases x <;> simp [Except.toOption]

namespace Store

variable {s : Store} {a : AttributeHead} {owner : Id}

/-! ### Values of an owner -/

theorem Indexed.slugs_attributesOf (hi : s.Indexed) (parent : Parent) :
    (s.attributesOf parent).Pairwise fun a b => a.slug ≠ b.slug := by
  have hsorted := List.mergeSort_perm (s.attributes.filter fun a => a.parent == parent)
    displayedBefore
  have hfiltered : (s.attributes.filter fun a => a.parent == parent).Pairwise
      fun a b => a.slug ≠ b.slug := by
    refine (hi.attributes.filter _).imp_of_mem fun {a b} ha hb hab heq => hab.2 ⟨?_, heq⟩
    have hap := (List.mem_filter.mp ha).2
    have hbp := (List.mem_filter.mp hb).2
    exact (beq_iff_eq.mp hap).trans (beq_iff_eq.mp hbp).symm
  exact List.pairwise_map.mpr (hsorted.symm.pairwise hfiltered fun h => h.symm)

theorem Indexed.ids_attributesOf (hi : s.Indexed) (parent : Parent) :
    (s.attributesOf parent).Pairwise fun a b => a.id ≠ b.id := by
  have hsorted := List.mergeSort_perm (s.attributes.filter fun a => a.parent == parent)
    displayedBefore
  exact List.pairwise_map.mpr (hsorted.symm.pairwise (hi.attributeIds.filter _) fun h => h.symm)

/-- What an owner shows under a slug is what the attribute of that slug reads. -/
theorem Indexed.lookup_shownValues (hi : s.Indexed) (ha : a ∈ s.attributes)
    (rows : List ValueRow) (owner : Id) :
    (shownValues rows (s.attributesOf a.parent) owner).lookup a.slug =
      (cellOf? rows owner a).bind fun cell => (decodeCell (s.withChoices a) cell).toOption := by
  have hslugs := hi.slugs_attributesOf a.parent
  have hshown : ∀ b : Attribute, ((cellOf? rows owner b.toAttributeHead).bind fun cell =>
      (decodeCell b cell).toOption.map fun v => (b.slug, v)) =
        ((cellOf? rows owner b.toAttributeHead).bind fun cell =>
          (decodeCell b cell).toOption).map fun v => (b.slug, v) := by
    intro b
    cases cellOf? rows owner b.toAttributeHead <;> rfl
  simp only [shownValues, hshown]
  rw [lookup_orderKeys (pairwise_filterMap_key hslugs _)]
  exact lookup_filterMap_of_pairwise_ne hslugs (mem_attributesOf ha) _

/-! ### Views -/

/-- What the view of a record of an object, or of an entry of a list, shows under a slug. -/
def shown? (s : Store) (parent : Parent) (owner : Id) (slug : String) : Option Value :=
  match parent with
  | .object objectId => (s.recordView? objectId owner).bind fun view => view.values.lookup slug
  | .list listId => ((s.entryViewOf? owner).filter fun view => view.entry.listId == listId).bind
      fun view => view.values.lookup slug

theorem Sound.exists_entryViewOf?_eq_some (h : s.Sound) {e : Entry} (he : e ∈ s.entries) :
    ∃ record, s.entryViewOf? e.id =
      some ⟨e, shownValues s.entryValues (s.attributesOf (.list e.listId)) e.id, record⟩ := by
  obtain ⟨l, hl, r, hr, hlid, hrid, hobject⟩ := h.linked.entries e he
  have hentry : e ∈ s.entriesOf l.id := List.mem_filter.mpr ⟨he, beq_iff_eq.mpr hlid.symm⟩
  refine ⟨s.recordView r, ?_⟩
  rw [entryViewOf?_eq_some h.indexed hl hentry hr hrid hobject, entryView, hlid]

theorem owns_of_shown? (h : s.Sound) {parent : Parent} {slug : String} {v : Value}
    (hv : s.shown? parent owner slug = some v) : s.Owns parent.valueTable owner parent := by
  cases parent with
  | object objectId =>
    obtain ⟨view, hview, -⟩ := Option.bind_eq_some_iff.mp hv
    obtain ⟨r, hr, -⟩ := Option.map_eq_some_iff.mp hview
    obtain ⟨hfind, hobject⟩ := Option.filter_eq_some_iff.mp hr
    obtain ⟨hmem, hid⟩ := mem_of_find?_key hfind
    exact ⟨r, hmem, hid, by rw [beq_iff_eq.mp hobject]⟩
  | list listId =>
    obtain ⟨view, hview, -⟩ := Option.bind_eq_some_iff.mp hv
    obtain ⟨hview, hlist⟩ := Option.filter_eq_some_iff.mp hview
    obtain ⟨e, hfind, -⟩ := Option.bind_eq_some_iff.mp hview
    obtain ⟨hmem, rfl⟩ := mem_of_find?_key hfind
    obtain ⟨record, hown⟩ := h.exists_entryViewOf?_eq_some hmem
    cases hown.symm.trans hview
    exact ⟨e, hmem, rfl, by rw [beq_iff_eq.mp hlist]⟩

/-- A view of an owner that is there shows what its attribute reads. -/
theorem Sound.shown?_eq (h : s.Sound) (ha : a ∈ s.attributes)
    (howns : s.Owns a.parent.valueTable owner a.parent) :
    s.shown? a.parent owner a.slug = (cellOf? (s.values a.parent.valueTable) owner a).bind
      fun cell => (decodeCell (s.withChoices a) cell).toOption := by
  rw [← h.indexed.lookup_shownValues ha]
  cases hparent : a.parent with
  | object objectId =>
    rw [hparent] at howns
    obtain ⟨r, hr, rfl, hobject⟩ := howns
    cases hobject
    rw [shown?, recordView?_eq_some h.indexed hr]
    rfl
  | list listId =>
    rw [hparent] at howns
    obtain ⟨e, he, rfl, hlist⟩ := howns
    cases hlist
    obtain ⟨record, hview⟩ := h.exists_entryViewOf?_eq_some he
    rw [shown?, hview]
    simp [Option.filter, values, Parent.valueTable]

/-- What is shown is what the row of the owner and the attribute holds, if that can be decoded. -/
theorem Reachable.shown?_eq_some_iff (h : s.Reachable) (ha : a ∈ s.attributes) {v : Value} :
    s.shown? a.parent owner a.slug = some v ↔
      ∃ row ∈ s.values a.parent.valueTable, row.isFor owner a.id = true ∧
        decodeCell (s.withChoices a) row.cell.kept = .ok v := by
  have hi := h.sound.indexed
  constructor
  · intro hv
    rw [h.sound.shown?_eq ha (owns_of_shown? h.sound hv)] at hv
    obtain ⟨cell, hcell, hdecoded⟩ := Option.bind_eq_some_iff.mp hv
    obtain ⟨row, hfind, hread⟩ := Option.bind_eq_some_iff.mp hcell
    have hrow := List.mem_of_find?_eq_some hfind
    have hfor : row.isFor owner a.id = true :=
      List.find?_some (p := fun r : ValueRow => r.isFor owner a.id) hfind
    cases hread.symm.trans (h.readsAs hrow ha (ValueRow.isFor_iff.mp hfor).2.symm).read
    exact ⟨row, hrow, hfor, toOption_eq_some_iff.mp hdecoded⟩
  · rintro ⟨row, hrow, hfor, hdecoded⟩
    obtain ⟨rfl, hid⟩ := ValueRow.isFor_iff.mp hfor
    obtain ⟨b, hb, hbid, howns⟩ := h.sound.linked.values _ row hrow
    obtain rfl : b = a := eq_of_pairwise_ne hi.attributeIds hb ha (hbid.trans hid)
    rw [h.sound.shown?_eq ha howns, hi.cellOf?_eq hrow hid.symm, (h.readsAs hrow ha hid.symm).read,
      Option.bind_some, hdecoded]
    rfl

theorem Reachable.isSome_shown?_iff (h : s.Reachable) (ha : a ∈ s.attributes) {row : ValueRow}
    (hrow : row ∈ s.values a.parent.valueTable) (hfor : row.isFor owner a.id = true) :
    (s.shown? a.parent owner a.slug).isSome = true ↔
      ∃ v, decodeCell (s.withChoices a) row.cell.kept = .ok v := by
  rw [Option.isSome_iff_exists]
  refine exists_congr fun v => ?_
  rw [h.shown?_eq_some_iff ha]
  constructor
  · rintro ⟨r, hr, hrfor, hdecoded⟩
    rwa [h.sound.indexed.eq_of_isFor hr hrow hrfor hfor] at hdecoded
  · exact fun hdecoded => ⟨row, hrow, hfor, hdecoded⟩

end Store

end RecordStore
