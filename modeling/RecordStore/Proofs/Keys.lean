import RecordStore.Proofs.Runs

/-!
# Unique keys

The key that stands beside a value repeats what the value says already, and every path that writes
one has to keep it in step: storing, rekeying, taking a choice out of a set, and changing an
attribute that has values. The invariant says of each row that it lies in the slot of its attribute
and has a key just if the attribute is unique. The key is that of the cell as it was written or as
it is read back; the two differ only where the stored form does not read back as written.
-/

namespace RecordStore

/-! ### Rows that fit -/

/-- A row is as its attribute has it. -/
structure ValueRow.Fits (row : ValueRow) (a : AttributeHead) : Prop where
  slot : row.cell.slot = a.slot
  keyed : a.isUnique = true → ∃ key, row.uniqueKey = some key ∧ key.length ≤ 255 ∧
    (key = row.cell.canonicalKey ∨ key = row.cell.kept.canonicalKey)
  unkeyed : a.isUnique = false → row.uniqueKey = none

/-- All rows are as their attributes have them. -/
def Store.Fitting (s : Store) : Prop :=
  ∀ table, ∀ row ∈ s.values table, ∀ a ∈ s.attributes, a.id = row.attributeId → row.Fits a

theorem Cell.slot_kept (c : Cell) : c.kept.slot = c.slot := by cases c <;> rfl

namespace ValueRow

variable {row : ValueRow} {a b : AttributeHead}

theorem Fits.congr (h : row.Fits a) (hslot : a.slot = b.slot)
    (hunique : a.isUnique = b.isUnique) : row.Fits b :=
  ⟨h.slot.trans hslot, fun hb => h.keyed (hunique.trans hb),
    fun hb => h.unkeyed (hunique.trans hb)⟩

theorem read?_eq_some (h : row.cell.slot = a.slot) : row.read? a = some row.cell.kept :=
  if_pos h

theorem fits_of_storedKeyOf {a : Attribute} {cell : Cell} {key : Option String}
    {owner attributeId : Id} (hslot : cell.slot = a.slot) (h : storedKeyOf a cell = .ok key) :
    Fits ⟨owner, attributeId, cell, key⟩ a.toAttributeHead := by
  rw [storedKeyOf] at h
  split at h
  · rename_i hunique
    obtain ⟨k, hk, rfl⟩ := map_eq_ok_iff.mp h
    obtain ⟨hshort, rfl⟩ := uniqueKeyOf_eq_ok.mp hk
    exact ⟨hslot, fun _ => ⟨_, rfl, hshort, .inl rfl⟩, fun hplain => by simp [hunique] at hplain⟩
  · rename_i hplain
    cases h
    exact ⟨hslot, fun hunique => absurd hunique hplain, fun _ => rfl⟩

theorem fits_rekeyed (hid : row.attributeId = a.id) (hslot : row.cell.slot = a.slot)
    (hshort : a.isUnique = true → row.cell.kept.canonicalKey.length ≤ 255) :
    (row.rekeyed a).Fits a := by
  refine ⟨by simpa using hslot, fun hunique => ?_, fun hplain => ?_⟩
  · refine ⟨row.cell.kept.canonicalKey, ?_, hshort hunique, .inr (by simp)⟩
    simp [rekeyed, hid, hunique, read?_eq_some hslot]
  · simp [rekeyed, hid, hplain]

end ValueRow

/-! ### Changes -/

theorem id_of_changedAttribute {s : Store} {current next : AttributeHead}
    {changes : AttributeChanges} (h : s.changedAttribute current changes = .ok next) :
    next.id = current.id := by
  obtain ⟨slug, title, -, -, -, rfl⟩ := Store.changedAttribute_eq_ok h
  rfl

namespace Store.Fitting

variable {s : Store}

theorem of_subset {t : Store} (h : s.Fitting) (hattributes : t.attributes ⊆ s.attributes)
    (hvalues : ∀ table, t.values table ⊆ s.values table) : t.Fitting :=
  fun table row hrow a ha hid => h table row (hvalues table hrow) a (hattributes ha) hid

theorem setValues (h : s.Fitting) {table : ValueTable} {rows : List ValueRow}
    (hrows : ∀ row ∈ rows, ∀ a ∈ s.attributes, a.id = row.attributeId → row.Fits a) :
    (s.setValues table rows).Fitting := by
  intro other row hrow a ha hid
  rw [attributes_setValues] at ha
  by_cases hother : other = table
  · subst hother
    rw [values_setValues] at hrow
    exact hrows row hrow a ha hid
  · rw [values_setValues_of_ne s table rows hother] at hrow
    exact h other row hrow a ha hid

/-- A row that fits an attribute as it is read fits it as it is stored. -/
theorem of_head (hi : s.Indexed) {row : ValueRow} {a : Attribute}
    (head : ∃ b ∈ s.attributes, b.kept = a.toAttributeHead) (hfits : row.Fits a.toAttributeHead)
    {b : AttributeHead} (hb : b ∈ s.attributes) (hid : b.id = a.id) : row.Fits b := by
  obtain ⟨c, hc, hca⟩ := head
  rw [← hca] at hid hfits
  have heq : c = b := eq_of_pairwise_ne hi.attributeIds hc hb hid.symm
  rw [← heq]
  exact hfits.congr rfl rfl

theorem detachChoice {t : Store} (h : s.Fitting) (hi : s.Indexed) {a : Attribute}
    (head : ∃ b ∈ s.attributes, b.kept = a.toAttributeHead) {choice : Id}
    (run : (Session.detachChoice a choice).run s = .ok () t) : t.Fitting := by
  obtain ⟨⟨rows, rfl⟩, hrows⟩ := Session.yields_detachChoice s a choice run
  rw [values_setValues] at hrows
  refine h.setValues fun row hrow b hb hid => ?_
  obtain ⟨r, hr, hdetached⟩ := hrows row hrow
  cases hdetached with
  | kept => exact h _ row hr b hb hid
  | shrunk isSet ofAttribute _ stored =>
    have hslot : ∀ j, (Cell.structured j).slot = a.slot := by
      intro j
      simp [AttributeHead.slot, isSet, Cell.slot]
    exact of_head hi head (ValueRow.fits_of_storedKeyOf (hslot _) stored) hb
      (hid.trans ofAttribute)

/-- An attribute that has a row has it in the table of its parent, and its storage stays. -/
theorem storageChanges_of_row (hi : s.Indexed) (hl : s.Linked) {a next : AttributeHead}
    (ha : a ∈ s.attributes) (hguard : ¬ (storageChanges a.kept next ∧ s.hasValues a.kept))
    {table : ValueTable} {row : ValueRow} (hrow : row ∈ s.values table)
    (hid : a.id = row.attributeId) :
    storageChanges a.kept next = false ∧ table = a.parent.valueTable := by
  obtain ⟨b, hb, hbid, howns⟩ := hl.values table row hrow
  have heq : b = a := eq_of_pairwise_ne hi.attributeIds hb ha (hbid.trans hid.symm)
  subst heq
  have htable := howns.valueTable_eq
  refine ⟨?_, htable.symm⟩
  have hvalues : s.hasValues b.kept = true := by
    rw [hasValues, List.any_eq_true]
    refine ⟨row, ?_, by simp [AttributeHead.kept, hid]⟩
    rw [show b.kept.parent = b.parent from rfl, htable]
    exact hrow
  exact Bool.eq_false_iff.mpr fun hchanges => hguard ⟨hchanges, hvalues⟩

theorem slot_eq_of_row (hi : s.Indexed) (hl : s.Linked) {a next : AttributeHead}
    (ha : a ∈ s.attributes) (hguard : ¬ (storageChanges a.kept next ∧ s.hasValues a.kept))
    {table : ValueTable} {row : ValueRow} (hrow : row ∈ s.values table)
    (hid : a.id = row.attributeId) : a.slot = next.slot :=
  (storageChanges_eq_false_iff.mp (storageChanges_of_row hi hl ha hguard hrow hid).1).1

theorem replaceAttribute {t : Store} (h : s.Fitting) (hi : s.Indexed) (hl : s.Linked)
    {current : Attribute} {next : AttributeHead} {changes : AttributeChanges} (has : s.Has current)
    (changed : s.changedAttribute current.toAttributeHead changes = .ok next)
    (run : (Session.replaceAttribute current { current with toAttributeHead := next }).run s =
      .ok () t) : t.Fitting := by
  obtain ⟨a, ha, rfl⟩ := has
  have hnext : next.id = (s.withChoices a).id := id_of_changedAttribute changed
  rw [id_withChoices] at hnext
  obtain ⟨hguard, -, ht⟩ := Session.yields_replaceAttribute hi _ _ run
  split at ht
  · -- keys were left alone, and they fit still: neither slot nor uniqueness has changed
    rename_i hunique
    rw [ht]
    intro table row hrow b hb hid
    rw [values_withReplaced] at hrow
    rcases mem_attributes_withReplaced hb with ⟨hb, -⟩ | ⟨hbid, -, hbslot, hbunique⟩
    · exact h table row hrow b hb hid
    · have hrowid : a.id = row.attributeId := by rw [← hid, hbid, hnext]
      have hslot := slot_eq_of_row hi hl ha hguard hrow hrowid
      exact (h table row hrow a ha hrowid).congr (hslot.trans hbslot.symm)
        ((Eq.symm hunique).trans hbunique.symm)
  · -- each row of the attribute has got the key that the changed attribute gives it
    obtain ⟨rfl, hshort⟩ := ht
    intro table row hrow b hb hid
    rw [attributes_setValues] at hb
    simp only [parent_withChoices] at hrow hshort
    by_cases htable : table = a.parent.valueTable
    · subst htable
      rw [values_setValues] at hrow
      obtain ⟨r, hr, rfl⟩ := List.mem_map.mp hrow
      rw [ValueRow.attributeId_rekeyed] at hid
      rcases mem_attributes_withReplaced hb with ⟨hb, hne⟩ | ⟨hbid, -, hbslot, hbunique⟩
      · rw [r.rekeyed_of_ne next (hid ▸ hne)]
        exact h _ r hr b hb hid
      · have hrid : a.id = r.attributeId := by rw [← hid, hbid, hnext]
        have hslot := slot_eq_of_row hi hl ha hguard hr hrid
        have hrslot : r.cell.slot = next.slot := (h _ r hr a ha hrid).slot.trans hslot
        refine (ValueRow.fits_rekeyed (hid.symm.trans hbid) hrslot ?_).congr hbslot.symm
          hbunique.symm
        exact fun hunique => hshort hunique r hr (hid.symm.trans hbid) _
          (ValueRow.read?_eq_some hrslot)
    · rw [values_setValues_of_ne _ _ _ htable, values_withReplaced] at hrow
      rcases mem_attributes_withReplaced hb with ⟨hb, -⟩ | ⟨hbid, -, -, -⟩
      · exact h table row hrow b hb hid
      · have hrowid : a.id = row.attributeId := by rw [← hid, hbid, hnext]
        exact absurd (storageChanges_of_row hi hl ha hguard hrow hrowid).2 htable

theorem change {t : Store} (hchange : Change s t) (hi : s.Indexed) (hl : s.Linked)
    (h : s.Fitting) : t.Fitting := by
  have hsame : ∀ {t : Store}, t.attributes = s.attributes →
      (∀ table, t.values table = s.values table) → t.Fitting := by
    intro t hattributes hvalues
    exact h.of_subset (by rw [hattributes]; exact List.Subset.refl _)
      fun table => by rw [hvalues]; exact List.Subset.refl _
  cases hchange with
  | insertObject | mapObjects | deleteObjects | insertOption | insertStatus | insertRecord
  | mapRecords | deleteRecords | insertList | mapLists | deleteLists | insertEntry | mapEntries
  | deleteEntries => exact hsame rfl fun table => by cases table <;> rfl
  | @insertAttribute a _ apart =>
    intro table row hrow b hb hid
    have hrow' : row ∈ s.values table := by cases table <;> exact hrow
    rcases List.mem_append.mp hb with hb | hb
    · exact h table row hrow' b hb hid
    · obtain ⟨c, hc, hcid, -⟩ := hl.values table row hrow'
      rw [List.mem_singleton.mp hb] at hid
      exact absurd (hcid.trans hid.symm) (apart c hc).1
  | replaceAttribute has changed run => exact h.replaceAttribute hi hl has changed run
  | @deleteAttributes table ids =>
    exact h.of_subset (by simp) (s.values_withoutAttributes_subset table ids)
  | @removeOption o _ _ _ has _ _ run =>
    have hless : Fitting { s with options := s.options.filter fun p => p.id != o.id } :=
      hsame rfl fun table => by cases table <;> rfl
    exact hless.detachChoice { hi with options := hi.options.filter _ } has.head run
  | @removeStatus u _ _ _ has _ _ run =>
    have hless : Fitting { s with statuses := s.statuses.filter fun v => v.id != u.id } :=
      hsame rfl fun table => by cases table <;> rfl
    exact hless.detachChoice { hi with statuses := hi.statuses.filter _ } has.head run
  | storeValue admits stored =>
    refine h.setValues fun row hrow b hb hid => ?_
    rcases mem_upsertRow.mp hrow with rfl | ⟨hrow, -⟩
    · obtain ⟨raw, hraw⟩ := admits.encoded
      exact of_head hi admits.has.head
        (ValueRow.fits_of_storedKeyOf (slot_of_encodeValue hraw) stored) hb hid
    · exact h _ row hrow b hb hid
  | deleteValues table p =>
    exact h.setValues fun row hrow => h table row (List.mem_filter.mp hrow).1

end Store.Fitting

namespace Store

variable {s : Store}

theorem fitting_empty : empty.Fitting := by
  intro table row hrow
  cases table <;> cases hrow

theorem Reachable.fitting (h : s.Reachable) : s.Fitting :=
  sound_empty.invariant (fun _ _ hchange hs hfit => hfit.change hchange hs.indexed hs.linked)
    h.changes fitting_empty

/-! ### Keys in step -/

/-- Keys are in step with values: a row of a unique attribute has the key of the cell that the
attribute reads there, any other row has none, and no two owners have values of one key for a
unique attribute. -/
structure KeyedUniquely (s : Store) : Prop where
  keyed : ∀ table, ∀ row ∈ s.values table, ∀ a ∈ s.attributes, a.id = row.attributeId →
    a.isUnique = true → ∃ cell, row.read? a = some cell ∧
      row.uniqueKey = some cell.canonicalKey ∧ cell.canonicalKey.length ≤ 255
  unkeyed : ∀ table, ∀ row ∈ s.values table, ∀ a ∈ s.attributes, a.id = row.attributeId →
    a.isUnique = false → row.uniqueKey = none
  apart : ∀ table, ∀ row ∈ s.values table, ∀ other ∈ s.values table, ∀ a ∈ s.attributes,
    a.id = row.attributeId → a.id = other.attributeId → a.isUnique = true →
      ∀ cell cell', row.read? a = some cell → other.read? a = some cell' →
        cell.canonicalKey = cell'.canonicalKey → row.owner = other.owner

/-- Of two owners with one key for an attribute there is but one. -/
theorem Indexed.owner_eq (h : s.Indexed) {table : ValueTable} {row other : ValueRow}
    (hrow : row ∈ s.values table) (hother : other ∈ s.values table)
    (hid : row.attributeId = other.attributeId) {key : String} (hkey : row.uniqueKey = some key)
    (hkey' : other.uniqueKey = some key) : row.owner = other.owner := by
  by_contra howner
  have hne : row ≠ other := fun heq => howner (congrArg ValueRow.owner heq)
  have hapart : row.Apart other :=
    (h.values table).forall hrow hother hne
  have hnone := (hapart hid).2 (hkey.trans hkey'.symm)
  rw [hkey] at hnone
  cases hnone

/-- Uniqueness: after any calls, if stored values read back as they were written, keys are in step
with values. -/
theorem keyedUniquely_of_reachable (h : s.Reachable)
    (hkept : ∀ table, ∀ row ∈ s.values table, row.cell.kept = row.cell) : s.KeyedUniquely := by
  have hkeyed : ∀ table, ∀ row ∈ s.values table, ∀ a ∈ s.attributes, a.id = row.attributeId →
      a.isUnique = true → row.read? a = some row.cell ∧
        row.uniqueKey = some row.cell.canonicalKey ∧ row.cell.canonicalKey.length ≤ 255 := by
    intro table row hrow a ha hid hunique
    have hfits := h.fitting table row hrow a ha hid
    have hread := ValueRow.read?_eq_some hfits.slot
    obtain ⟨key, hkey, hshort, hcell⟩ := hfits.keyed hunique
    rw [hkept table row hrow, or_self] at hcell
    subst hcell
    rw [hkept table row hrow] at hread
    exact ⟨hread, hkey, hshort⟩
  refine ⟨fun table row hrow a ha hid hunique => ?_, fun table row hrow a ha hid => ?_, ?_⟩
  · exact ⟨row.cell, hkeyed table row hrow a ha hid hunique⟩
  · exact (h.fitting table row hrow a ha hid).unkeyed
  · intro table row hrow other hother a ha hid hid' hunique cell cell' hcell hcell' hkeys
    obtain ⟨hread, hkey, -⟩ := hkeyed table row hrow a ha hid hunique
    obtain ⟨hread', hkey', -⟩ := hkeyed table other hother a ha hid' hunique
    rw [hread, Option.some.injEq] at hcell
    rw [hread', Option.some.injEq] at hcell'
    subst hcell hcell'
    exact h.sound.indexed.owner_eq hrow hother (hid.symm.trans hid') hkey (hkeys ▸ hkey')

/-- Two deals with different values of a unique attribute have different keys. -/
theorem keyedUniquely_example : exampleStore.KeyedUniquely := by
  refine keyedUniquely_of_reachable reachable_exampleStore fun table row hrow => ?_
  cases table with
  | records => rcases List.mem_pair.mp hrow with rfl | rfl <;> rfl
  | entries => cases hrow

end Store

end RecordStore
