import RecordStore.Proofs.Keys

/-!
# Rows in their slots

The slot of a row is not stored with it: it follows from what the attribute is now, and attributes
change. What is so of every cell that an attribute makes, and is not lost by a change of attributes
that is let through, is so of every row in every store that calls can lead to. Main statement: each
row lies in the slot that its attribute reads, with a unit just if it is an amount of money, and is
the only one for its owner and attribute.
-/

namespace RecordStore

theorem ValueRow.kept_eq_of_members? {row : ValueRow} {a : AttributeHead} {members : List Json}
    (hslot : row.cell.slot = a.slot) (h : row.members? a = some members) :
    row.cell.kept = .structured (.arr members) := by
  rw [members?, read?_eq_some hslot] at h
  split at h
  · rename_i hcell
    cases h
    exact Option.some.inj hcell
  · cases h

namespace Store

variable {s t : Store} {P : AttributeHead → Cell → Prop}

/-! ### What lasts -/

/-- Something that is so of the cells an attribute makes, and stays so when members are taken out
of a set that has others and when the attribute changes without changing its storage. -/
structure Lasting (P : AttributeHead → Cell → Prop) : Prop where
  encoded : ∀ {a : Attribute} {raw : Json} {cell : Cell},
    encodeValue a raw = .ok (some cell) → P a.toAttributeHead cell
  shrunk : ∀ {a : AttributeHead} {cell : Cell} {members : List Json} (p : Json → Bool),
    a.isSet = true → cell.kept = .structured (.arr members) → members.filter p ≠ [] →
      P a cell → P a (.structured (.arr (members.filter p)))
  retyped : ∀ {a next : AttributeHead} {cell : Cell}, cell.slot = a.slot →
    storageChanges a next = false → P a cell → P next cell

/-- All stored cells are as is said of cells of their attributes. -/
def AllCells (P : AttributeHead → Cell → Prop) (s : Store) : Prop :=
  ∀ table, ∀ row ∈ s.values table, ∀ a ∈ s.attributes, a.id = row.attributeId → P a row.cell

theorem storageChanges_kept (a : AttributeHead) : storageChanges a.kept a = false :=
  storageChanges_eq_false_iff.mpr ⟨rfl, .inl rfl⟩

namespace AllCells

theorem of_subset (h : s.AllCells P) (hattributes : t.attributes ⊆ s.attributes)
    (hvalues : ∀ table, t.values table ⊆ s.values table) : t.AllCells P :=
  fun table row hrow a ha hid => h table row (hvalues table hrow) a (hattributes ha) hid

theorem setValues (h : s.AllCells P) {table : ValueTable} {rows : List ValueRow}
    (hrows : ∀ row ∈ rows, ∀ a ∈ s.attributes, a.id = row.attributeId → P a row.cell) :
    (s.setValues table rows).AllCells P := by
  intro other row hrow a ha hid
  rw [attributes_setValues] at ha
  by_cases hother : other = table
  · subst hother
    rw [values_setValues] at hrow
    exact hrows row hrow a ha hid
  · rw [values_setValues_of_ne s table rows hother] at hrow
    exact h other row hrow a ha hid

/-- What is so under an attribute as it is read is so under it as it is stored. -/
theorem of_head (hP : Lasting P) (hi : s.Indexed) {a : Attribute} {cell : Cell}
    (head : ∃ b ∈ s.attributes, b.kept = a.toAttributeHead) (hslot : cell.slot = a.slot)
    (hcell : P a.toAttributeHead cell) {b : AttributeHead} (hb : b ∈ s.attributes)
    (hid : b.id = a.id) : P b cell := by
  obtain ⟨c, hc, hca⟩ := head
  rw [← hca] at hid hslot hcell
  have heq : b = c := eq_of_pairwise_ne hi.attributeIds hb hc hid
  rw [heq]
  exact hP.retyped hslot (storageChanges_kept c) hcell

theorem detachChoice (hP : Lasting P) (h : s.AllCells P) (hi : s.Indexed) (hf : s.Fitting)
    {a : Attribute} (head : ∃ b ∈ s.attributes, b.kept = a.toAttributeHead) {choice : Id}
    (run : (Session.detachChoice a choice).run s = .ok () t) : t.AllCells P := by
  obtain ⟨⟨rows, rfl⟩, hrows⟩ := Session.yields_detachChoice s a choice run
  rw [values_setValues] at hrows
  refine h.setValues fun row hrow b hb hid => ?_
  obtain ⟨r, hr, hdetached⟩ := hrows row hrow
  cases hdetached with
  | kept => exact h _ row hr b hb hid
  | @shrunk members _ isSet ofAttribute read _ left =>
    obtain ⟨c, hc, hca⟩ := head
    have hba : b = c := by
      refine eq_of_pairwise_ne hi.attributeIds hb hc (hid.trans (ofAttribute.trans ?_))
      exact (congrArg AttributeHead.id hca).symm
    subst hba
    have hset : b.isSet = true := (congrArg AttributeHead.isSet hca).trans isSet
    have hkept : r.cell.kept = .structured (.arr members) := by
      have hslot : r.cell.slot = a.slot := by
        rw [(hf _ r hr b hb hid).slot, ← hca]
        rfl
      exact ValueRow.kept_eq_of_members? hslot read
    exact hP.shrunk _ hset hkept left (h _ r hr b hb hid)

theorem replaceAttribute (hP : Lasting P) (h : s.AllCells P) (hi : s.Indexed) (hl : s.Linked)
    (hf : s.Fitting) {current : Attribute} {next : AttributeHead} {changes : AttributeChanges}
    (has : s.Has current)
    (changed : s.changedAttribute current.toAttributeHead changes = .ok next)
    (run : (Session.replaceAttribute current { current with toAttributeHead := next }).run s =
      .ok () t) : t.AllCells P := by
  obtain ⟨a, ha, rfl⟩ := has
  have hnext : next.id = (s.withChoices a).id := id_of_changedAttribute changed
  rw [id_withChoices] at hnext
  have hguard := (Session.yields_replaceAttribute hi _ _ run).1
  obtain ⟨hattributes, -, -, hvalues⟩ := Session.rows_replaceAttribute hi _ _ run
  intro table row hrow b hb hid
  obtain ⟨r, hr, -, hrid, hrcell⟩ := hvalues table row hrow
  rw [hattributes] at hb
  rw [hrcell]
  rcases mem_attributes_withReplaced hb with ⟨hb, -⟩ | ⟨hbid, hbtype, hbslot, -⟩
  · exact h table r hr b hb (hid.trans hrid)
  · have hra : a.id = r.attributeId := by rw [← hrid, ← hid, hbid, hnext]
    have hstays := (Fitting.storageChanges_of_row hi hl ha hguard hr hra).1
    rw [storageChanges_eq_false_iff] at hstays
    have hstays' : storageChanges a b = false := by
      rw [storageChanges_eq_false_iff, hbslot, hbtype]
      exact hstays
    exact hP.retyped (hf table r hr a ha hra).slot hstays' (h table r hr a ha hra)

theorem change (hP : Lasting P) (hchange : Change s t) (hi : s.Indexed) (hl : s.Linked)
    (hf : s.Fitting) (h : s.AllCells P) : t.AllCells P := by
  have hsame : ∀ {t : Store}, t.attributes = s.attributes →
      (∀ table, t.values table = s.values table) → t.AllCells P := by
    intro t hattributes hvalues
    exact h.of_subset (by rw [hattributes]; exact List.Subset.refl _)
      fun table => by rw [hvalues]; exact List.Subset.refl _
  cases hchange with
  | insertObject | mapObjects | deleteObjects | insertOption | insertStatus | insertRecord
  | mapRecords | deleteRecords | insertList | mapLists | deleteLists | insertEntry | mapEntries
  | deleteEntries => exact hsame rfl fun table => by cases table <;> rfl
  | @insertAttribute a _ apart =>
    intro table row hrow b hb hid
    have hrow' : row ∈ s.values table := by cases table <;> exact hrow
    rcases List.mem_append.mp hb with hb | hb
    · exact h table row hrow' b hb hid
    · obtain ⟨c, hc, hcid, -⟩ := hl.values table row hrow'
      rw [List.mem_singleton.mp hb] at hid
      exact absurd (hcid.trans hid.symm) (apart c hc).1
  | replaceAttribute has changed run => exact h.replaceAttribute hP hi hl hf has changed run
  | @deleteAttributes table ids =>
    exact h.of_subset (by simp) (s.values_withoutAttributes_subset table ids)
  | @removeOption o _ _ _ has _ _ run =>
    have hless : AllCells P { s with options := s.options.filter fun p => p.id != o.id } :=
      hsame rfl fun table => by cases table <;> rfl
    have hfit : Fitting { s with options := s.options.filter fun p => p.id != o.id } :=
      hf.of_subset (List.Subset.refl _) fun table => by cases table <;> exact List.Subset.refl _
    exact hless.detachChoice hP { hi with options := hi.options.filter _ } hfit has.head run
  | @removeStatus u _ _ _ has _ _ run =>
    have hless : AllCells P { s with statuses := s.statuses.filter fun v => v.id != u.id } :=
      hsame rfl fun table => by cases table <;> rfl
    have hfit : Fitting { s with statuses := s.statuses.filter fun v => v.id != u.id } :=
      hf.of_subset (List.Subset.refl _) fun table => by cases table <;> exact List.Subset.refl _
    exact hless.detachChoice hP { hi with statuses := hi.statuses.filter _ } hfit has.head run
  | storeValue admits stored =>
    refine h.setValues fun row hrow b hb hid => ?_
    rcases mem_upsertRow.mp hrow with rfl | ⟨hrow, -⟩
    · obtain ⟨raw, hraw⟩ := admits.encoded
      exact of_head hP hi admits.has.head (slot_of_encodeValue hraw) (hP.encoded hraw) hb hid
    · exact h _ row hrow b hb hid
  | deleteValues table p =>
    exact h.setValues fun row hrow => h table row (List.mem_filter.mp hrow).1

end AllCells

/-- What lasts is so of all rows, whatever calls there were. -/
theorem Reachable.allCells (h : s.Reachable) (hP : Lasting P) : s.AllCells P := by
  have hempty : empty.AllCells P := by
    intro table row hrow
    cases table <;> cases hrow
  have hboth : s.Fitting ∧ s.AllCells P := by
    refine sound_empty.invariant (I := fun s => s.Fitting ∧ s.AllCells P) ?_ h.changes
      ⟨fitting_empty, hempty⟩
    rintro u t hchange hs ⟨hf, hc⟩
    exact ⟨hf.change hchange hs.indexed hs.linked, hc.change hP hchange hs.indexed hs.linked hf⟩
  exact hboth.2

/-! ### Units -/

/-- A number has a unit just if it is an amount of money. -/
def UnitFits (a : AttributeHead) (cell : Cell) : Prop :=
  ∀ value unit, cell = .number value unit → (unit.isSome = true ↔ a.type = .currency)

theorem unitFits_of_slot_ne {a : AttributeHead} {cell : Cell} (h : cell.slot ≠ .number) :
    UnitFits a cell := by
  rintro value unit rfl
  exact absurd rfl h

theorem unitFits_encodeSingle {a : Attribute} {raw : Json} {cell : Cell}
    (h : encodeSingle a raw = .ok (some cell)) : UnitFits a.toAttributeHead cell := by
  cases htype : a.type with
  | currency =>
    simp only [encodeSingle, htype] at h
    obtain ⟨c, hc, h⟩ := map_eq_ok_iff.mp h
    cases h
    obtain ⟨amount, code, unit, -, rfl⟩ := exists_of_encodeCurrency hc
    rintro _ _ ⟨⟩
    simp [htype]
  | number =>
    simp only [encodeSingle, htype] at h
    obtain ⟨d, -, h⟩ := bind_eq_ok_iff.mp h
    cases h
    rintro value unit ⟨⟩
    simp [htype]
  | rating =>
    simp only [encodeSingle, htype] at h
    obtain ⟨c, hc, h⟩ := map_eq_ok_iff.mp h
    cases h
    obtain ⟨rating, rfl, -⟩ := exists_of_encodeRating hc
    rintro _ _ ⟨⟩
    simp [htype]
  | text | phone | email | domain | checkbox | date | timestamp | select | status | personalName
  | location | recordReference | actorReference | interaction =>
    refine unitFits_of_slot_ne ?_
    rw [slot_of_encodeSingle h, htype]
    decide

theorem unitFits_encodeValue {a : Attribute} {raw : Json} {cell : Cell}
    (h : encodeValue a raw = .ok (some cell)) : UnitFits a.toAttributeHead cell := by
  rcases (encodeValue_cases h).2 with ⟨-, items, m, rest, -, rfl⟩ | ⟨-, h⟩
  · exact unitFits_of_slot_ne (by simp [Cell.slot])
  · exact unitFits_encodeSingle h

theorem unitFits_retyped {a next : AttributeHead} {cell : Cell}
    (hstays : storageChanges a next = false) (h : UnitFits a cell) : UnitFits next cell := by
  intro value unit hcell
  rw [h value unit hcell]
  rcases (storageChanges_eq_false_iff.mp hstays).2 with htype | ⟨hown, hnext⟩
  · rw [htype]
  · -- amounts of money have content of their own, so neither type is theirs
    constructor
    · intro htype
      simp [htype, hasOwnContent] at hown
    · intro htype
      simp [htype, hasOwnContent] at hnext

theorem lasting_unitFits : Lasting UnitFits where
  encoded := unitFits_encodeValue
  shrunk _ _ _ _ _ := unitFits_of_slot_ne (by simp [Cell.slot])
  retyped _ hstays h := unitFits_retyped hstays h

theorem UnitFits.kept {a : AttributeHead} {cell : Cell} (h : UnitFits a cell) :
    UnitFits a cell.kept := by
  cases cell with
  | number value unit =>
    rintro _ _ ⟨⟩
    exact h value unit rfl
  | text | boolean | date | structured | reference =>
    exact unitFits_of_slot_ne (by rw [Cell.slot_kept]; simp [Cell.slot])

/-! ### Rows as they are read -/

/-- A row is read as a cell of its attribute: in the attribute's slot, with a unit just if it is an
amount of money. -/
structure ReadsAs (row : ValueRow) (a : AttributeHead) : Prop where
  read : row.read? a = some row.cell.kept
  slot : row.cell.kept.slot = a.slot
  unit : UnitFits a row.cell.kept

/-- Every row lies in the slot its attribute reads. There is one row at most for an owner and an
attribute, loading passes over none, and the test for emptiness tells whether there is one. -/
structure InSlots (s : Store) : Prop where
  named : ∀ table, ∀ row ∈ s.values table, ∃ a ∈ s.attributes, a.id = row.attributeId
  readsAs : ∀ table, ∀ row ∈ s.values table, ∀ a ∈ s.attributes, a.id = row.attributeId →
    ReadsAs row a
  single : ∀ table, (s.values table).Pairwise fun r q =>
    (r.attributeId, r.owner) ≠ (q.attributeId, q.owner)
  loaded : ∀ table attributes, (∀ a ∈ attributes, s.Has a) → ∀ a ∈ attributes,
    ∀ row ∈ s.values table, row.attributeId = a.id →
      cellsOf (s.values table) attributes row.owner a.id = some row.cell.kept
  isEmpty : ∀ table attributes, (∀ a ∈ attributes, s.Has a) → ∀ a ∈ attributes, ∀ owner,
    Test.accepts ⟨a.id, .isEmpty, []⟩ (cellsOf (s.values table) attributes owner a.id) = true ↔
      ∀ row ∈ s.values table, row.isFor owner a.id = false

theorem Has.eq_of_id (hi : s.Indexed) {a b : Attribute} (ha : s.Has a) (hb : s.Has b)
    (hid : a.id = b.id) : a = b := by
  obtain ⟨c, hc, rfl⟩ := ha
  obtain ⟨d, hd, rfl⟩ := hb
  have hcd : c = d := eq_of_pairwise_ne hi.attributeIds hc hd hid
  rw [hcd]

/-- An owner has one row for an attribute. -/
theorem Indexed.eq_of_isFor (h : s.Indexed) {table : ValueTable} {row r : ValueRow}
    (hrow : row ∈ s.values table) (hr : r ∈ s.values table) {owner id : Id}
    (hrowFor : row.isFor owner id = true) (hrFor : r.isFor owner id = true) : row = r := by
  obtain ⟨howner, hid⟩ := ValueRow.isFor_iff.mp hrowFor
  obtain ⟨hrowner, hrid⟩ := ValueRow.isFor_iff.mp hrFor
  refine eq_of_pairwise_ne (h.valueKeys table) hrow hr ?_
  rw [howner, hid, hrowner, hrid]

theorem Indexed.cellOf?_eq (h : s.Indexed) {table : ValueTable} {row : ValueRow}
    (hrow : row ∈ s.values table) {a : AttributeHead} (hid : a.id = row.attributeId) :
    cellOf? (s.values table) row.owner a = row.read? a := by
  have hfor : row.isFor row.owner a.id = true := ValueRow.isFor_iff.mpr ⟨rfl, hid.symm⟩
  have hfind : (s.values table).find? (fun r => r.isFor row.owner a.id) = some row := by
    cases hrows : (s.values table).find? fun r => r.isFor row.owner a.id with
    | none => exact absurd hfor (List.find?_eq_none.mp hrows row hrow)
    | some r =>
      have hrfor : r.isFor row.owner a.id = true :=
        List.find?_some (p := fun q : ValueRow => q.isFor row.owner a.id) hrows
      rw [h.eq_of_isFor (List.mem_of_find?_eq_some hrows) hrow hrfor hfor]
  rw [cellOf?, hfind, Option.bind_some]

theorem cellOf?_eq_none {rows : List ValueRow} {owner : Id} {a : AttributeHead}
    (h : ∀ row ∈ rows, row.isFor owner a.id = false) : cellOf? rows owner a = none := by
  have hfind : rows.find? (fun r => r.isFor owner a.id) = none :=
    List.find?_eq_none.mpr fun row hrow => by simp [h row hrow]
  rw [cellOf?, hfind, Option.bind_none]

/-- Loading reads a value under the attribute whose id is asked for, whatever others there are. -/
theorem cellsOf_eq (hi : s.Indexed) {attributes : List Attribute}
    (hhas : ∀ a ∈ attributes, s.Has a) {a : Attribute} (ha : a ∈ attributes)
    (rows : List ValueRow) (owner : Id) :
    cellsOf rows attributes owner a.id = cellOf? rows owner a.toAttributeHead := by
  have hfind : attributes.find? (fun b => b.id == a.id) = some a := by
    cases hattributes : attributes.find? fun b => b.id == a.id with
    | none => simpa using List.find?_eq_none.mp hattributes a ha
    | some b =>
      obtain ⟨hb, hid⟩ := mem_of_find?_key hattributes
      rw [(hhas b hb).eq_of_id hi (hhas a ha) hid]
  rw [cellsOf, hfind, Option.bind_some]

theorem Reachable.readsAs (h : s.Reachable) {table : ValueTable} {row : ValueRow}
    (hrow : row ∈ s.values table) {a : AttributeHead} (ha : a ∈ s.attributes)
    (hid : a.id = row.attributeId) : ReadsAs row a := by
  have hslot := (h.fitting table row hrow a ha hid).slot
  refine ⟨ValueRow.read?_eq_some hslot, (Cell.slot_kept _).trans hslot, ?_⟩
  exact UnitFits.kept (h.allCells lasting_unitFits table row hrow a ha hid)

/-- A row of an attribute is loaded, as the attribute that has it now reads it. -/
theorem Reachable.cellsOf_of_row (h : s.Reachable) {attributes : List Attribute}
    (hhas : ∀ a ∈ attributes, s.Has a) {a : Attribute} (ha : a ∈ attributes) {table : ValueTable}
    {row : ValueRow} (hrow : row ∈ s.values table) (hid : row.attributeId = a.id) :
    cellsOf (s.values table) attributes row.owner a.id = some row.cell.kept := by
  rw [cellsOf_eq h.sound.indexed hhas ha, h.sound.indexed.cellOf?_eq hrow hid.symm]
  obtain ⟨head, hhead, rfl⟩ := hhas a ha
  exact ValueRow.read?_eq_some (h.fitting table row hrow head hhead hid.symm).slot

theorem Reachable.isEmpty_iff (h : s.Reachable) {attributes : List Attribute}
    (hhas : ∀ a ∈ attributes, s.Has a) {a : Attribute} (ha : a ∈ attributes) (table : ValueTable)
    (owner : Id) :
    Test.accepts ⟨a.id, .isEmpty, []⟩ (cellsOf (s.values table) attributes owner a.id) = true ↔
      ∀ row ∈ s.values table, row.isFor owner a.id = false := by
  constructor
  · intro hempty row hrow
    by_contra hfor
    obtain ⟨rfl, hid⟩ := ValueRow.isFor_iff.mp (Bool.not_eq_false _ ▸ hfor)
    rw [h.cellsOf_of_row hhas ha hrow hid] at hempty
    simp [Test.accepts] at hempty
  · intro hnone
    rw [cellsOf_eq h.sound.indexed hhas ha, cellOf?_eq_none hnone, Test.accepts]

/-- Rows stay in their slots: after any calls, changes of type and of multiplicity among them,
every row is read by its attribute as what it is now. -/
theorem inSlots_run (steps : List Step) : (empty.run steps).InSlots := by
  have h : (empty.run steps).Reachable := ⟨steps, rfl⟩
  refine ⟨?_, ?_, h.sound.indexed.valueKeys, ?_, ?_⟩
  · intro table row hrow
    obtain ⟨a, ha, hid, -⟩ := h.sound.linked.values table row hrow
    exact ⟨a, ha, hid⟩
  · intro table row hrow a ha hid
    exact h.readsAs hrow ha hid
  · intro table attributes hhas a ha row hrow hid
    exact h.cellsOf_of_row hhas ha hrow hid
  · intro table attributes hhas a ha owner
    exact h.isEmpty_iff hhas ha table owner

end Store

end RecordStore
