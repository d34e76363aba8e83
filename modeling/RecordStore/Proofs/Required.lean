import Mathlib
import RecordStore.Proofs.Choices
import RecordStore.Proofs.Creation
import RecordStore.Proofs.Removals

/-!
# Required values

A required value is asked for where something new is written, and may not be cleared afterwards.
Main statement: of all calls that do not change what is required, only the removal of a choice makes
required values disappear, and just those that consist of nothing but the choice; after every other
call a store is as complete as it was before.
-/

namespace RecordStore

/-- A cell holds a choice and nothing else: by itself, or as the only member of a set. -/
def Cell.IsOnly (choice : Id) (cell : Cell) : Prop :=
  cell = .reference choice ∨ cell = idSet [choice]

namespace Store

/-- An owner has a value for an attribute. -/
def Carries (s : Store) (table : ValueTable) (owner attributeId : Id) : Prop :=
  ∃ row ∈ s.values table, row.isFor owner attributeId = true

/-- An owner has no value for an attribute of its parent that requires one. -/
structure Misses (s : Store) (table : ValueTable) (owner : Id) (a : AttributeHead) : Prop where
  mem : a ∈ s.attributes
  required : a.isRequired = true
  owns : s.Owns table owner a.parent
  bare : ¬ s.Carries table owner a.id

/-- What an owner has for an attribute is one choice and nothing else. -/
def HasOnly (s : Store) (table : ValueTable) (owner attributeId choice : Id) : Prop :=
  ∃ row ∈ s.values table, row.isFor owner attributeId = true ∧ row.cell.IsOnly choice

/-- Every record and every entry has a value for each attribute that requires one. -/
def Complete (s : Store) : Prop := ∀ table owner a, ¬ s.Misses table owner a

/-! ### Other tables -/

namespace Complete

variable {s t : Store}

/-- What is complete stays so if no attribute and no owner is new, and those that are left keep
their values. -/
theorem of_carries (hc : s.Complete) (attributes : t.attributes ⊆ s.attributes)
    (owns : ∀ table owner parent, t.Owns table owner parent → s.Owns table owner parent)
    (carries : ∀ table owner, ∀ a ∈ t.attributes, t.Owns table owner a.parent →
      s.Carries table owner a.id → t.Carries table owner a.id) : t.Complete := by
  rintro table owner a ⟨ha, hrequired, howns, hbare⟩
  refine hc table owner a ⟨attributes ha, hrequired, owns table owner _ howns, fun hcarries => ?_⟩
  exact hbare (carries table owner a ha howns hcarries)

theorem of_eq (hc : s.Complete) (attributes : t.attributes = s.attributes)
    (records : t.records = s.records) (entries : t.entries = s.entries)
    (recordValues : t.recordValues = s.recordValues) (entryValues : t.entryValues = s.entryValues) :
    t.Complete := by
  refine hc.of_carries (by rw [attributes]; exact List.Subset.refl _) ?_ ?_
  · rintro (_ | _) owner parent howns
    · rwa [Owns, records] at howns
    · rwa [Owns, entries] at howns
  · rintro (_ | _) owner a - - hcarries
    · rwa [Carries, values, recordValues]
    · rwa [Carries, values, entryValues]

theorem mapRecords (hc : s.Complete) {f : Record → Record}
    (same : ∀ r, (f r).id = r.id ∧ (f r).objectId = r.objectId) :
    Complete { s with records := s.records.map f } := by
  refine hc.of_carries (List.Subset.refl _) ?_ fun table owner a _ _ hcarries => ?_
  · rintro (_ | _) owner parent howns
    · obtain ⟨q, hq, howner, hparent⟩ := howns
      obtain ⟨r, hr, rfl⟩ := List.mem_map.mp hq
      exact ⟨r, hr, (same r).1.symm.trans howner, by rw [hparent, (same r).2]⟩
    · exact howns
  · cases table <;> exact hcarries

theorem mapEntries (hc : s.Complete) {f : Entry → Entry}
    (same : ∀ e, (f e).id = e.id ∧ (f e).listId = e.listId) :
    Complete { s with entries := s.entries.map f } := by
  refine hc.of_carries (List.Subset.refl _) ?_ fun table owner a _ _ hcarries => ?_
  · rintro (_ | _) owner parent howns
    · exact howns
    · obtain ⟨g, hg, howner, hparent⟩ := howns
      obtain ⟨e, he, rfl⟩ := List.mem_map.mp hg
      exact ⟨e, he, (same e).1.symm.trans howner, by rw [hparent, (same e).2]⟩
  · cases table <;> exact hcarries

/-- With what is removed, only values go that go with it. -/
theorem of_thinner (hc : s.Complete) {x : Removable} (h : s.Thinner x t) (hi : s.Indexed)
    (ht : t.Linked) (hlacks : t.Lacks x) : t.Complete := by
  refine hc.of_carries h.attributes.subset ?_ ?_
  · rintro (_ | _) owner parent howns
    · obtain ⟨r, hr, howner⟩ := howns
      exact ⟨r, h.records.subset hr, howner⟩
    · obtain ⟨e, he, howner⟩ := howns
      exact ⟨e, h.entries.subset he, howner⟩
  · rintro table owner a ha howns ⟨row, hrow, hfor⟩
    obtain ⟨hrowner, hrid⟩ := ValueRow.isFor_iff.mp hfor
    obtain ⟨p, hvalues, htaken⟩ := h.values table
    have hstays : p row = true := by
      by_contra hout
      rcases htaken row hrow (Bool.eq_false_iff.mpr hout) with hattribute | howner
      · exact h.not_takesAttributeOf hi ht hlacks ⟨a, ha, hrid.symm⟩ hattribute
      · exact h.not_takesOwner hi ht hlacks howns (hrowner ▸ howner)
    exact ⟨row, by rw [hvalues]; exact List.mem_filter.mpr ⟨hrow, hstays⟩, hfor⟩

end Complete

end Store

/-! ### Values as they are prepared -/

section

variable {attributes : List Attribute} {given : List (String × Json)} {prepared : Prepared}

/-- Something new is given a value for each attribute that requires one. -/
theorem exists_set_of_prepareValues (h : prepareValues attributes given .create = .ok prepared) :
    prepared.clears = [] ∧
      ∀ a ∈ attributes, a.isRequired = true → ∃ p ∈ prepared.sets, p.1.id = a.id := by
  obtain ⟨encoded, -, h⟩ := bind_eq_ok_iff.mp h
  dsimp only at h
  split at h
  · cases h
  · rename_i hnone
    cases h
    refine ⟨rfl, fun a ha hrequired => ?_⟩
    have hset : ((encoded.filterMap fun p => p.2.map fun c => (p.1, c)).any
        fun p => p.1.id == a.id) = true := by
      by_contra hnot
      refine List.find?_eq_none.mp hnone a ha ?_
      rw [hrequired, Bool.eq_false_iff.mpr hnot]
      rfl
    obtain ⟨p, hp, hid⟩ := List.any_eq_true.mp hset
    exact ⟨p, hp, beq_iff_eq.mp hid⟩

/-- Of something stored no value is cleared that is required. -/
theorem clears_of_prepareValues (h : prepareValues attributes given .update = .ok prepared) :
    ∀ a ∈ prepared.clears, a ∈ attributes ∧ a.isRequired = false := by
  obtain ⟨encoded, hencoded, h⟩ := bind_eq_ok_iff.mp h
  dsimp only at h
  split at h
  · cases h
  · rename_i hnone
    cases h
    intro a ha
    refine ⟨?_, by simpa using List.find?_eq_none.mp hnone a ha⟩
    obtain ⟨p, hp, hcleared⟩ := List.mem_filterMap.mp ha
    split at hcleared <;> cases hcleared
    exact (encoded_of_encodeAll hencoded p hp).1

end

/-! ### Values as they are applied -/

namespace Session

open Store (Carries Complete owns_setValues_iff)

variable {s : Store}

theorem carries_setValues_iff {table : ValueTable} {rows : List ValueRow} {owner id : Id} :
    (s.setValues table rows).Carries table owner id ↔
      ∃ row ∈ rows, row.isFor owner id = true := by
  rw [Carries, Store.values_setValues]

theorem carries_upsertRow (s : Store) (table : ValueTable) (row : ValueRow) {owner id : Id}
    (h : s.Carries table owner id ∨ row.isFor owner id = true) :
    (s.setValues table (upsertRow row (s.values table))).Carries table owner id := by
  rw [carries_setValues_iff]
  by_cases hrow : row.isFor owner id = true
  · exact ⟨row, mem_upsertRow.mpr (.inl rfl), hrow⟩
  · obtain ⟨r, hr, hfor⟩ := h.resolve_right hrow
    refine ⟨r, mem_upsertRow.mpr (.inr ⟨hr, Bool.eq_false_iff.mpr fun hsame => hrow ?_⟩), hfor⟩
    obtain ⟨howner, hid⟩ := ValueRow.isFor_iff.mp hsame
    obtain ⟨hro, hrid⟩ := ValueRow.isFor_iff.mp hfor
    exact ValueRow.isFor_iff.mpr ⟨howner.symm.trans hro, hid.symm.trans hrid⟩

theorem carries_dropRow (s : Store) (table : ValueTable) {o i owner id : Id}
    (h : s.Carries table owner id) (hne : ¬ (owner = o ∧ id = i)) :
    (s.setValues table (dropRow o i (s.values table))).Carries table owner id := by
  rw [carries_setValues_iff]
  obtain ⟨r, hr, hfor⟩ := h
  obtain ⟨howner, hid⟩ := ValueRow.isFor_iff.mp hfor
  refine ⟨r, List.mem_filter.mpr ⟨hr, ?_⟩, hfor⟩
  rw [Bool.not_eq_true', ← Bool.not_eq_true, ValueRow.isFor_iff]
  exact fun hsame => hne ⟨howner.symm.trans hsame.1, hid.symm.trans hsame.2⟩

theorem carries_storeValues (s : Store) (table : ValueTable) (owner : Id)
    (sets : List (Attribute × Cell)) :
    Yields s (storeValues table owner sets) fun _ t =>
      (∃ rows, t = s.setValues table rows) ∧
      (∀ o id, s.Carries table o id → t.Carries table o id) ∧
      ∀ p ∈ sets, t.Carries table owner p.1.id := by
  induction sets generalizing s with
  | nil => exact .pure ⟨⟨s.values table, by simp⟩, fun _ _ h => h, by simp⟩
  | cons p rest ih =>
    refine .bind (.liftM fun key _ => .get (.liftM fun _ _ => .write fun _ => ?_))
    refine (ih _).mono ?_
    rintro - t ⟨⟨rows, rfl⟩, hkept, hset⟩
    refine ⟨⟨rows, Store.setValues_setValues ..⟩, fun o id h => hkept o id ?_, ?_⟩
    · exact carries_upsertRow s table _ (.inl h)
    · refine List.forall_mem_cons.mpr ⟨hkept owner p.1.id ?_, hset⟩
      exact carries_upsertRow s table _ (.inr (ValueRow.isFor_iff.mpr ⟨rfl, rfl⟩))

theorem carries_clearValues (s : Store) (table : ValueTable) (owner : Id)
    (clears : List Attribute) :
    Yields s (clearValues table owner clears) fun _ t =>
      (∃ rows, t = s.setValues table rows) ∧
      ∀ o id, (∀ a ∈ clears, a.id ≠ id) → s.Carries table o id → t.Carries table o id := by
  induction clears generalizing s with
  | nil => exact .pure ⟨⟨s.values table, by simp⟩, fun _ _ _ h => h⟩
  | cons a rest ih =>
    refine .bind (.modify ((ih _).mono ?_))
    rintro - t ⟨⟨rows, rfl⟩, hkept⟩
    refine ⟨⟨rows, Store.setValues_setValues ..⟩, fun o id hclears h => ?_⟩
    obtain ⟨hne, hclears⟩ := List.forall_mem_cons.mp hclears
    exact hkept o id hclears (carries_dropRow s table h fun hsame => hne hsame.2.symm)

/-- Whatever is not cleared stays, and what is set is there. -/
theorem carries_applyValues (s : Store) (table : ValueTable) (owner : Id) (p : Prepared) :
    Yields s (applyValues table owner p) fun _ t =>
      (∃ rows, t = s.setValues table rows) ∧
      ∀ o id, (∀ a ∈ p.clears, a.id ≠ id) →
        s.Carries table o id ∨ (o = owner ∧ ∃ q ∈ p.sets, q.1.id = id) → t.Carries table o id := by
  refine .bind ((carries_storeValues s table owner p.sets).mono ?_)
  rintro - u ⟨⟨rows, rfl⟩, hkept, hset⟩
  refine (carries_clearValues _ table owner p.clears).mono ?_
  rintro - t ⟨⟨rows', rfl⟩, hleft⟩
  refine ⟨⟨rows', Store.setValues_setValues ..⟩, fun o id hclears hcarries => ?_⟩
  refine hleft o id hclears ?_
  rcases hcarries with hcarries | ⟨rfl, q, hq, rfl⟩
  · exact hkept o id hcarries
  · exact hset q hq

/-- Prepared values make a store complete in which nothing is missing but what they bring, if they
clear nothing that is required. -/
theorem complete_applyValues {table : ValueTable} {owner : Id} {prepared : Prepared}
    (hmisses : ∀ other o a, s.Misses other o a →
      other = table ∧ o = owner ∧ ∃ p ∈ prepared.sets, p.1.id = a.id)
    (hclears : ∀ b ∈ prepared.clears, ∀ a ∈ s.attributes, a.isRequired = true → b.id ≠ a.id) :
    Yields s (applyValues table owner prepared) fun _ t => t.Complete := by
  refine (carries_applyValues s table owner prepared).mono ?_
  rintro - t ⟨⟨rows, rfl⟩, hcarries⟩
  rintro other o a ⟨ha, hrequired, howns, hbare⟩
  rw [Store.attributes_setValues] at ha
  rw [owns_setValues_iff] at howns
  have hmissed : ¬ s.Carries other o a.id → other = table ∧ o = owner ∧
      ∃ p ∈ prepared.sets, p.1.id = a.id :=
    fun hnone => hmisses other o a ⟨ha, hrequired, howns, hnone⟩
  by_cases hother : other = table
  · subst hother
    refine hbare (hcarries o a.id (fun b hb => hclears b hb a ha hrequired) ?_)
    by_cases hhere : s.Carries other o a.id
    · exact .inl hhere
    · exact .inr (hmissed hhere).2
  · rw [Carries, Store.values_setValues_of_ne _ _ _ hother] at hbare
    exact hother (hmissed hbare).1

/-- A change of what is stored clears nothing that is required. -/
theorem complete_update (hi : s.Indexed) (hc : s.Complete) {parent : Parent} {table : ValueTable}
    {owner : Id} {given : List (String × Json)} {prepared : Prepared}
    (h : prepareValues (s.attributesOf parent) given .update = .ok prepared) :
    Yields s (applyValues table owner prepared) fun _ t => t.Complete := by
  refine complete_applyValues (fun other o a hmisses => absurd hmisses (hc other o a)) ?_
  intro b hb a ha hrequired hid
  obtain ⟨hmem, hoptional⟩ := clears_of_prepareValues h b hb
  obtain ⟨⟨c, hcmem, rfl⟩, -⟩ := Store.has_of_mem_attributesOf hmem
  have heq : c = a := eq_of_pairwise_ne hi.attributeIds hcmem ha hid
  subst heq
  cases hoptional.symm.trans hrequired

/-- A new owner is given all that is required of it. -/
theorem complete_create {u : Store} (hc : s.Complete) (attributes : u.attributes = s.attributes)
    (values : ∀ table, u.values table = s.values table) {table : ValueTable} {owner : Id}
    {parent : Parent} {given : List (String × Json)} {prepared : Prepared}
    (owns : ∀ other o p, u.Owns other o p →
      s.Owns other o p ∨ other = table ∧ o = owner ∧ p = parent)
    (h : prepareValues (s.attributesOf parent) given .create = .ok prepared) :
    Yields u (applyValues table owner prepared) fun _ t => t.Complete := by
  obtain ⟨hclears, hsets⟩ := exists_set_of_prepareValues h
  refine complete_applyValues ?_ (by simp [hclears])
  rintro other o a ⟨ha, hrequired, howns, hbare⟩
  rw [attributes] at ha
  rw [Carries, values] at hbare
  rcases owns other o a.parent howns with hold | ⟨rfl, rfl, rfl⟩
  · exact absurd ⟨ha, hrequired, hold, hbare⟩ (hc other o a)
  · exact ⟨rfl, rfl, hsets _ (Store.mem_attributesOf ha) hrequired⟩

/-! ### Records and entries -/

theorem complete_createRecord (hc : s.Complete) (stamp : Stamp) (new : NewRecord) :
    Yields s (createRecord stamp new) fun _ t => t.Complete := by
  refine .look fun _ _ => .get (.liftM fun prepared hprepared => .bind ?_)
  refine (Settles.transaction (.bind (.write fun _ => ?_))).yields
  refine (complete_create hc ?_ ?_ ?_ hprepared).mono
    fun _ t ht => (Settles.lookOnly fun _ _ => ht).yields
  · rfl
  · rintro (_ | _) <;> rfl
  rintro (_ | _) o parent howns
  · obtain ⟨r, hr, rfl, rfl⟩ := howns
    rcases List.mem_append.mp hr with hr | hr
    · exact .inl ⟨r, hr, rfl, rfl⟩
    · rw [List.mem_singleton.mp hr]
      exact .inr ⟨rfl, rfl, rfl⟩
  · exact .inl howns

theorem complete_updateRecord (hi : s.Indexed) (hc : s.Complete) (stamp : Stamp)
    (changes : RecordChanges) :
    Yields s (updateRecord stamp changes) fun _ t => t.Complete := by
  refine .look fun _ _ => .get (.liftM fun prepared hprepared => .bind ?_)
  refine (Settles.transaction (.bind ((complete_update hi hc hprepared).mono ?_))).yields
  intro _ u hu
  refine .modify (Settles.lookOnly fun _ _ => hu.mapRecords fun r => ?_).yields
  split <;> exact ⟨rfl, rfl⟩

theorem complete_assertRecord (hi : s.Indexed) (hc : s.Complete) (stamp : Stamp)
    (assertion : RecordAssertion) :
    Yields s (assertRecord stamp assertion) fun _ t => t.Complete := by
  refine .look fun _ _ => .get (.liftM fun _ _ => ?_)
  dsimp only
  split
  · exact complete_updateRecord hi hc stamp _
  · exact complete_createRecord hc stamp _

theorem complete_addEntry (hc : s.Complete) (stamp : Stamp) (new : NewEntry) :
    Yields s (addEntry stamp new) fun _ t => t.Complete := by
  refine .look fun list _ => .look fun _ _ => .get (.liftM fun _ _ => .liftM fun _ _ => ?_)
  refine .liftM fun prepared hprepared => .bind ?_
  refine (Settles.transaction (.bind (.write fun _ => ?_))).yields
  refine (complete_create hc ?_ ?_ ?_ hprepared).mono
    fun _ t ht => (Settles.lookOnly fun _ _ => ht).yields
  · rfl
  · rintro (_ | _) <;> rfl
  rintro (_ | _) o parent howns
  · exact .inl howns
  · obtain ⟨e, he, rfl, rfl⟩ := howns
    rcases List.mem_append.mp he with he | he
    · exact .inl ⟨e, he, rfl, rfl⟩
    · rw [List.mem_singleton.mp he]
      exact .inr ⟨rfl, rfl, rfl⟩

theorem complete_updateEntry (hi : s.Indexed) (hc : s.Complete) (stamp : Stamp) (id : Id)
    (given : List (String × Json)) :
    Yields s (updateEntry stamp id given) fun _ t => t.Complete := by
  refine .look fun _ _ => .look fun _ _ => .get (.liftM fun prepared hprepared => .bind ?_)
  refine (Settles.transaction (.bind ((complete_update hi hc hprepared).mono ?_))).yields
  intro _ u hu
  refine .modify (Settles.lookOnly fun _ _ => hu.mapEntries fun e => ?_).yields
  split <;> exact ⟨rfl, rfl⟩

theorem complete_placeRecords (hc : s.Complete) (place : Nat) (ids : List Id) :
    Yields s (placeRecords place ids) fun _ t => t.Complete := by
  induction ids generalizing s place with
  | nil => exact .pure hc
  | cons id rest ih =>
    refine .bind (.modify (ih (hc.mapRecords fun r => ?_) _))
    split <;> exact ⟨rfl, rfl⟩

/-! ### Choices taken away -/

theorem eq_singleton_of_forall_mem {ids : List Id} {id : Id} (hne : ids ≠ []) (hnodup : ids.Nodup)
    (h : ∀ i ∈ ids, i = id) : ids = [id] := by
  cases ids with
  | nil => exact absurd rfl hne
  | cons i rest =>
    obtain ⟨rfl, hrest⟩ := List.forall_mem_cons.mp h
    have hfresh : i ∉ rest := (List.nodup_cons.mp hnodup).1
    rw [List.eq_nil_iff_forall_not_mem.mpr fun j hj => hfresh (hrest j hj ▸ hj)]

/-- Taking a choice out of a set takes the whole value away only where there is no other member. -/
theorem carries_dropMemberOf (s : Store) (table : ValueTable) {a : Attribute} {row : ValueRow}
    (hset : a.isSet = true) (hids : OfIds a.toAttributeHead row.cell) (choice : Id) :
    Yields s (dropMemberOf table a (choiceMember choice) row) fun _ t =>
      (∃ rows, t = s.setValues table rows) ∧
      ∀ owner id, s.Carries table owner id → t.Carries table owner id ∨
        (owner = row.owner ∧ id = a.id) ∧ row.cell.IsOnly choice := by
  obtain ⟨hsingle, -⟩ | ⟨-, ids, hne, hnodup, hcell⟩ := hids
  · cases hset.symm.trans hsingle
  rw [dropMemberOf, ValueRow.members?_of_idSet hset hcell]
  dsimp only
  split
  · rw [dropMember]
    split
    · rename_i hnone
      refine .modify ⟨⟨_, rfl⟩, fun owner id hcarries => ?_⟩
      by_cases hhere : owner = row.owner ∧ id = a.id
      · refine .inr ⟨hhere, .inr ?_⟩
        rw [hcell, eq_singleton_of_forall_mem hne hnodup fun i hi => ?_]
        have hsame := List.filter_eq_nil_iff.mp hnone _ (List.mem_map_of_mem hi)
        exact choiceMember_injective (same_choiceMember.mp (by simpa using hsame))
      · exact .inl (carries_dropRow s table hcarries hhere)
    · refine .liftM fun key _ => .write fun _ => ⟨⟨_, rfl⟩, fun owner id hcarries => ?_⟩
      exact .inl (carries_upsertRow s table _ (.inl hcarries))
  · exact .pure ⟨⟨s.values table, by simp⟩, fun _ _ h => .inl h⟩

theorem carries_dropMembers (s : Store) (table : ValueTable) {a : Attribute} (hset : a.isSet = true)
    {rows : List ValueRow}
    (hids : ∀ row ∈ rows, row.attributeId = a.id ∧ OfIds a.toAttributeHead row.cell) (choice : Id) :
    Yields s (dropMembers table a (choiceMember choice) rows) fun _ t =>
      ∀ owner id, s.Carries table owner id → t.Carries table owner id ∨
        ∃ row ∈ rows, row.isFor owner id = true ∧ row.cell.IsOnly choice := by
  induction rows generalizing s with
  | nil => exact .pure fun _ _ h => .inl h
  | cons row rest ih =>
    obtain ⟨⟨hid, hhere⟩, hrest⟩ := List.forall_mem_cons.mp hids
    refine .bind ((carries_dropMemberOf s table hset hhere choice).mono ?_)
    rintro - u ⟨-, hu⟩
    refine (ih u hrest).mono fun _ t ht owner id hcarries => ?_
    rcases hu owner id hcarries with hcarries | ⟨⟨rfl, rfl⟩, honly⟩
    · rcases ht owner id hcarries with hcarries | ⟨r, hr, hlost⟩
      · exact .inl hcarries
      · exact .inr ⟨r, .tail _ hr, hlost⟩
    · exact .inr ⟨row, .head _, ValueRow.isFor_iff.mpr ⟨rfl, hid⟩, honly⟩

/-- The removal of a choice takes away no value but those that are nothing but the choice. -/
theorem carries_detachChoice {a : Attribute} (choice : Id)
    (hids : ∀ row ∈ s.values a.parent.valueTable, row.attributeId = a.id →
      OfIds a.toAttributeHead row.cell) :
    Yields s (detachChoice a choice) fun _ t =>
      ∀ owner id, s.Carries a.parent.valueTable owner id →
        t.Carries a.parent.valueTable owner id ∨
          id = a.id ∧ s.HasOnly a.parent.valueTable owner id choice := by
  rw [detachChoice]
  by_cases hset : a.isSet = true
  · simp only [hset, if_true]
    have hrows : ∀ row ∈ (s.values a.parent.valueTable).filter (fun r => r.attributeId == a.id),
        row.attributeId = a.id ∧ OfIds a.toAttributeHead row.cell := by
      intro row hrow
      obtain ⟨hrow, hid⟩ := List.mem_filter.mp hrow
      exact ⟨beq_iff_eq.mp hid, hids row hrow (beq_iff_eq.mp hid)⟩
    refine .get ((carries_dropMembers s _ hset hrows choice).mono fun _ t ht owner id h => ?_)
    refine (ht owner id h).imp_right ?_
    rintro ⟨row, hrow, hfor, honly⟩
    have hid := (ValueRow.isFor_iff.mp hfor).2.symm.trans (hrows row hrow).1
    exact ⟨hid, row, (List.mem_filter.mp hrow).1, hfor, honly⟩
  · simp only [hset]
    refine .modify ?_
    rintro owner id ⟨row, hrow, hfor⟩
    rw [carries_setValues_iff]
    by_cases hlost : row.attributeId = a.id ∧ row.cell.refersTo choice = true
    · refine .inr ⟨(ValueRow.isFor_iff.mp hfor).2.symm.trans hlost.1, row, hrow, hfor, .inl ?_⟩
      obtain ⟨-, id', hcell⟩ | ⟨hisSet, -⟩ := hids row hrow hlost.1
      · rw [hcell, Cell.refersTo, beq_iff_eq] at hlost
        rw [hcell, hlost.2]
      · exact absurd hisSet hset
    · refine .inl ⟨row, List.mem_filter.mpr ⟨hrow, ?_⟩, hfor⟩
      rwa [Bool.not_eq_true', ← Bool.not_eq_true, Bool.and_eq_true, beq_iff_eq]

/-- What comes out of the removal of a choice is not that choice alone. -/
theorem not_isOnly_of_detached {a : Attribute} {choice : Id} {r row : ValueRow}
    (h : r.Detached a choice row) (hid : r.attributeId = a.id)
    (hids : OfIds a.toAttributeHead r.cell) : ¬ r.cell.IsOnly choice := by
  intro honly
  rcases hids with ⟨hsingle, id, hcell⟩ | ⟨hset, ids, -, -, hcell⟩
  · rw [hcell] at honly
    rcases honly with hchoice | hchoice <;> cases hchoice
    cases h with
    | kept single => simpa [hcell, Cell.refersTo] using single hsingle hid
    | shrunk isSet => cases hsingle.symm.trans isSet
  · have hids : ids = [choice] := by
      rcases honly with hchoice | hchoice
      · cases hcell.symm.trans hchoice
      · have hmembers := Json.arr.inj (Cell.structured.inj (hcell.symm.trans hchoice))
        exact List.map_injective_iff.mpr choiceMember_injective hmembers
    subst hids
    have hmembers := r.members?_of_idSet hset hcell
    cases h with
    | kept _ set => exact set hset hid _ hmembers (by simp)
    | shrunk _ _ read _ left =>
      rw [hmembers] at read
      cases read
      exact left (by simp [same_choiceMember])

end Session

/-! ### Calls -/

/-- A call is for the removal of one of the choices of an attribute. -/
def Call.RemovesChoice (s : Store) (a : AttributeHead) (choice : Id) : Call → Prop
  | .removeOption id => id = choice ∧ ∃ o ∈ s.options, o.id = id ∧ o.attributeId = a.id
  | .removeStatus id => id = choice ∧ ∃ u ∈ s.statuses, u.id = id ∧ u.attributeId = a.id
  | _ => False

namespace Session

open Store (Carries Complete owns_setValues_iff)

variable {s : Store}

theorem yields_answering {α : Type} {x : Session α} (answer : α → Answer) {P : Store → Prop}
    (h : Yields s x fun _ t => P t) : Yields s (answering answer x) fun _ t => P t :=
  .bind (h.mono fun _ _ ht => .pure ht)

theorem yields_silently {x : Session Unit} {P : Store → Prop} (h : Yields s x fun _ t => P t) :
    Yields s (silently x) fun _ t => P t :=
  .bind (h.mono fun _ _ ht => .pure ht)

/-- All calls that neither change what is required nor remove a choice leave a complete store. -/
theorem complete_ofCall (hs : s.Sound) (hc : s.Complete) (setup : Setup) (stamp : Stamp)
    {call : Call} (hcreate : ∀ new, call ≠ .createAttribute new)
    (hupdate : ∀ id changes, call ≠ .updateAttribute id changes)
    (hoption : ∀ id, call ≠ .removeOption id) (hstatus : ∀ id, call ≠ .removeStatus id) :
    Yields s (ofCall setup stamp call) fun _ t => t.Complete := by
  have hremoval : ∀ {x : Removable}, call.removes? = some x →
      Yields s (ofCall setup stamp call) fun _ t => t.Complete := by
    intro x hx answer t hrun
    obtain ⟨hthinner, hlacks⟩ := (settles_removal hs.indexed setup stamp hx).yields hrun
    have ht := hs.changes ((settles_ofCall hs setup stamp call).yields hrun)
    exact hc.of_thinner hthinner hs.indexed ht.linked hlacks
  cases call with
  | objectNamed | object | objects | attributes | anAttribute | record | related | list
  | listNamed | lists | entry => exact .get (.pure hc)
  | forward | listRecords | listEntries | available =>
    exact yields_answering _ (Settles.lookOnly fun _ _ => hc).yields
  | deleteObject | deleteAttribute | deleteRecord | deleteList | removeEntry => exact hremoval rfl
  | createAttribute new => exact absurd rfl (hcreate new)
  | updateAttribute id changes => exact absurd rfl (hupdate id changes)
  | removeOption id => exact absurd rfl (hoption id)
  | removeStatus id => exact absurd rfl (hstatus id)
  | createRecord new => exact yields_answering _ (complete_createRecord hc stamp new)
  | updateRecord changes =>
    exact yields_answering _ (complete_updateRecord hs.indexed hc stamp changes)
  | assertRecord assertion =>
    exact yields_answering _ (complete_assertRecord hs.indexed hc stamp assertion)
  | addEntry new => exact yields_answering _ (complete_addEntry hc stamp new)
  | updateEntry id given actor =>
    exact yields_answering _ (complete_updateEntry hs.indexed hc stamp id given)
  | reorder objectId ids =>
    exact yields_silently (.look fun _ _ => .get (.liftM fun _ _ => .liftM fun _ _ =>
      (Settles.transaction (complete_placeRecords hc 0 ids)).yields))
  | createObject new =>
    exact yields_answering _ (.liftM fun _ _ => .liftM fun _ _ => .liftM fun _ _ => .get
      (.liftM fun _ _ => .bind (.write fun _ => .pure (hc.of_eq rfl rfl rfl rfl rfl))))
  | updateObject id changes =>
    exact yields_answering _ (.look fun _ _ => .liftM fun _ _ => .liftM fun _ _ => .bind
      (.modify (.pure (hc.of_eq rfl rfl rfl rfl rfl))))
  | addOption id new =>
    exact yields_answering _ (.look fun _ _ => .liftM fun _ _ => .liftM fun _ _ => .bind
      (.write fun _ => .pure (hc.of_eq rfl rfl rfl rfl rfl)))
  | addStatus id new =>
    exact yields_answering _ (.look fun _ _ => .liftM fun _ _ => .liftM fun _ _ => .bind
      (.write fun _ => .pure (hc.of_eq rfl rfl rfl rfl rfl)))
  | createList new =>
    exact yields_answering _ (.liftM fun _ _ => .liftM fun _ _ => .look fun _ _ => .get
      (.liftM fun _ _ => .bind (.write fun _ => .pure (hc.of_eq rfl rfl rfl rfl rfl))))
  | updateList id changes =>
    exact yields_answering _ (.look fun _ _ => .liftM fun _ _ => .bind
      (.modify (.pure (hc.of_eq rfl rfl rfl rfl rfl))))

/-- After the removal of a choice those required values of its attribute are missing that were
nothing but the choice. -/
theorem misses_detachChoice {u : Store} (h : s.Reachable) (hc : s.Complete)
    (attributes : u.attributes = s.attributes)
    (owns : ∀ table owner parent, u.Owns table owner parent ↔ s.Owns table owner parent)
    (values : ∀ table, u.values table = s.values table) {a : AttributeHead} (ha : a ∈ s.attributes)
    (hslot : a.type.slot = .reference) (choice : Id) :
    Yields u (detachChoice (s.withChoices a) choice) fun _ t => ∀ table owner b,
      t.Misses table owner b ↔ b ∈ s.attributes ∧ b.isRequired = true ∧ b.id = a.id ∧
        s.HasOnly table owner b.id choice := by
  have hids : ∀ row ∈ u.values a.parent.valueTable, row.attributeId = a.id →
      OfIds (s.withChoices a).toAttributeHead row.cell := by
    intro row hrow hid
    rw [values] at hrow
    rcases (h.ofIds_of_row hrow ha hid.symm hslot).2 with ⟨hsingle, id, hcell⟩ |
      ⟨hset, ids, hne, hnodup, hcell⟩
    · exact .single hsingle id hcell
    · exact .set hset ids hne hnodup hcell
  intro _ t hrun table owner b
  have hcarries := carries_detachChoice choice hids hrun
  obtain ⟨⟨rows, rfl⟩, hdetached⟩ := yields_detachChoice u _ choice hrun
  constructor
  · rintro ⟨hb, hrequired, howns, hbare⟩
    rw [Store.attributes_setValues, attributes] at hb
    rw [owns_setValues_iff, owns] at howns
    have hcarried : u.Carries table owner b.id := by
      by_contra hnone
      rw [Carries, values] at hnone
      exact hc table owner b ⟨hb, hrequired, howns, hnone⟩
    by_cases htable : table = (s.withChoices a).parent.valueTable
    · subst htable
      obtain ⟨hid, row, hrow, honly⟩ := (hcarries owner b.id hcarried).resolve_left hbare
      exact ⟨hb, hrequired, hid, row, by rwa [values] at hrow, honly⟩
    · rw [Carries, Store.values_setValues_of_ne _ _ _ htable] at hbare
      exact absurd hcarried hbare
  · rintro ⟨hb, hrequired, hid, row, hrow, hfor, honly⟩
    obtain ⟨rfl, hrowid⟩ := ValueRow.isFor_iff.mp hfor
    have hi := h.sound.indexed
    obtain rfl : b = a := eq_of_pairwise_ne hi.attributeIds hb ha hid
    obtain ⟨c, hcmem, hcid, howns⟩ := h.sound.linked.values table row hrow
    obtain rfl : c = b := eq_of_pairwise_ne hi.attributeIds hcmem hb (hcid.trans hrowid)
    obtain rfl : c.parent.valueTable = table := howns.valueTable_eq
    refine ⟨by rwa [Store.attributes_setValues, attributes], hrequired, ?_, ?_⟩
    · rwa [owns_setValues_iff, owns]
    · rintro ⟨left, hleft, hleftfor⟩
      obtain ⟨r, hr, hrleft⟩ := hdetached left hleft
      obtain ⟨hleftowner, hleftid⟩ := ValueRow.isFor_iff.mp hleftfor
      have hrid : r.attributeId = c.id := hrleft.attributeId_eq.symm.trans hleftid
      have hrfor : r.isFor row.owner c.id = true :=
        ValueRow.isFor_iff.mpr ⟨hrleft.owner_eq.symm.trans hleftowner, hrid⟩
      rw [hi.eq_of_isFor hrow (values _ ▸ hr) hfor hrfor] at honly
      exact not_isOnly_of_detached hrleft hrid (hids r hr hrid) honly

/-- A removal that succeeds takes away just what consisted of nothing but the choice. -/
def MissesOnly (s : Store) (call : Call) (t : Store) : Prop :=
  ∀ table owner b, t.Misses table owner b ↔ b ∈ s.attributes ∧ b.isRequired = true ∧
    ∃ choice, call.RemovesChoice s b choice ∧ s.HasOnly table owner b.id choice

theorem missesOnly_of_removesChoice {call : Call} {id choice : Id} {t : Store}
    (hremoves : ∀ b c, call.RemovesChoice s b c ↔ c = choice ∧ b.id = id)
    (ht : ∀ table owner b, t.Misses table owner b ↔ b ∈ s.attributes ∧ b.isRequired = true ∧
      b.id = id ∧ s.HasOnly table owner b.id choice) : MissesOnly s call t := by
  intro table owner b
  rw [ht]
  refine and_congr_right fun _ => and_congr_right fun _ => ⟨?_, ?_⟩
  · rintro ⟨hid, honly⟩
    exact ⟨choice, (hremoves b choice).mpr ⟨rfl, hid⟩, honly⟩
  · rintro ⟨c, hc, honly⟩
    obtain ⟨rfl, hid⟩ := (hremoves b c).mp hc
    exact ⟨hid, honly⟩

theorem misses_removeOption (h : s.Reachable) (hc : s.Complete) (id : Id) :
    Yields s (removeOption id) fun _ t => MissesOnly s (.removeOption id) t := by
  refine .look fun option hoption => .look fun a ha => ?_
  obtain ⟨hmem, rfl⟩ := mem_of_requireOption hoption
  obtain ⟨⟨c, hcmem, rfl⟩, hid, htype⟩ := requireChoices_eq_ok ha
  have hslot : c.type.slot = .reference := by
    rw [show c.type = .select from htype]
    rfl
  refine (Settles.transaction (.bind (.modify ?_))).yields
  refine (misses_detachChoice h hc ?_ ?_ ?_ hcmem hslot option.id).mono ?_
  · rfl
  · rintro (_ | _) owner parent <;> exact Iff.rfl
  · rintro (_ | _) <;> rfl
  · refine fun _ t ht => missesOnly_of_removesChoice (fun b choice => ⟨?_, ?_⟩) ht
    · rintro ⟨rfl, o, ho, hoid, hb⟩
      obtain rfl : o = option :=
        eq_of_pairwise_ne (f := SelectOption.id) h.sound.indexed.options ho hmem hoid
      exact ⟨rfl, hb.symm.trans hid.symm⟩
    · rintro ⟨rfl, hb⟩
      exact ⟨rfl, option, hmem, rfl, hid.symm.trans hb.symm⟩

theorem misses_removeStatus (h : s.Reachable) (hc : s.Complete) (id : Id) :
    Yields s (removeStatus id) fun _ t => MissesOnly s (.removeStatus id) t := by
  refine .look fun status hstatus => .look fun a ha => ?_
  obtain ⟨hmem, rfl⟩ := mem_of_requireStatus hstatus
  obtain ⟨⟨c, hcmem, rfl⟩, hid, htype⟩ := requireChoices_eq_ok ha
  have hslot : c.type.slot = .reference := by
    rw [show c.type = .status from htype]
    rfl
  refine (Settles.transaction (.bind (.modify ?_))).yields
  refine (misses_detachChoice h hc ?_ ?_ ?_ hcmem hslot status.id).mono ?_
  · rfl
  · rintro (_ | _) owner parent <;> exact Iff.rfl
  · rintro (_ | _) <;> rfl
  · refine fun _ t ht => missesOnly_of_removesChoice (fun b choice => ⟨?_, ?_⟩) ht
    · rintro ⟨rfl, u, hu, huid, hb⟩
      obtain rfl : u = status :=
        eq_of_pairwise_ne (f := Status.id) h.sound.indexed.statuses hu hmem huid
      exact ⟨rfl, hb.symm.trans hid.symm⟩
    · rintro ⟨rfl, hb⟩
      exact ⟨rfl, status, hmem, rfl, hid.symm.trans hb.symm⟩

theorem missesOnly_ofCall (h : s.Reachable) (hc : s.Complete) (setup : Setup) (stamp : Stamp)
    {call : Call} (hcreate : ∀ new, call ≠ .createAttribute new)
    (hupdate : ∀ id changes, call ≠ .updateAttribute id changes) :
    Yields s (ofCall setup stamp call) fun _ t => MissesOnly s call t := by
  by_cases hoption : ∃ id, call = .removeOption id
  · obtain ⟨id, rfl⟩ := hoption
    exact yields_silently (misses_removeOption h hc id)
  by_cases hstatus : ∃ id, call = .removeStatus id
  · obtain ⟨id, rfl⟩ := hstatus
    exact yields_silently (misses_removeStatus h hc id)
  rw [not_exists] at hoption hstatus
  refine (complete_ofCall h.sound hc setup stamp hcreate hupdate hoption hstatus).mono ?_
  intro _ t ht table owner b
  refine iff_of_false (ht table owner b) ?_
  rintro ⟨-, -, choice, hremoves, -⟩
  cases call with
  | removeOption id => exact hoption id rfl
  | removeStatus id => exact hstatus id rfl
  | _ => exact hremoves

end Session

namespace Store

variable {s : Store} {setup : Setup} {stamp : Stamp} {call : Call}

/-- A call leaves the store it began with, or succeeds. -/
theorem after_cases (hs : s.Sound) (setup : Setup) (stamp : Stamp) (call : Call) :
    (∃ answer, s.perform setup stamp call = .ok (answer, s.after setup stamp call) ∧
        (Session.ofCall setup stamp call).run s = .ok answer (s.after setup stamp call)) ∨
      ∃ e, s.perform setup stamp call = .error e ∧ s.after setup stamp call = s := by
  have hfail := (settles_call hs setup stamp call).2
  rw [after, perform] at hfail ⊢
  cases hrun : (Session.ofCall setup stamp call).run s with
  | ok answer t => exact .inl ⟨answer, rfl, rfl⟩
  | error e t =>
    rw [hrun] at hfail
    exact .inr ⟨e, rfl, hfail e rfl⟩

/-- Required values do not disappear but with a choice: whatever is called, except to create or to
change an attribute, a complete store is complete again, unless the call removes a choice; then just
those required values are missing that were the choice and nothing else. -/
theorem complete_after (h : s.Reachable) (hc : s.Complete)
    (hcreate : ∀ new, call ≠ .createAttribute new)
    (hupdate : ∀ id changes, call ≠ .updateAttribute id changes) :
    ((∀ id, call ≠ .removeOption id) → (∀ id, call ≠ .removeStatus id) →
      (s.after setup stamp call).Complete) ∧
    ∀ table owner a, (s.after setup stamp call).Misses table owner a ↔
      (∃ answer t, s.perform setup stamp call = .ok (answer, t)) ∧
        a ∈ s.attributes ∧ a.isRequired = true ∧
          ∃ choice, call.RemovesChoice s a choice ∧ s.HasOnly table owner a.id choice := by
  rcases after_cases h.sound setup stamp call with ⟨answer, hok, hrun⟩ | ⟨e, hfail, hsame⟩
  · refine ⟨fun hoption hstatus => ?_, fun table owner a => ?_⟩
    · exact Session.complete_ofCall h.sound hc setup stamp hcreate hupdate hoption hstatus hrun
    · rw [Session.missesOnly_ofCall h hc setup stamp hcreate hupdate hrun table owner a]
      exact ⟨fun hmissed => ⟨⟨answer, _, hok⟩, hmissed⟩, fun hmissed => hmissed.2⟩
  · rw [hsame]
    refine ⟨fun _ _ => hc, fun table owner a => iff_of_false (hc table owner a) ?_⟩
    rintro ⟨⟨answer, t, hok⟩, -⟩
    cases hfail.symm.trans hok

/-! ### A deal with a stage -/

def stageAttribute : AttributeHead :=
  ⟨exampleId 1 0, .object (exampleId 0 0), "stage", "Stage", .select, .obj [], false, true, false,
    false, 0, ⟨1⟩⟩

def openStage : SelectOption := ⟨exampleId 1 1, exampleId 1 0, "Open", none, 0⟩

def wonStage : SelectOption := ⟨exampleId 1 2, exampleId 1 0, "Won", none, 1⟩

/-- Deals of which each requires one of two stages, and no deals yet. -/
def stageBase : Store where
  objects := [⟨exampleId 0 0, default, "deals", "Deal", "Deals", none, false, ⟨0⟩⟩]
  attributes := [stageAttribute]
  options := [openStage, wonStage]
  statuses := []
  records := []
  lists := []
  entries := []
  recordValues := []
  entryValues := []

def stageRun : List Step := [
  exampleStep 0 (.createObject ⟨default, "deals", "Deal", "Deals", none, false⟩),
  exampleStep 1 (.createAttribute { NewAttribute.plain (.object (exampleId 0 0)) "stage" "Stage"
    .select with isRequired := true, options := [⟨"Open", none⟩, ⟨"Won", none⟩] })]

theorem run_stageRun : empty.run stageRun = stageBase := by cbv

theorem reachable_stageBase : stageBase.Reachable := ⟨stageRun, run_stageRun.symm⟩

/-- One deal, in the first stage. -/
def stageStore : Store := { stageBase with
  records := [⟨exampleId 2 0, exampleId 0 0, none, ⟨2⟩, none, ⟨2⟩⟩]
  recordValues := [⟨exampleId 2 0, exampleId 1 0, .reference (exampleId 1 1), none⟩] }

theorem encodeValue_stage : encodeValue (stageBase.withChoices stageAttribute)
    (choiceMember (exampleId 1 1)) = .ok (some (.reference (exampleId 1 1))) := by
  refine (encodeValue_of_single Bool.false_ne_true ?_).trans ?_
  · exact (Json.isBlank_str _).trans (exampleId 1 1).isBlank_text
  · exact bind_eq_ok_iff.mpr ⟨exampleId 1 1, coerceId_text _ _, if_pos (by cbv)⟩

theorem reachable_stageStore : stageStore.Reachable := by
  have hattributes : stageBase.attributesOf (.object (exampleId 0 0)) =
      [stageBase.withChoices stageAttribute] := by cbv
  have hprepared : prepareValues (stageBase.attributesOf (.object (exampleId 0 0)))
      [("stage", choiceMember (exampleId 1 1))] .create =
        .ok ⟨[(stageBase.withChoices stageAttribute, .reference (exampleId 1 1))], []⟩ := by
    rw [hattributes]
    refine prepareValues_create_one (by cbv) encodeValue_stage rfl fun b hb _ => ?_
    rw [List.mem_singleton.mp hb]
  obtain ⟨answer, hanswer⟩ := exists_perform_createRecord ⟨50, 200, .reject, []⟩
    ⟨⟨2⟩, fun place => exampleId 2 (UInt8.ofNat place)⟩ ⟨exampleId 0 0, _, none⟩
    ⟨_, .head _, rfl⟩ hprepared (List.forall_mem_singleton.mpr rfl)
    fun _ hcleared => by cases hcleared
  exact reachable_stageBase.perform hanswer

theorem complete_stageStore : stageStore.Complete := by
  rintro (_ | _) owner a ⟨ha, -, howns, hbare⟩
  · obtain ⟨r, hr, rfl, -⟩ := howns
    obtain rfl := List.mem_singleton.mp ha
    obtain rfl := List.mem_singleton.mp hr
    exact hbare ⟨_, .head _, by decide⟩
  · obtain ⟨e, he, -⟩ := howns
    cases he

/-- Removes one of the two stages. -/
def unstaging (stage : SelectOption) : Step := exampleStep 3 (.removeOption stage.id)

theorem perform_unstaging : stageStore.perform (unstaging openStage).setup
    (unstaging openStage).stamp (unstaging openStage).call =
      .ok (.nothing, { stageStore with options := [wonStage], recordValues := [] }) := by cbv

/-- The deal loses its stage with the stage it has, and with the other one nothing. -/
theorem complete_after_unstaging :
    stageStore.Reachable ∧ stageStore.Complete ∧
      (stageStore.after (unstaging openStage).setup (unstaging openStage).stamp
        (unstaging openStage).call).Misses .records (exampleId 2 0) stageAttribute ∧
      (stageStore.after (unstaging wonStage).setup (unstaging wonStage).stamp
        (unstaging wonStage).call).Complete := by
  have hr := reachable_stageStore
  have hc := complete_stageStore
  have hmisses : ∀ stage table owner a, (stageStore.after (unstaging stage).setup
      (unstaging stage).stamp (unstaging stage).call).Misses table owner a ↔ _ :=
    fun stage => (complete_after hr hc (fun _ h => by cases h) fun _ _ h => by cases h).2
  refine ⟨hr, hc, (hmisses openStage _ _ _).mpr ⟨⟨_, _, perform_unstaging⟩, .head _, rfl, ?_⟩, ?_⟩
  · exact ⟨openStage.id, ⟨rfl, openStage, .head _, rfl, rfl⟩, _, .head _, by decide, .inl rfl⟩
  · intro table owner a hmissed
    obtain ⟨-, -, -, _, ⟨rfl, -⟩, row, hrow, -, honly⟩ := (hmisses wonStage _ _ _).mp hmissed
    cases table
    · obtain rfl := List.mem_singleton.mp hrow
      rcases honly with honly | honly <;> cases honly
    · cases hrow

/-- The stage that the deal has is removed, and the deal is left without the required value. -/
theorem not_complete_after_unstaging :
    stageStore.Reachable ∧ stageStore.Complete ∧
      ¬ (stageStore.after (unstaging openStage).setup (unstaging openStage).stamp
        (unstaging openStage).call).Complete := by
  refine ⟨reachable_stageStore, complete_stageStore, fun hc => ?_⟩
  rw [after, perform_eq_ok_iff.mp perform_unstaging] at hc
  refine hc .records (exampleId 2 0) stageAttribute ⟨.head _, rfl, ⟨_, .head _, rfl, rfl⟩, ?_⟩
  rintro ⟨row, hrow, -⟩
  cases hrow

end Store

end RecordStore
