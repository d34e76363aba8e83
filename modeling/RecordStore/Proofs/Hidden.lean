import Mathlib
import RecordStore.Proofs.Creation
import RecordStore.Proofs.Displays
import RecordStore.Proofs.Shown

/-!
# Values that a retype hides

A change of type that is let through leaves all values in their slot, but not every type reads all
that its slot can hold. Main statement: of what was shown before the change those values are shown
after it that the new type can read. Hidden are dates before the first timestamp, and structured
values in which a part of a name or of a location is of another kind.
-/

namespace RecordStore

/-! ### Types that read a cell -/

/-- The content of a cell in the slot of a type can be read under the type. -/
def ValueType.Reads (type : ValueType) : Cell → Prop
  | .date micros =>
    type = .timestamp → Calendar.firstStamp ≤ micros ∧ micros ≤ Calendar.lastInstant
  | .structured j =>
    (type = .personalName → (PersonalName.ofJson? j).isSome = true) ∧
      (type = .location → (Location.ofJson? j).isSome = true)
  | _ => True

/-- Under a type there may be what another type of its slot does not read. All structured types
count alike here: under each there may be what was written as an interaction before. -/
def ValueType.Narrows (old new : ValueType) : Prop :=
  (old = .date ∧ new = .timestamp) ∨
    (old ≠ new ∧ old.slot = .structured ∧ (new = .personalName ∨ new = .location))

section

variable {old new : ValueType} {cell : Cell} {v : Value}

theorem inCalendar_of_decodeSingle {micros : Int} (h : decodeSingle old (.date micros) = .ok v) :
    Calendar.inCalendar micros = true := by
  have hslot := slot_of_decodeSingle h
  rw [decodeSingle, if_neg (not_not.mpr hslot)] at h
  split at h
  · obtain ⟨s, hs, -⟩ := map_eq_ok_iff.mp h
    by_contra hout
    rw [Calendar.formatDate, if_neg hout] at hs
    cases hs
  · obtain ⟨s, hs, -⟩ := map_eq_ok_iff.mp h
    by_contra hout
    rw [Calendar.formatTimestamp, if_neg hout] at hs
    cases hs

theorem exists_decodeSingle_date_iff {micros : Int} (hslot : new.slot = .date)
    (hin : Calendar.inCalendar micros = true) :
    (∃ w, decodeSingle new (.date micros) = .ok w) ↔ new.Reads (.date micros) := by
  cases new with
  | date =>
    obtain ⟨s, hs⟩ := Calendar.exists_formatDate hin
    exact iff_of_true ⟨.date s, map_eq_ok_iff.mpr ⟨s, hs, rfl⟩⟩ fun htype => nomatch htype
  | timestamp =>
    rw [exists_decodeSingle_timestamp_iff]
    exact ⟨fun h _ => h, fun h => h rfl⟩
  | _ => cases hslot

theorem exists_decodeSingle_structured_iff {j : Json} (hslot : new.slot = .structured) :
    (∃ w, decodeSingle new (.structured j) = .ok w) ↔ new.Reads (.structured j) := by
  cases new with
  | personalName =>
    simp only [decodeSingle, ValueType.Reads]
    cases PersonalName.ofJson? j <;> simp [Cell.slot, ValueType.slot]
  | location =>
    simp only [decodeSingle, ValueType.Reads]
    cases Location.ofJson? j <;> simp [Cell.slot, ValueType.slot]
  | interaction =>
    refine iff_of_true ⟨.json j, rfl⟩ ⟨?_, ?_⟩ <;> rintro ⟨⟩
  | _ => cases hslot

/-- What is read under one type of a slot is read under another one just if that reads its
content. -/
theorem exists_decodeSingle_iff_reads (hv : decodeSingle old cell = .ok v)
    (hslot : new.slot = old.slot) :
    (∃ w, decodeSingle new cell = .ok w) ↔ new.Reads cell := by
  have hcell : cell.slot = new.slot := (slot_of_decodeSingle hv).trans hslot.symm
  cases cell with
  | date micros => exact exists_decodeSingle_date_iff hcell.symm (inCalendar_of_decodeSingle hv)
  | structured j => exact exists_decodeSingle_structured_iff hcell.symm
  | _ =>
    refine iff_of_true (exists_decodeSingle hcell ?_ ?_) trivial
    · exact fun hdate => nomatch hcell.trans hdate
    · exact fun hstructured => nomatch hcell.trans hstructured

theorem reads_of_not_narrows (hv : decodeSingle old cell = .ok v) (hslot : new.slot = old.slot)
    (h : ¬ old.Narrows new) : new.Reads cell := by
  by_cases htype : old = new
  · subst htype
    exact (exists_decodeSingle_iff_reads hv rfl).mp ⟨v, hv⟩
  · have hold := slot_of_decodeSingle hv
    cases cell with
    | date micros =>
      rintro rfl
      have hdate := (ValueType.slot_eq_date_iff.mp hold.symm).resolve_right htype
      exact absurd (.inl ⟨hdate, rfl⟩) h
    | structured j =>
      refine ⟨fun hnew => absurd (.inr ⟨htype, hold.symm, .inl hnew⟩) h, fun hnew => ?_⟩
      exact absurd (.inr ⟨htype, hold.symm, .inr hnew⟩) h
    | _ => trivial

end

/-! ### Attributes that change their type -/

section

variable {a b : Attribute} {cell : Cell} {v : Value}

theorem reads_set {type : ValueType} (h : type.allowsSets = true) (items : List Json) :
    type.Reads (.structured (.arr items)) := by
  refine ⟨?_, ?_⟩ <;> rintro rfl <;> cases h

/-- Without a change of storage or of multiplicity, what was read is read still just if the new type
reads its content. -/
theorem exists_decodeCell_iff_reads (hv : decodeCell a cell = .ok v) (hset : b.isSet = a.isSet)
    (hallowed : b.isSet = true → b.type.allowsSets = true)
    (hstays : Store.storageChanges a.toAttributeHead b.toAttributeHead = false) :
    (∃ w, decodeCell b cell = .ok w) ↔ b.type.Reads cell := by
  obtain ⟨hslot, htype⟩ := Store.storageChanges_eq_false_iff.mp hstays
  by_cases hisSet : a.isSet = true
  · have hbset := hset.trans hisSet
    obtain ⟨items, rfl⟩ := exists_of_decodeCell_set hisSet hv
    refine iff_of_true ?_ (reads_set (hallowed hbset) items)
    rcases htype with htype | ⟨-, hplain⟩
    · refine ⟨v, ?_⟩
      rw [decodeCell, if_pos hbset, ← htype]
      rwa [decodeCell, if_pos hisSet] at hv
    · refine ⟨_, decodeCell_set_of_text hbset ?_ items⟩
      rcases ValueType.allowsSets_and_plain_iff.mp ⟨hallowed hbset, hplain⟩ with ht | ht | ht <;>
        rw [ht] <;> rfl
  · have hbset : ¬ b.isSet = true := by rwa [hset]
    rw [AttributeHead.slot, if_neg hisSet, AttributeHead.slot, if_neg hbset] at hslot
    rw [decodeCell_of_single hisSet] at hv
    rw [decodeCell_of_single hbset]
    exact exists_decodeSingle_iff_reads hv hslot.symm

theorem reads_of_decodeCell (hv : decodeCell a cell = .ok v) (hset : b.isSet = a.isSet)
    (hallowed : b.isSet = true → b.type.allowsSets = true)
    (hstays : Store.storageChanges a.toAttributeHead b.toAttributeHead = false)
    (hkeeps : ¬ a.type.Narrows b.type) : b.type.Reads cell := by
  by_cases hisSet : a.isSet = true
  · obtain ⟨items, rfl⟩ := exists_of_decodeCell_set hisSet hv
    exact reads_set (hallowed (hset.trans hisSet)) items
  · have hslot := (Store.storageChanges_eq_false_iff.mp hstays).1
    rw [AttributeHead.slot, if_neg hisSet, AttributeHead.slot, if_neg (by rwa [hset])] at hslot
    rw [decodeCell_of_single hisSet] at hv
    exact reads_of_not_narrows hv hslot.symm hkeeps

end

/-! ### Changing an attribute -/

namespace Session

variable {s : Store}

/-- Replacing an attribute loses no row and leaves the cell of each. -/
theorem keeps_replaceAttribute (h : s.Indexed) (current changed : Attribute) :
    Yields s (replaceAttribute current changed) fun _ t => ∀ table, ∀ r ∈ s.values table,
      ∃ row ∈ t.values table, row.owner = r.owner ∧ row.attributeId = r.attributeId ∧
        row.cell = r.cell := by
  refine (yields_replaceAttribute h current changed).mono ?_
  rintro - t ⟨-, -, ht⟩ table r hr
  split at ht
  · subst ht
    exact ⟨r, by simpa using hr, rfl, rfl, rfl⟩
  · obtain ⟨rfl, -⟩ := ht
    by_cases htable : table = current.parent.valueTable
    · subst htable
      rw [Store.values_setValues]
      exact ⟨_, List.mem_map_of_mem hr, by simp⟩
    · rw [Store.values_setValues_of_ne _ _ _ htable, Store.values_withReplaced]
      exact ⟨r, hr, rfl, rfl, rfl⟩

/-- An attribute is changed by replacing it as it is read, and returned with the choices that it is
read with before. -/
theorem yields_updateAttribute (h : s.Indexed) {a : AttributeHead} (ha : a ∈ s.attributes)
    (changes : AttributeChanges) :
    Yields s (updateAttribute a.id changes) fun changed t =>
      ∃ next, s.changedAttribute a.kept changes = .ok next ∧
        changed = { s.withChoices a with toAttributeHead := next } ∧
        (replaceAttribute (s.withChoices a) changed).run s = .ok () t := by
  refine .look fun current hcurrent => .look fun next hnext => .bind fun _ t hrun => ?_
  have has : s.Has (s.withChoices a) := ⟨a, ha, rfl⟩
  cases hcurrent.symm.trans (has.requireAttribute h)
  exact .pure ⟨next, hnext, rfl, run_transaction_eq_ok.mp hrun⟩

end Session

namespace Store

variable {s t : Store}

/-- After a change, a row is shown under the new slug just if it can be decoded under what the
attribute is then: of the type and the multiplicity asked for, and of the storage it had. -/
theorem exists_retyped (h : s.Reachable) {a : AttributeHead} (ha : a ∈ s.attributes)
    {changes : AttributeChanges} {setup : Setup} {stamp : Stamp} {answer : Answer}
    (hok : s.perform setup stamp (.updateAttribute a.id changes) = .ok (answer, t)) {row : ValueRow}
    (hrow : row ∈ s.values a.parent.valueTable) (hid : row.attributeId = a.id) :
    ∃ b : Attribute, b.type = (changes.retyped a).type ∧ b.isSet = (changes.retyped a).isSet ∧
      (b.isSet = true → b.type.allowsSets = true) ∧
      storageChanges (s.withChoices a).toAttributeHead b.toAttributeHead = false ∧
      ((t.shown? a.parent row.owner (changes.slug.getD a.slug)).isSome = true ↔
        ∃ v, decodeCell b row.cell.kept = .ok v) := by
  have hi := h.sound.indexed
  obtain ⟨_, u, hrun, hpure⟩ := Session.run_bind_eq_ok.mp (perform_eq_ok_iff.mp hok)
  cases hpure
  obtain ⟨next, hnext, rfl, hreplace⟩ := Session.yields_updateAttribute hi ha changes hrun
  obtain ⟨htype, hset, -⟩ := retyped_of_changedAttribute hnext
  have hslug := slug_of_changedAttribute hnext
  have hallowed := sets_of_changedAttribute hnext
  have hguard := (Session.yields_replaceAttribute hi _ _ hreplace).1
  have hstays := (Fitting.storageChanges_of_row hi h.sound.linked ha hguard hrow hid.symm).1
  have hattributes := (Session.rows_replaceAttribute hi _ _ hreplace).1
  obtain ⟨r, hr, hrowner, hrid, hrcell⟩ :=
    Session.keeps_replaceAttribute hi _ _ hreplace _ row hrow
  have hnextId : a.id = next.id := (id_of_changedAttribute hnext).symm
  have hb : Session.replaced next a ∈ t.attributes := by
    rw [hattributes]
    exact List.mem_map_of_mem ha
  rw [Session.replaced, if_pos hnextId] at hb
  have hshown := (h.perform hok).isSome_shown?_iff hb hr
    (ValueRow.isFor_iff.mpr ⟨hrowner, hrid.trans hid⟩)
  rw [hslug, hrcell] at hshown
  refine ⟨_, ?_, ?_, ?_, ?_, hshown⟩
  · exact htype
  · exact hset
  · exact hallowed
  · exact hstays

/-- A retype hides nothing but what the new type cannot read: a record or an entry that showed a
value under the old slug shows one under the new slug, unless dates become timestamps or structured
values become names or locations; and then just if the type that the attribute has now reads what
is stored. -/
theorem shown_after_iff (h : s.Reachable) {a : AttributeHead} (ha : a ∈ s.attributes)
    {changes : AttributeChanges} (hset : changes.isSet.getD a.isSet = a.isSet) {setup : Setup}
    {stamp : Stamp} {answer : Answer}
    (hok : s.perform setup stamp (.updateAttribute a.id changes) = .ok (answer, t)) {owner : Id}
    (hshown : (s.shown? a.parent owner a.slug).isSome = true) :
    (¬ a.type.Narrows (changes.retyped a).type →
      (t.shown? a.parent owner (changes.slug.getD a.slug)).isSome = true) ∧
    ((t.shown? a.parent owner (changes.slug.getD a.slug)).isSome = true ↔
      ∀ row ∈ s.values a.parent.valueTable, row.isFor owner a.id = true →
        (changes.retyped a).type.Reads row.cell.kept) := by
  obtain ⟨v, hv⟩ := Option.isSome_iff_exists.mp hshown
  obtain ⟨row, hrow, hfor, hdecoded⟩ := (h.shown?_eq_some_iff ha).mp hv
  obtain ⟨rfl, hid⟩ := ValueRow.isFor_iff.mp hfor
  obtain ⟨b, htype, hbset, hallowed, hstays, hafter⟩ := exists_retyped h ha hok hrow hid
  have hsame : b.isSet = (s.withChoices a).isSet := hbset.trans hset
  have hreads := hafter.trans (exists_decodeCell_iff_reads hdecoded hsame hallowed hstays)
  rw [← htype]
  refine ⟨fun hkeeps => hreads.mpr ?_, hreads.trans ⟨fun hread r hr hrfor => ?_, ?_⟩⟩
  · exact reads_of_decodeCell hdecoded hsame hallowed hstays hkeeps
  · rwa [h.sound.indexed.eq_of_isFor hr hrow hrfor hfor]
  · exact fun hall => hall row hrow hfor

/-! ### A note that is no name -/

def exampleNotes : AttributeHead :=
  ⟨exampleId 6 0, .object (exampleId 0 0), "note", "Note", .interaction, .obj [], false, false,
    false, false, 1, ⟨6⟩⟩

def exampleNote : Json := .obj [("firstName", .int 1)]

/-- Gives deals an attribute for notes, and the first deal a note. -/
def exampleNoting : List Step := [
  exampleStep 6 (.createAttribute (.plain (.object (exampleId 0 0)) "note" "Note" .interaction)),
  exampleStep 7 (.updateRecord ⟨exampleId 0 0, exampleId 2 0, [("note", exampleNote)], none⟩)]

def exampleNoted : Store := { exampleStore with
  attributes := exampleStore.attributes ++ [exampleNotes]
  records := [⟨exampleId 2 0, exampleId 0 0, none, ⟨2⟩, none, ⟨7⟩⟩,
    ⟨exampleId 3 0, exampleId 0 0, none, ⟨3⟩, none, ⟨3⟩⟩]
  recordValues := exampleStore.recordValues ++
    [⟨exampleId 2 0, exampleId 6 0, .structured exampleNote, none⟩] }

theorem run_exampleNoting : exampleStore.run exampleNoting = exampleNoted := by cbv

theorem reachable_exampleNoted : exampleNoted.Reachable :=
  run_exampleNoting ▸ reachable_exampleStore.run exampleNoting

theorem mem_exampleNoted : exampleNotes ∈ exampleNoted.attributes :=
  List.mem_append_right _ (.head _)

theorem shown?_exampleNoted :
    (exampleNoted.shown? exampleNotes.parent (exampleId 2 0) exampleNotes.slug).isSome = true := by
  cbv

/-- Makes memos of a type of the notes. -/
def toMemos (type : ValueType) : AttributeChanges :=
  ⟨some "memo", none, some type, none, none, none, none, none⟩

def exampleMemos (type : ValueType) : Step :=
  exampleStep 8 (.updateAttribute exampleNotes.id (toMemos type))

/-- As a location the note is shown still: it has no part of one. -/
theorem shown_after_memos :
    exampleNoted.Reachable ∧ exampleNotes ∈ exampleNoted.attributes ∧
      (exampleNoted.shown? exampleNotes.parent (exampleId 2 0) exampleNotes.slug).isSome = true ∧
      ∃ answer t, exampleNoted.perform (exampleMemos .location).setup
        (exampleMemos .location).stamp (exampleMemos .location).call = .ok (answer, t) ∧
          (t.shown? exampleNotes.parent (exampleId 2 0) "memo").isSome = true := by
  have hok : ∃ answer t, exampleNoted.perform (exampleMemos .location).setup
      (exampleMemos .location).stamp (exampleMemos .location).call = .ok (answer, t) :=
    ⟨_, _, by cbv⟩
  obtain ⟨answer, t, hok⟩ := hok
  refine ⟨reachable_exampleNoted, mem_exampleNoted, shown?_exampleNoted, answer, t, hok, ?_⟩
  refine (shown_after_iff reachable_exampleNoted mem_exampleNoted rfl hok
    shown?_exampleNoted).2.mpr fun row hrow hfor => ?_
  have hnote : row.cell = .structured exampleNote := by
    simp only [exampleNotes, Parent.valueTable, values, exampleNoted, exampleStore,
      List.cons_append, List.nil_append, List.mem_cons, List.not_mem_nil, or_false] at hrow
    rcases hrow with rfl | rfl | rfl
    · exact absurd hfor (by decide)
    · exact absurd hfor (by decide)
    · rfl
  rw [hnote]
  refine ⟨?_, fun _ => by cbv⟩
  rintro ⟨⟩

/-- As a name it is not shown any more: the first name is no text. -/
theorem shown_after_memos_eq_none :
    exampleNoted.Reachable ∧ exampleNotes ∈ exampleNoted.attributes ∧
      (toMemos .personalName).isSet.getD exampleNotes.isSet = exampleNotes.isSet ∧
      (exampleNoted.shown? exampleNotes.parent (exampleId 2 0) exampleNotes.slug).isSome = true ∧
      ∃ answer t, exampleNoted.perform (exampleMemos .personalName).setup
        (exampleMemos .personalName).stamp (exampleMemos .personalName).call = .ok (answer, t) ∧
          (t.shown? exampleNotes.parent (exampleId 2 0) "memo").isSome = false := by
  refine ⟨reachable_exampleNoted, mem_exampleNoted, rfl, shown?_exampleNoted, ?_⟩
  exact ⟨_, _, by cbv, by cbv⟩

end Store

end RecordStore
