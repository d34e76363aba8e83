import Mathlib
import RecordStore.Proofs.WrittenBack

/-!
# Stored values shown

A value that is accepted is stored in a cell that views then read. Main statement: of every type but
timestamp, what is accepted can be shown; an accepted instant is shown just when it lies in the
years that timestamps are written of, and bare dates and offsets reach beyond them.
-/

namespace RecordStore

/-! ### Single values -/

theorem ValueType.slot_eq_date_iff {type : ValueType} :
    type.slot = .date ↔ type = .date ∨ type = .timestamp := by
  cases type <;> decide

section

variable {a : Attribute} {raw : Json} {cell : Cell}

/-- What lies in a slot of plain content is read under every type of that slot. -/
theorem exists_decodeSingle {type : ValueType} (hslot : cell.slot = type.slot)
    (hdate : type.slot ≠ .date) (hstructured : type.slot ≠ .structured) :
    ∃ v, decodeSingle type cell = .ok v := by
  have hin : ¬ cell.slot ≠ type.slot := not_not.mpr hslot
  cases cell with
  | text s => exact ⟨_, if_neg hin⟩
  | boolean b => exact ⟨_, if_neg hin⟩
  | reference id => exact ⟨_, if_neg hin⟩
  | number value unit =>
    rw [decodeSingle, if_neg hin]
    split
    · exact ⟨_, rfl⟩
    · exact ⟨_, rfl⟩
  | date micros => exact absurd hslot.symm hdate
  | structured j => exact absurd hslot.symm hstructured

theorem exists_decodeSingle_of_encodeName (h : encodeName a raw = .ok (some cell)) :
    ∃ v, decodeSingle .personalName cell = .ok v := by
  obtain ⟨name, -, rfl⟩ := exists_of_encodeName h
  refine ⟨.personalName name.normalized, ?_⟩
  simp only [decodeSingle, PersonalName.ofJson?_toJson]
  rfl

theorem exists_decodeSingle_of_encodeLocation (h : encodeLocation a raw = .ok (some cell)) :
    ∃ v, decodeSingle .location cell = .ok v := by
  obtain ⟨place, -, rfl⟩ := exists_of_encodeLocation h
  refine ⟨.location place.normalized, ?_⟩
  simp only [decodeSingle, Location.ofJson?_toJson]
  rfl

theorem exists_decodeSingle_of_interaction (htype : a.type = .interaction)
    (h : encodeSingle a raw = .ok (some cell)) : ∃ v, decodeSingle .interaction cell = .ok v := by
  simp only [encodeSingle, htype] at h
  split at h <;> cases h
  exact ⟨.json raw, rfl⟩

theorem exists_decodeSingle_of_date (htype : a.type = .date)
    (h : encodeSingle a raw = .ok (some cell)) : ∃ v, decodeSingle .date cell = .ok v := by
  simp only [encodeSingle, htype] at h
  obtain ⟨text, -, h⟩ := bind_eq_ok_iff.mp h
  obtain ⟨micros, hparse, h⟩ := bind_eq_ok_iff.mp h
  cases h
  obtain ⟨s, hs⟩ := Calendar.exists_formatDate (Calendar.inCalendar_of_parseDate hparse)
  exact ⟨.date s, map_eq_ok_iff.mpr ⟨s, hs, rfl⟩⟩

theorem exists_date_of_timestamp (htype : a.type = .timestamp)
    (h : encodeSingle a raw = .ok (some cell)) : ∃ micros, cell = .date micros := by
  simp only [encodeSingle, htype] at h
  obtain ⟨text, -, h⟩ := bind_eq_ok_iff.mp h
  obtain ⟨micros, -, h⟩ := bind_eq_ok_iff.mp h
  cases h
  exact ⟨micros, rfl⟩

/-- An instant is shown just when it has a timestamp. -/
theorem exists_decodeSingle_timestamp_iff {micros : Int} :
    (∃ v, decodeSingle .timestamp (.date micros) = .ok v) ↔
      Calendar.firstStamp ≤ micros ∧ micros ≤ Calendar.lastInstant := by
  rw [← Calendar.formatTimestamp_ok_iff]
  constructor
  · rintro ⟨v, hv⟩
    obtain ⟨s, hs, -⟩ := map_eq_ok_iff.mp hv
    exact ⟨s, hs⟩
  · rintro ⟨s, hs⟩
    exact ⟨.date s, map_eq_ok_iff.mpr ⟨s, hs, rfl⟩⟩

/-- A single value that is accepted can be shown, whatever its type but timestamp. -/
theorem exists_decodeSingle_of_encodeSingle (htype : a.type ≠ .timestamp)
    (h : encodeSingle a raw = .ok (some cell)) : ∃ v, decodeSingle a.type cell = .ok v := by
  have hslot := slot_of_encodeSingle h
  cases ht : a.type with
  | timestamp => exact absurd ht htype
  | personalName =>
    simp only [encodeSingle, ht] at h
    exact exists_decodeSingle_of_encodeName h
  | location =>
    simp only [encodeSingle, ht] at h
    exact exists_decodeSingle_of_encodeLocation h
  | interaction => exact exists_decodeSingle_of_interaction ht h
  | date => exact exists_decodeSingle_of_date ht h
  | _ =>
    rw [ht] at hslot
    exact exists_decodeSingle hslot (by decide) (by decide)

/-! ### Sets -/

theorem decodeMember_of_encodeMember {item member : Json} (hset : a.type.allowsSets = true)
    (h : encodeMember a item = .ok (some member)) : decodeMember a.type member = .ok member := by
  obtain ⟨-, c, v, -, hv, rfl⟩ := exists_of_encodeMember h
  exact decodeMember_toJson hset hv

/-- A set of collected members is shown as it is stored. -/
theorem decodeCell_of_collectMembers {items members : List Json} (hisSet : a.isSet = true)
    (hset : a.type.allowsSets = true) (h : collectMembers a [] items = .ok members) :
    decodeCell a (.structured (.arr members)) = .ok (.set members) := by
  have hmembers : ∀ m ∈ members, decodeMember a.type m = .ok m := by
    intro m hm
    obtain ⟨item, -, hmade⟩ := exists_item_of_collectMembers h hm
    exact decodeMember_of_encodeMember hset hmade
  rw [decodeCell, if_pos hisSet, mapM_decodeMember hmembers]
  rfl

/-- Members of sets of texts are read as they are. -/
theorem decodeCell_set_of_text (hisSet : a.isSet = true) (hslot : a.type.slot = .text)
    (items : List Json) : decodeCell a (.structured (.arr items)) = .ok (.set items) := by
  have hmember : ∀ m ∈ items, decodeMember a.type m = .ok m := by
    intro m _
    simp [decodeMember, hslot]
  rw [decodeCell, if_pos hisSet, mapM_decodeMember hmember]
  rfl

theorem exists_of_decodeCell_set (hisSet : a.isSet = true) {v : Value}
    (h : decodeCell a cell = .ok v) :
    ∃ items, cell = .structured (.arr items) := by
  unfold decodeCell at h
  rw [if_pos hisSet] at h
  split at h
  · exact ⟨_, rfl⟩
  · cases h

/-! ### Values -/

/-- What is accepted for an attribute can be shown, except for instants outside the years that
timestamps are written of. -/
theorem exists_decodeCell_iff (hset : a.isSet = true → a.type.allowsSets = true)
    (h : encodeValue a raw = .ok (some cell)) :
    (∃ v, decodeCell a cell = .ok v) ↔
      ∀ micros, a.type = .timestamp → cell = .date micros →
        Calendar.firstStamp ≤ micros ∧ micros ≤ Calendar.lastInstant := by
  rcases (encodeValue_cases h).2 with ⟨hisSet, items, m, rest, hmembers, rfl⟩ | ⟨hsingle, h⟩
  · have hshown := decodeCell_of_collectMembers hisSet (hset hisSet) hmembers
    refine ⟨fun _ micros _ hcell => ?_, fun _ => ⟨_, hshown⟩⟩
    cases hcell
  · rw [decodeCell_of_single hsingle]
    by_cases htype : a.type = .timestamp
    · obtain ⟨micros, rfl⟩ := exists_date_of_timestamp htype h
      rw [htype, exists_decodeSingle_timestamp_iff]
      constructor
      · rintro hbounds _ - ⟨⟩
        exact hbounds
      · exact fun hbounds => hbounds micros rfl rfl
    · have hshown := exists_decodeSingle_of_encodeSingle htype h
      exact ⟨fun _ _ ht => absurd ht htype, fun _ => hshown⟩

end

/-- A bare date stands for the first instant of its day. -/
theorem encodeValue_departure_of_bareDate {s : String} {day : Int} (htrim : Text.trim s = s)
    (hblank : Text.isBlank s = false) (hstamp : Calendar.rfc3339? s.toList = none)
    (hday : Calendar.bareDate? s.toList = some day) :
    encodeValue departure (.str s) = .ok (some (.date (day * Calendar.microsPerDay))) := by
  have hparse : Calendar.parseTimestamp s = .ok (day * Calendar.microsPerDay) := by
    simp only [Calendar.parseTimestamp, htrim, hstamp, hday]
  refine (encodeValue_of_single (by decide) ((Json.isBlank_str s).trans hblank)).trans ?_
  exact bind_eq_ok_iff.mpr ⟨s, rfl, bind_eq_ok_iff.mpr ⟨_, hparse, rfl⟩⟩

/-- The first instant of year 0 is accepted, and shown. -/
theorem exists_decodeCell_departure :
    encodeValue departure (.str "0000-01-01") =
        .ok (some (.date (-719528 * Calendar.microsPerDay))) ∧
      ∃ v, decodeCell departure (.date (-719528 * Calendar.microsPerDay)) = .ok v := by
  have hencode : encodeValue departure (.str "0000-01-01") =
      .ok (some (.date (-719528 * Calendar.microsPerDay))) :=
    encodeValue_departure_of_bareDate (by cbv) (by cbv) (by cbv) (by decide +kernel)
  refine ⟨hencode, (exists_decodeCell_iff (by decide) hencode).mpr ?_⟩
  rintro _ - ⟨⟩
  decide

/-- The first day of the year before is accepted as well, and cannot be shown. -/
theorem decodeCell_departure_eq_error :
    encodeValue departure (.str "-0001-01-01") =
        .ok (some (.date (-719893 * Calendar.microsPerDay))) ∧
      decodeCell departure (.date (-719893 * Calendar.microsPerDay)) =
        .error (.storage .unwritableInstant) := by
  refine ⟨encodeValue_departure_of_bareDate (by cbv) (by cbv) (by cbv) (by decide +kernel), ?_⟩
  cbv

end RecordStore
