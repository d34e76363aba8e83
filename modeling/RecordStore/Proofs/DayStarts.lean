import RecordStore.Proofs.Instants

/-!
# The day of an instant

What is written of an instant as a date is the day that it lies in, and what is read of a timestamp
as a date is the day of the exact instant. Main statements: dates and timestamps are read back from
what is written of them, a date as the first instant of its day whichever way it is read; and of a
text that is both, the date is the day of the timestamp, but where cutting the timestamp towards
zero has led out of the day.
-/

namespace RecordStore.Calendar

/-! ### Days -/

/-- The first instant of the day that an instant lies in. -/
def dayStart (micros : Int) : Int := micros / microsPerDay * microsPerDay

/-- The first instant of a day is a whole number of days, and the day lasts from it on. -/
theorem eq_dayStart_iff {start micros : Int} : start = dayStart micros ↔
    microsPerDay ∣ start ∧ start ≤ micros ∧ micros < start + microsPerDay := by
  rw [dayStart, microsPerDay]
  omega

theorem dayStart_of_day (day : Int) : dayStart (day * microsPerDay) = day * microsPerDay := by
  rw [dayStart, microsPerDay]
  omega

/-! ### One text, one reading -/

theorem digits?_of_not_isDigit {n : Nat} {c : Char} {cs : List Char} (hn : 0 < n)
    (hc : c.isDigit = false) : digits? n (c :: cs) = none := by
  obtain ⟨m, rfl⟩ : ∃ m, n = m + 1 := ⟨n - 1, by omega⟩
  simp [digits?, hc]

theorem rfc3339?_of_not_isDigit {c : Char} {cs : List Char} (hc : c.isDigit = false) :
    rfc3339? (c :: cs) = none := by
  rw [rfc3339?, digits?_of_not_isDigit (by decide : 0 < 4) hc]
  rfl

/-- A bare date is no timestamp: it ends before the time of day. -/
theorem rfc3339?_of_bareDate? {cs : List Char} {day : Int} (h : bareDate? cs = some day) :
    rfc3339? cs = none := by
  unfold bareDate? at h
  split at h
  rename_i negative body hsign
  split at hsign
  · exact rfc3339?_of_not_isDigit (by decide)
  · exact rfc3339?_of_not_isDigit (by decide)
  · cases hsign
    simp only [Option.bind_eq_bind, Option.bind_eq_some_iff] at h
    obtain ⟨⟨year, rest⟩, hyear, ⟨d, left⟩, hdate, h⟩ := h
    dsimp only at h
    split at h
    · rename_i hend
      have hleft : left = [] := List.isEmpty_iff.mp hend
      subst hleft
      have hdate' : monthAndDay? (year : Int) rest = some (d, []) := hdate
      simp only [rfc3339?, hyear, hdate', separated?, Option.bind_eq_bind, Option.bind_some,
        Option.bind_none]
    · cases h

/-! ### Dates as written -/

theorem parseTimestamp_of_bareDate? {s : String} {day : Int}
    (h : bareDate? (Text.trimChars s.toList) = some day) :
    parseTimestamp s = .ok (day * microsPerDay) := by
  rw [parseTimestamp, Text.toList_trim, rfc3339?_of_bareDate? h, h]

/-- A date that can be written is read as a timestamp at the start of its day. -/
theorem parseTimestamp_of_formatDate {micros : Int} {s : String} (h : formatDate micros = .ok s) :
    parseTimestamp s = .ok (dayStart micros) := by
  rw [formatDate] at h
  split at h
  · rename_i hin
    cases h
    obtain ⟨hvalid, hdays⟩ := Date.ofDays_spec (micros / microsPerDay)
    refine parseTimestamp_of_bareDate? ?_
    rw [String.toList_ofList, Text.trimChars_of_forall fun c => isSpace_of_mem_dateChars,
      bareDate?_dateChars hvalid (year_ofDays_bounds hin), hdays]
  · cases h

/-- Which instants have a timestamp and which a date, and that both are read back: the timestamp as
the instant itself, the date as the first instant of its day, also before 1970. -/
theorem forms_read_back (micros : Int) :
    ((∃ s, formatTimestamp micros = .ok s) ↔ firstStamp ≤ micros ∧ micros ≤ lastInstant) ∧
    ((∃ s, formatDate micros = .ok s) ↔ firstInstant ≤ micros ∧ micros ≤ lastInstant) ∧
    (∀ s, formatTimestamp micros = .ok s → parseTimestamp s = .ok micros) ∧
    ∀ s, formatDate micros = .ok s →
      parseDate s = .ok (dayStart micros) ∧ parseTimestamp s = .ok (dayStart micros) := by
  refine ⟨formatTimestamp_ok_iff, ?_, fun s => parseTimestamp_of_formatTimestamp,
    fun s h => ⟨parseDate_of_formatDate h, parseTimestamp_of_formatDate h⟩⟩
  rw [← inCalendar_iff]
  refine ⟨fun ⟨s, h⟩ => ?_, exists_formatDate⟩
  rw [formatDate] at h
  split at h
  · assumption
  · cases h

/-- The last microsecond before 1970 has its fraction written, and lies on the last day of 1969. -/
theorem forms_read_back_eve :
    formatTimestamp (-1) = .ok "1969-12-31T23:59:59.999999Z" ∧
    parseTimestamp "1969-12-31T23:59:59.999999Z" = .ok (-1) ∧
    formatDate (-1) = .ok "1969-12-31" ∧
    parseDate "1969-12-31" = .ok (-86400000000) ∧
    parseTimestamp "1969-12-31" = .ok (-86400000000) := by
  have hstamp : formatTimestamp (-1) = .ok "1969-12-31T23:59:59.999999Z" := by cbv
  have hdate : formatDate (-1) = .ok "1969-12-31" := by cbv
  obtain ⟨-, -, hinstant, hday⟩ := forms_read_back (-1)
  exact ⟨hstamp, hinstant _ hstamp, hdate, hday _ hdate⟩

/-! ### The day of a timestamp -/

/-- The text is a timestamp from before 1970 within the last microsecond of a day. Cut towards zero
it becomes the first instant of the next day. -/
def CutAcross (s : String) : Prop :=
  ∃ nanos, rfc3339? (Text.trimChars s.toList) = some nanos ∧ nanos < 0 ∧
    nanosPerDay - 1000 < nanos % nanosPerDay

/-- Cutting nanoseconds towards zero stays within the day, but within the last microsecond of a day
before 1970. -/
theorem dayStart_tdiv_iff (nanos : Int) :
    nanos / nanosPerDay * microsPerDay = dayStart (nanos.tdiv 1000) ↔
      ¬ (nanos < 0 ∧ nanosPerDay - 1000 < nanos % nanosPerDay) := by
  have hsign : Int.sign 1000 = 1 := rfl
  rw [eq_dayStart_iff, microsPerDay, nanosPerDay, Int.tdiv_eq_ediv, hsign]
  split <;> omega

theorem tdiv_of_cut {nanos : Int} (hneg : nanos < 0)
    (hlate : nanosPerDay - 1000 < nanos % nanosPerDay) :
    nanos.tdiv 1000 = nanos / nanosPerDay * microsPerDay + microsPerDay := by
  have hsign : Int.sign 1000 = 1 := rfl
  rw [nanosPerDay] at hlate
  rw [microsPerDay, nanosPerDay, Int.tdiv_eq_ediv, hsign]
  split <;> omega

theorem parseTimestamp_of_rfc3339? {s : String} {nanos : Int}
    (h : rfc3339? (Text.trimChars s.toList) = some nanos) :
    parseTimestamp s = .ok (nanos.tdiv 1000) := by
  rw [parseTimestamp, Text.toList_trim, h]

theorem parseDate_of_rfc3339? {s : String} {nanos : Int}
    (h : rfc3339? (Text.trimChars s.toList) = some nanos) :
    parseDate s = if inCalendar (nanos / nanosPerDay * microsPerDay) then
      .ok (nanos / nanosPerDay * microsPerDay) else .error .calendarOverflow := by
  have hbare : bareDate? (Text.trimChars s.toList) = none := by
    rw [Option.eq_none_iff_forall_ne_some]
    intro day hday
    cases (rfc3339?_of_bareDate? hday).symm.trans h
  simp only [parseDate, Text.toList_trim, hbare, h, inCalendar_iff]

/-- A text that is read both as a date and as a timestamp is a bare date, or both read one instant,
of which the date keeps the day and the timestamp the microseconds. -/
theorem readings_cases {s : String} {start micros : Int} (hdate : parseDate s = .ok start)
    (hstamp : parseTimestamp s = .ok micros) :
    (rfc3339? (Text.trimChars s.toList) = none ∧
      ∃ day, start = day * microsPerDay ∧ micros = day * microsPerDay) ∨
    ∃ nanos, rfc3339? (Text.trimChars s.toList) = some nanos ∧
      start = nanos / nanosPerDay * microsPerDay ∧ micros = nanos.tdiv 1000 := by
  cases hfull : rfc3339? (Text.trimChars s.toList) with
  | some nanos =>
    rw [parseTimestamp_of_rfc3339? hfull] at hstamp
    rw [parseDate_of_rfc3339? hfull] at hdate
    split at hdate <;> cases hdate
    cases hstamp
    exact .inr ⟨nanos, rfl, rfl, rfl⟩
  | none =>
    cases hbare : bareDate? (Text.trimChars s.toList) with
    | some day =>
      rw [parseTimestamp_of_bareDate? hbare] at hstamp
      rw [parseDate, Text.toList_trim, hbare] at hdate
      cases hstamp
      cases hdate
      exact .inl ⟨rfl, day, rfl, rfl⟩
    | none =>
      rw [parseDate, Text.toList_trim, hbare, hfull] at hdate
      cases hdate

/-- Read as a date, a text stands for the day of the instant that it is read as, but where cutting
has led that instant into the next day; then it stands for the day before. -/
theorem date_of_timestamp_iff {s : String} {start micros : Int} (hdate : parseDate s = .ok start)
    (hstamp : parseTimestamp s = .ok micros) :
    (start = dayStart micros ↔ ¬ CutAcross s) ∧
      (CutAcross s → micros = start + microsPerDay) := by
  rcases readings_cases hdate hstamp with ⟨hnone, day, rfl, rfl⟩ | ⟨nanos, hsome, rfl, rfl⟩
  · have hcut : ¬ CutAcross s := by
      rintro ⟨nanos, hsome, -⟩
      cases hnone.symm.trans hsome
    exact ⟨iff_of_true (dayStart_of_day day).symm hcut, fun h => absurd h hcut⟩
  · have hcut : CutAcross s ↔ nanos < 0 ∧ nanosPerDay - 1000 < nanos % nanosPerDay := by
      refine ⟨fun ⟨n, hn, hlate⟩ => ?_, fun h => ⟨nanos, hsome, h⟩⟩
      cases hsome.symm.trans hn
      exact hlate
    rw [hcut]
    exact ⟨dayStart_tdiv_iff nanos, fun ⟨hneg, hlate⟩ => tdiv_of_cut hneg hlate⟩

/-- Half an hour before midnight, an hour west: the instant lies on the next day, and so does the
date. -/
theorem date_of_timestamp_west :
    parseDate "1969-12-30T23:30:00.0000005-01:00" = .ok (-86400000000) ∧
    parseTimestamp "1969-12-30T23:30:00.0000005-01:00" = .ok (-84599999999) ∧
    -86400000000 = dayStart (-84599999999) := by
  have hnanos : rfc3339? (Text.trimChars "1969-12-30T23:30:00.0000005-01:00".toList) =
      some (-84599999999500) := by decide +kernel
  have hdate := parseDate_of_rfc3339? hnanos
  have hstamp := parseTimestamp_of_rfc3339? hnanos
  refine ⟨hdate, hstamp, (date_of_timestamp_iff hdate hstamp).1.mpr ?_⟩
  rintro ⟨nanos, hcut, -, hlate⟩
  cases hnanos.symm.trans hcut
  exact absurd hlate (by decide)

/-- A tenth of a microsecond before 1970 is read as a date in 1969, and as the first instant of
1970. -/
theorem date_ne_day_of_timestamp :
    parseDate "1969-12-31T23:59:59.9999999Z" = .ok (-86400000000) ∧
    parseTimestamp "1969-12-31T23:59:59.9999999Z" = .ok 0 ∧
    -86400000000 ≠ dayStart 0 := by
  have hnanos : rfc3339? (Text.trimChars "1969-12-31T23:59:59.9999999Z".toList) =
      some (-100) := by decide +kernel
  exact ⟨parseDate_of_rfc3339? hnanos, parseTimestamp_of_rfc3339? hnanos, by decide⟩

end RecordStore.Calendar
