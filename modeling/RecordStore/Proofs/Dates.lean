import RecordStore.Calendar.Date

/-!
# Dates and their day numbers

A year is found from the mean length of years and set right by one; its months are then gone
through in turn. Main statement: the date found for the number of a day is one of the calendar, and
has that number.
-/

namespace RecordStore.Calendar

/-! ### Years -/

theorem daysBeforeYear_succ (year : Int) :
    daysBeforeYear (year + 1) = daysBeforeYear year + 365 + (if isLeap year then 1 else 0) := by
  have hleap : isLeap year = true ↔ year % 4 = 0 ∧ (year % 100 ≠ 0 ∨ year % 400 = 0) := by
    simp [isLeap]
  split <;> rename_i h <;> rw [hleap] at h <;> rw [daysBeforeYear, daysBeforeYear] <;> omega

theorem daysBeforeYear_le {year later : Int} (h : year ≤ later) :
    daysBeforeYear year ≤ daysBeforeYear later := by
  rw [daysBeforeYear, daysBeforeYear]
  omega

/-- A day lies in its year. -/
theorem yearOf_spec (days : Int) :
    daysBeforeYear (yearOf days) ≤ days ∧ days < daysBeforeYear (yearOf days + 1) := by
  rw [yearOf]
  generalize hguess : 400 * days / 146097 = guess
  have hlow : daysBeforeYear (guess - 1) ≤ days := by
    rw [daysBeforeYear]
    omega
  have hhigh : days < daysBeforeYear (guess + 1 + 1) := by
    rw [daysBeforeYear]
    omega
  split
  · rename_i hbefore
    exact ⟨hlow, by rwa [Int.sub_add_cancel]⟩
  · rename_i hfrom
    split
    · rename_i hafter
      exact ⟨hafter, hhigh⟩
    · rename_i hto
      exact ⟨Int.not_lt.mp hfrom, Int.not_le.mp hto⟩

/-! ### Months -/

theorem daysBeforeMonth_succ (year : Int) {month : Nat} (h : 1 ≤ month) :
    daysBeforeMonth year (month + 1) = daysBeforeMonth year month + daysInMonth year month := by
  obtain ⟨m, rfl⟩ : ∃ m, month = m + 1 := ⟨month - 1, by omega⟩
  simp only [daysBeforeMonth, Nat.add_sub_cancel, List.range_succ, List.foldl_append,
    List.foldl_cons, List.foldl_nil]

theorem daysBeforeMonth_thirteen (year : Int) :
    daysBeforeMonth year 13 = 365 + (if isLeap year then 1 else 0) := by
  cases h : isLeap year <;> simp [daysBeforeMonth, List.range_succ, daysInMonth, h]

theorem daysBeforeMonth_le (year : Int) {month later : Nat} (h : month ≤ later) :
    daysBeforeMonth year month ≤ daysBeforeMonth year later := by
  induction h with
  | refl => exact Nat.le_refl _
  | @step m _ ih =>
    rcases Nat.eq_zero_or_pos m with rfl | hm
    · exact ih
    · rw [daysBeforeMonth_succ year hm]
      omega

/-- A day of the months ahead lies in the month it is put in. -/
theorem splitMonths_spec (year : Int) (n : Nat) {m left : Nat} (hm : 1 ≤ m) (hn : m + n = 13)
    (hleft : daysBeforeMonth year m + left < daysBeforeMonth year 13) :
    ∃ month day, splitMonths year left (List.range' m n) = (month, day) ∧
      1 ≤ month ∧ month ≤ 12 ∧ 1 ≤ day ∧ day ≤ daysInMonth year month ∧
      daysBeforeMonth year month + day = daysBeforeMonth year m + left + 1 := by
  induction n generalizing m left with
  | zero =>
    have hm13 : m = 13 := hn
    subst hm13
    omega
  | succ n ih =>
    rw [List.range'_succ, splitMonths]
    split
    · exact ⟨m, left + 1, rfl, hm, by omega, by omega, by omega, by omega⟩
    · have hnext := daysBeforeMonth_succ year hm
      have hleft' : daysBeforeMonth year (m + 1) + (left - daysInMonth year m) <
          daysBeforeMonth year 13 := by omega
      obtain ⟨month, day, hsplit, hmonth, hlast, hday, hfits, hsum⟩ :=
        ih (by omega) (by omega) hleft'
      exact ⟨month, day, hsplit, hmonth, hlast, hday, hfits, by omega⟩

/-! ### Days -/

namespace Date

theorem isValid_iff {d : Date} : d.isValid = true ↔
    1 ≤ d.month ∧ d.month ≤ 12 ∧ 1 ≤ d.day ∧ d.day ≤ daysInMonth d.year d.month := by
  simp [isValid, and_assoc]

/-- The days of a year have the numbers from its first one on. -/
theorem toDays_bounds {d : Date} (h : d.isValid = true) :
    daysBeforeYear d.year ≤ d.toDays + epochDays ∧
      d.toDays + epochDays < daysBeforeYear (d.year + 1) := by
  obtain ⟨hmonth, hlast, hday, hfits⟩ := isValid_iff.mp h
  have hnext := daysBeforeMonth_succ d.year hmonth
  have hyear : daysBeforeMonth d.year (d.month + 1) ≤ daysBeforeMonth d.year 13 :=
    daysBeforeMonth_le d.year (Nat.succ_le_succ hlast)
  rw [daysBeforeMonth_thirteen] at hyear
  rw [daysBeforeYear_succ, toDays]
  split at hyear <;> rename_i hleap
  · rw [if_pos hleap]
    omega
  · rw [if_neg hleap]
    omega

theorem year_ofDays (days : Int) : (ofDays days).year = yearOf (days + epochDays) := rfl

/-- The date of a day is a date of the calendar, and that day. -/
theorem ofDays_spec (days : Int) : (ofDays days).isValid = true ∧ (ofDays days).toDays = days := by
  obtain ⟨hfrom, hto⟩ := yearOf_spec (days + epochDays)
  generalize hyear : yearOf (days + epochDays) = year at hfrom hto
  rw [daysBeforeYear_succ] at hto
  have hleft : daysBeforeMonth year 1 + (days + epochDays - daysBeforeYear year).toNat <
      daysBeforeMonth year 13 := by
    rw [daysBeforeMonth_thirteen, show daysBeforeMonth year 1 = 0 from rfl]
    split at hto <;> rename_i hleap <;> simp only [hleap, if_true] <;> omega
  obtain ⟨month, day, hsplit, hmonth, hlast, hday, hfits, hsum⟩ :=
    splitMonths_spec year 12 (Nat.le_refl 1) rfl hleft
  have hdate : ofDays days = ⟨year, month, day⟩ := by
    have hsplit' : splitMonths year (days + epochDays - daysBeforeYear year).toNat
        [1, 2, 3, 4, 5, 6, 7, 8, 9, 10, 11, 12] = (month, day) := hsplit
    simp only [ofDays, hyear, hsplit']
  rw [hdate, isValid_iff]
  refine ⟨⟨hmonth, hlast, hday, hfits⟩, ?_⟩
  rw [toDays]
  rw [show daysBeforeMonth year 1 = 0 from rfl] at hsum
  dsimp only
  omega

end Date

end RecordStore.Calendar
