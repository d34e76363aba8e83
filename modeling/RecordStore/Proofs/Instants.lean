import RecordStore.Calendar.Instant
import RecordStore.Proofs.Dates

/-!
# Dates and timestamps read back

Dates and timestamps are written in digits of fixed widths, the fraction of a second without zeros
at its end. Main statements: what is written of a day is read as its first instant, and what is
written of an instant is read as that instant. Whatever is read as a date can be written, but of
the instants that are read only those of the years 0 to 9999.
-/

namespace RecordStore.Calendar

/-! ### Digits -/

theorem ofDigitChars_replicate_zero (k n : Nat) :
    Nat.ofDigitChars 10 (List.replicate k '0') n = n * Nat.pow 10 k := by
  induction k generalizing n with
  | zero => simp
  | succ k ih =>
    have hzero : Nat.ofDigitChars 10 (List.replicate (k + 1) '0') n =
        Nat.ofDigitChars 10 (List.replicate k '0') (10 * n + 0) := rfl
    have hpow : Nat.pow 10 (k + 1) = 10 * Nat.pow 10 k := Nat.mul_comm _ _
    rw [hzero, ih, Nat.add_zero, hpow, ← Nat.mul_assoc, Nat.mul_comm n]

theorem isDigit_of_mem_padded {width n : Nat} {c : Char} (h : c ∈ padded width n) :
    c.isDigit = true := by
  rcases List.mem_append.mp h with hc | hc
  · rw [List.eq_of_mem_replicate hc]
    rfl
  · exact Nat.isDigit_of_mem_toDigits (by decide) (by decide) hc

theorem length_padded {width n : Nat} (hwidth : 0 < width) (h : n < Nat.pow 10 width) :
    (padded width n).length = width := by
  have hle := (Nat.length_toDigits_le_iff (by decide) hwidth).mpr h
  rw [padded, List.length_append, List.length_replicate]
  omega

theorem ofDigitChars_padded (width n : Nat) : Nat.ofDigitChars 10 (padded width n) 0 = n := by
  rw [padded, Nat.ofDigitChars_append, ofDigitChars_replicate_zero, Nat.zero_mul,
    Nat.ofDigitChars_toDigits (by decide) (by decide)]

/-- A number of a width is read back from its digits. -/
theorem digits?_padded {width n : Nat} (hwidth : 0 < width) (h : n < Nat.pow 10 width)
    (rest : List Char) : digits? width (padded width n ++ rest) = some (n, rest) := by
  have hlength := length_padded hwidth h
  have htake : (padded width n ++ rest).take width = padded width n := List.take_left' hlength
  have hdrop : (padded width n ++ rest).drop width = rest := List.drop_left' hlength
  rw [digits?, htake, hdrop, ofDigitChars_padded, if_pos]
  exact ⟨hlength, List.all_eq_true.mpr fun c hc => isDigit_of_mem_padded hc⟩

theorem ofDigitChars_lt {cs : List Char} (h : ∀ c ∈ cs, c.isDigit = true) (n : Nat) :
    Nat.ofDigitChars 10 cs n < (n + 1) * Nat.pow 10 cs.length := by
  induction cs generalizing n with
  | nil => exact Nat.lt_of_lt_of_eq (Nat.lt_succ_self n) (Nat.mul_one _).symm
  | cons c cs ih =>
    rw [List.forall_mem_cons] at h
    have hdigit : c.toNat - '0'.toNat ≤ 9 := by
      have hrange : 48 ≤ c.toNat ∧ c.toNat ≤ 57 := by
        simpa [Char.isDigit, UInt32.le_iff_toNat_le] using h.1
      rw [show '0'.toNat = 48 from rfl]
      omega
    calc Nat.ofDigitChars 10 (c :: cs) n
        = Nat.ofDigitChars 10 cs (10 * n + (c.toNat - '0'.toNat)) := Nat.ofDigitChars_cons
      _ < (10 * n + (c.toNat - '0'.toNat) + 1) * Nat.pow 10 cs.length := ih h.2 _
      _ ≤ (n + 1) * 10 * Nat.pow 10 cs.length := Nat.mul_le_mul_right _ (by omega)
      _ = (n + 1) * Nat.pow 10 (cs.length + 1) := by
        rw [Nat.mul_assoc]
        exact congrArg _ (Nat.mul_comm _ _)

theorem lt_of_digits? {n k : Nat} {cs rest : List Char} (h : digits? n cs = some (k, rest)) :
    k < Nat.pow 10 n := by
  rw [digits?] at h
  split at h
  · rename_i hdigits
    cases h
    have hlt := ofDigitChars_lt (List.all_eq_true.mp hdigits.2) 0
    rwa [hdigits.1, Nat.zero_add, Nat.one_mul] at hlt
  · cases h

theorem after?_cons (c : Char) (rest : List Char) : after? c (c :: rest) = some rest := if_pos rfl

/-! ### Dates -/

theorem daysInMonth_le (year : Int) (month : Nat) : daysInMonth year month ≤ 31 := by
  unfold daysInMonth
  split
  · split <;> decide
  all_goals decide

theorem monthAndDay?_eq_some {d : Date} (h : d.isValid = true) (rest : List Char) :
    monthAndDay? d.year ('-' :: (padded 2 d.month ++ '-' :: (padded 2 d.day ++ rest))) =
      some (d, rest) := by
  obtain ⟨-, hmonth, -, hday⟩ := Date.isValid_iff.mp h
  have hmonth' : d.month < 100 := by omega
  have hday' : d.day < 100 := by
    have := daysInMonth_le d.year d.month
    omega
  simp only [monthAndDay?, after?_cons, digits?_padded (by decide : 0 < 2) hmonth',
    digits?_padded (by decide : 0 < 2) hday', Option.bind_eq_bind, Option.bind_some, h, if_true]

theorem isDigit_head_padded (width n : Nat) :
    ∃ c cs, padded width n = c :: cs ∧ c.isDigit = true := by
  cases hchars : padded width n with
  | nil =>
    have hdigits : Nat.toDigits 10 n = [] := (List.append_eq_nil_iff.mp hchars).2
    exact absurd hdigits Nat.toDigits_ne_nil
  | cons c cs =>
    exact ⟨c, cs, rfl, isDigit_of_mem_padded (by rw [hchars]; exact .head cs)⟩

theorem bareDate?_minus (cs : List Char) :
    bareDate? ('-' :: cs) = (digits? 4 cs).bind fun p =>
      (monthAndDay? (-(p.1 : Int)) p.2).bind fun q =>
        if q.2.isEmpty then some q.1.toDays else none := rfl

theorem bareDate?_digit {c : Char} {cs : List Char} (hc : c.isDigit = true) :
    bareDate? (c :: cs) = (digits? 4 (c :: cs)).bind fun p =>
      (monthAndDay? (p.1 : Int) p.2).bind fun q =>
        if q.2.isEmpty then some q.1.toDays else none := by
  unfold bareDate?
  split
  rename_i negative body hsign
  have hbody : (negative, body) = (false, c :: cs) := by
    rw [← hsign]
    split
    · rename_i heq
      rw [(List.cons.inj heq).1] at hc
      exact absurd hc (by decide)
    · rename_i heq
      rw [(List.cons.inj heq).1] at hc
      exact absurd hc (by decide)
    · rfl
  cases hbody
  rfl

/-- A date is read back from what is written of it. -/
theorem bareDate?_dateChars {d : Date} (h : d.isValid = true) (hyear : d.year.natAbs < 10000) :
    bareDate? (dateChars d) = some d.toDays := by
  have hrest := monthAndDay?_eq_some h []
  have hdigits := digits?_padded (by decide : 0 < 4) hyear
    ('-' :: (padded 2 d.month ++ '-' :: (padded 2 d.day ++ [])))
  by_cases hneg : d.year < 0
  · have hchars : dateChars d = '-' :: (padded 4 d.year.natAbs ++
        '-' :: (padded 2 d.month ++ '-' :: (padded 2 d.day ++ []))) := by
      simp [dateChars, hneg]
    have hyear' : -((d.year.natAbs : Nat) : Int) = d.year := by omega
    rw [hchars, bareDate?_minus, hdigits, Option.bind_some, hyear', hrest, Option.bind_some]
    rfl
  · have hchars : dateChars d = padded 4 d.year.natAbs ++
        '-' :: (padded 2 d.month ++ '-' :: (padded 2 d.day ++ [])) := by
      simp [dateChars, hneg]
    have hyear' : ((d.year.natAbs : Nat) : Int) = d.year := by omega
    obtain ⟨c, cs, hcs, hc⟩ := isDigit_head_padded 4 d.year.natAbs
    rw [hcs] at hchars hdigits
    rw [hchars, List.cons_append, bareDate?_digit hc]
    rw [← List.cons_append, hdigits, Option.bind_some, hyear', hrest, Option.bind_some]
    rfl

theorem of_monthAndDay? {year : Int} {cs rest : List Char} {d : Date}
    (h : monthAndDay? year cs = some (d, rest)) : d.year = year ∧ d.isValid = true := by
  simp only [monthAndDay?, Option.bind_eq_bind, Option.bind_eq_some_iff] at h
  obtain ⟨_, -, ⟨month, _⟩, -, _, -, ⟨day, _⟩, -, h⟩ := h
  dsimp only at h
  split at h
  · rename_i hvalid
    cases h
    exact ⟨rfl, hvalid⟩
  · cases h

/-- A bare date names a day of the years that are written in four digits. -/
theorem exists_date_of_bareDate? {cs : List Char} {day : Int} (h : bareDate? cs = some day) :
    ∃ d : Date, d.isValid = true ∧ d.year.natAbs < 10000 ∧ d.toDays = day := by
  unfold bareDate? at h
  split at h
  rename_i negative body _
  simp only [Option.bind_eq_bind, Option.bind_eq_some_iff] at h
  obtain ⟨⟨year, _⟩, hyear, ⟨d, _⟩, hdate, h⟩ := h
  obtain ⟨hd, hvalid⟩ := of_monthAndDay? hdate
  have hlt : year < 10000 := lt_of_digits? hyear
  dsimp only at h
  split at h
  · cases h
    refine ⟨d, hvalid, ?_, rfl⟩
    rw [hd]
    split <;> omega
  · cases h

/-! ### Times -/

/-- Digits are those that are left without the zeros at their end, and these zeros. -/
theorem exists_zeros (cs : List Char) :
    ∃ k, cs = (cs.reverse.dropWhile (· == '0')).reverse ++ List.replicate k '0' := by
  have hzeros : cs.reverse.takeWhile (· == '0') =
      List.replicate (cs.reverse.takeWhile (· == '0')).length '0' := by
    refine List.eq_replicate_of_mem fun c hc => ?_
    exact beq_iff_eq.mp (List.all_eq_true.mp List.all_takeWhile c hc)
  refine ⟨(cs.reverse.takeWhile (· == '0')).length, ?_⟩
  calc cs = (cs.reverse.takeWhile (· == '0') ++ cs.reverse.dropWhile (· == '0')).reverse := by
        rw [List.takeWhile_append_dropWhile, List.reverse_reverse]
    _ = _ := by rw [List.reverse_append, hzeros, List.length_replicate, List.reverse_replicate]

theorem fractionNanos_trimmed {micros : Nat} (h : micros < 1000000) :
    fractionNanos ((padded 6 micros).reverse.dropWhile (· == '0')).reverse = micros * 1000 := by
  obtain ⟨k, hk⟩ := exists_zeros (padded 6 micros)
  have hlength := length_padded (by decide : 0 < 6) h
  generalize ((padded 6 micros).reverse.dropWhile (· == '0')).reverse = digits at hk
  have hsix : digits.length + k = 6 := by
    rw [← hlength, hk, List.length_append, List.length_replicate]
  have hnine : (digits ++ List.replicate 9 '0').take 9 =
      padded 6 micros ++ List.replicate 3 '0' := by
    have hsplit : List.replicate 9 '0' =
        List.replicate k '0' ++ (List.replicate 3 '0' ++ List.replicate (6 - k) '0') := by
      rw [List.replicate_append_replicate, List.replicate_append_replicate]
      congr 1
      omega
    rw [hsplit, ← List.append_assoc, ← List.append_assoc, ← hk]
    exact List.take_left' (by rw [List.length_append, hlength, List.length_replicate])
  rw [fractionNanos, hnine, Nat.ofDigitChars_append, ofDigitChars_padded,
    ofDigitChars_replicate_zero]

theorem offset?_utc : offset? ['Z'] = some (0, []) := rfl

/-- The fraction of a second is read back in nanoseconds. -/
theorem fraction?_fractionChars {micros : Nat} (h : micros < 1000000) :
    fraction? (fractionChars micros ++ ['Z']) = some (micros * 1000, ['Z']) := by
  rw [fractionChars]
  split
  · rename_i hzero
    subst hzero
    rfl
  · rename_i hne
    have hdigits : ∀ c ∈ ((padded 6 micros).reverse.dropWhile (· == '0')).reverse,
        c.isDigit = true := by
      intro c hc
      have hmem := (List.dropWhile_suffix _).subset (List.mem_reverse.mp hc)
      exact isDigit_of_mem_padded (List.mem_reverse.mp hmem)
    have hnanos := fractionNanos_trimmed h
    generalize ((padded 6 micros).reverse.dropWhile (· == '0')).reverse = digits at hdigits hnanos
    have hsome : digits ≠ [] := by
      rintro rfl
      have hzero : micros * 1000 = 0 := hnanos.symm
      omega
    have hZ : ['Z'].takeWhile Char.isDigit = [] := rfl
    rw [List.cons_append, fraction?, List.takeWhile_append_of_pos hdigits,
      List.dropWhile_append_of_pos hdigits, hZ, List.append_nil, hnanos,
      if_neg (by rwa [List.isEmpty_iff])]
    rfl

/-- A timestamp is read back from what is written of its date and its time of day. -/
theorem rfc3339?_chars {d : Date} (h : d.isValid = true) (hyear : 0 ≤ d.year)
    (hyear' : d.year.natAbs < 10000) {micros : Nat} (hmicros : micros < 86400000000) :
    rfc3339? (dateChars d ++ 'T' :: clockChars micros ++ ['Z']) =
      some (d.toDays * nanosPerDay + micros * 1000) := by
  have hneg : ¬ d.year < 0 := by omega
  have hnat : ((d.year.natAbs : Nat) : Int) = d.year := by omega
  have hchars : dateChars d ++ 'T' :: clockChars micros ++ ['Z'] =
      padded 4 d.year.natAbs ++ '-' :: (padded 2 d.month ++ '-' :: (padded 2 d.day ++
        'T' :: (padded 2 (micros / 1000000 / 3600) ++
          ':' :: (padded 2 (micros / 1000000 / 60 % 60) ++
            ':' :: (padded 2 (micros / 1000000 % 60) ++
              (fractionChars (micros % 1000000) ++ ['Z'])))))) := by
    simp [dateChars, clockChars, hneg]
  have hhour : micros / 1000000 / 3600 < 100 := by omega
  have hminute : micros / 1000000 / 60 % 60 < 100 := by omega
  have hsecond : micros / 1000000 % 60 < 100 := by omega
  have hfraction : micros % 1000000 < 1000000 := by omega
  have hseparated : ∀ cs, separated? ('T' :: cs) = some cs := fun _ => rfl
  rw [hchars, rfc3339?]
  simp only [digits?_padded (by decide : 0 < 4) hyear', digits?_padded (by decide : 0 < 2) hhour,
    digits?_padded (by decide : 0 < 2) hminute, digits?_padded (by decide : 0 < 2) hsecond,
    after?_cons, hnat, monthAndDay?_eq_some h, hseparated, fraction?_fractionChars hfraction,
    offset?_utc, Option.bind_eq_bind, Option.bind_some]
  have hleap : (micros / 1000000 % 60 == 60) = false := beq_eq_false_iff_ne.mpr (by omega)
  have hclock : micros / 1000000 / 3600 * 3600 + micros / 1000000 / 60 % 60 * 60 +
      micros / 1000000 % 60 = micros / 1000000 := by omega
  simp only [hleap, Bool.false_and, Bool.false_eq_true, if_false, hclock]
  rw [if_neg (by simp; omega)]
  congr 1
  omega

/-! ### Reading what was written -/

theorem isSpace_of_isDigit {c : Char} (h : c.isDigit = true) : Text.isSpace c = false := by
  have hrange : 48 ≤ c.toNat ∧ c.toNat ≤ 57 := by
    simpa [Char.isDigit, UInt32.le_iff_toNat_le] using h
  simp only [Text.isSpace, Bool.or_eq_false_iff, Bool.and_eq_false_iff, beq_eq_false_iff_ne,
    decide_eq_false_iff_not]
  omega

theorem isSpace_of_mem_dateChars {d : Date} {c : Char} (h : c ∈ dateChars d) :
    Text.isSpace c = false := by
  have hpadded : ∀ {width n}, c ∈ padded width n → Text.isSpace c = false :=
    fun hc => isSpace_of_isDigit (isDigit_of_mem_padded hc)
  have hhyphen : Text.isSpace '-' = false := by decide
  simp only [dateChars, List.mem_append, List.mem_cons, or_assoc] at h
  rcases h with hc | hc | rfl | hc | rfl | hc
  · split at hc
    · rw [List.mem_singleton.mp hc, hhyphen]
    · cases hc
  all_goals first | exact hhyphen | exact hpadded hc

theorem inCalendar_iff {micros : Int} :
    inCalendar micros = true ↔ firstInstant ≤ micros ∧ micros ≤ lastInstant := by
  simp [inCalendar]

theorem year_ofDays_bounds {micros : Int} (h : inCalendar micros = true) :
    (Date.ofDays (micros / microsPerDay)).year.natAbs < 10000 := by
  rw [inCalendar_iff, firstInstant, lastInstant] at h
  obtain ⟨hfrom, hto⟩ := yearOf_spec (micros / microsPerDay + epochDays)
  rw [Date.year_ofDays]
  generalize yearOf (micros / microsPerDay + epochDays) = year at hfrom hto
  rw [daysBeforeYear, microsPerDay, epochDays] at hfrom hto
  omega

/-- A date that can be written is read back as the start of its day. -/
theorem parseDate_of_formatDate {micros : Int} {s : String} (h : formatDate micros = .ok s) :
    parseDate s = .ok (micros / microsPerDay * microsPerDay) := by
  rw [formatDate] at h
  split at h
  · rename_i hin
    cases h
    obtain ⟨hvalid, hdays⟩ := Date.ofDays_spec (micros / microsPerDay)
    rw [parseDate, Text.toList_trim, String.toList_ofList,
      Text.trimChars_of_forall fun c => isSpace_of_mem_dateChars,
      bareDate?_dateChars hvalid (year_ofDays_bounds hin), hdays]
  · cases h

theorem trimChars_timestamp (d : Date) (micros : Nat) :
    Text.trimChars (dateChars d ++ 'T' :: clockChars micros ++ ['Z']) =
      dateChars d ++ 'T' :: clockChars micros ++ ['Z'] := by
  refine Text.trimChars_eq_self (fun c hc => ?_) fun c hc => ?_
  · rw [List.append_assoc, List.head?_append, Option.mem_def, Option.or_eq_some_iff] at hc
    rcases hc with hc | ⟨-, hc⟩
    · exact isSpace_of_mem_dateChars (List.mem_of_head? hc)
    · cases hc
      decide
  · rw [List.getLast?_concat] at hc
    cases hc
    decide

/-- A timestamp that can be written is read back exactly. -/
theorem parseTimestamp_of_formatTimestamp {micros : Int} {s : String}
    (h : formatTimestamp micros = .ok s) : parseTimestamp s = .ok micros := by
  rw [formatTimestamp] at h
  split at h
  · rename_i hin
    dsimp only at h
    split at h
    · cases h
    · rename_i hyear
      cases h
      obtain ⟨hvalid, hdays⟩ := Date.ofDays_spec (micros / microsPerDay)
      have hmicros : (micros % microsPerDay).toNat < 86400000000 := by
        rw [microsPerDay]
        omega
      have hnanos : micros / microsPerDay * nanosPerDay +
          ((micros % microsPerDay).toNat : Int) * 1000 = micros * 1000 := by
        rw [microsPerDay, nanosPerDay]
        omega
      rw [parseTimestamp, Text.toList_trim, String.toList_ofList, trimChars_timestamp,
        rfc3339?_chars hvalid (Int.not_lt.mp hyear) (year_ofDays_bounds hin) hmicros, hdays, hnanos]
      simp only [Except.ok.injEq]
      exact Int.mul_tdiv_cancel micros (by decide)
  · cases h

/-! ### What is written is not blank -/

theorem isBlank_of_formatDate {micros : Int} {s : String} (h : formatDate micros = .ok s) :
    Text.isBlank s = false := by
  rw [formatDate] at h
  split at h <;> cases h
  refine Text.isBlank_eq_false (c := '-') ?_ (by decide)
  rw [String.toList_ofList]
  simp [dateChars]

theorem isBlank_of_formatTimestamp {micros : Int} {s : String}
    (h : formatTimestamp micros = .ok s) : Text.isBlank s = false := by
  rw [formatTimestamp] at h
  split at h
  · dsimp only at h
    split at h <;> cases h
    refine Text.isBlank_eq_false (c := 'T') ?_ (by decide)
    rw [String.toList_ofList]
    simp
  · cases h

/-! ### What is read as a date -/

theorem exists_day_of_parseDate {s : String} {micros : Int} (h : parseDate s = .ok micros) :
    ∃ day, micros = day * microsPerDay := by
  simp only [parseDate] at h
  split at h
  · cases h
    exact ⟨_, rfl⟩
  · split at h
    · cases h
    · split at h <;> cases h
      exact ⟨_, rfl⟩

theorem inCalendar_toDays {d : Date} (h : d.isValid = true) (hyear : d.year.natAbs < 10000) :
    inCalendar (d.toDays * microsPerDay) = true := by
  obtain ⟨hfrom, hto⟩ := Date.toDays_bounds h
  have hfirst : daysBeforeYear (-9999) ≤ daysBeforeYear d.year := daysBeforeYear_le (by omega)
  have hlast : daysBeforeYear (d.year + 1) ≤ daysBeforeYear 10000 := daysBeforeYear_le (by omega)
  rw [show daysBeforeYear (-9999) = -3652059 from rfl] at hfirst
  rw [show daysBeforeYear 10000 = 3652425 from rfl] at hlast
  rw [epochDays] at hfrom hto
  rw [inCalendar_iff, firstInstant, lastInstant, microsPerDay]
  omega

/-- What is read as a date can be written. -/
theorem inCalendar_of_parseDate {s : String} {micros : Int} (h : parseDate s = .ok micros) :
    inCalendar micros = true := by
  simp only [parseDate] at h
  split at h
  · rename_i hbare
    cases h
    obtain ⟨d, hvalid, hyear, rfl⟩ := exists_date_of_bareDate? hbare
    exact inCalendar_toDays hvalid hyear
  · split at h
    · cases h
    · split at h
      · rename_i hbounds
        cases h
        exact inCalendar_iff.mpr hbounds
      · cases h

/-! ### What can be written -/

theorem exists_formatDate {micros : Int} (h : inCalendar micros = true) :
    ∃ s, formatDate micros = .ok s := ⟨_, if_pos h⟩

/-- The first instant of year 0. -/
def firstStamp : Int := -62167219200000000

theorem year_neg_iff (micros : Int) :
    (Date.ofDays (micros / microsPerDay)).year < 0 ↔ micros < firstStamp := by
  obtain ⟨hfrom, hto⟩ := yearOf_spec (micros / microsPerDay + epochDays)
  rw [Date.year_ofDays]
  generalize yearOf (micros / microsPerDay + epochDays) = year at hfrom hto
  rw [daysBeforeYear, microsPerDay, epochDays] at hfrom hto
  rw [firstStamp]
  omega

/-- The instants that have a timestamp are those of the years 0 to 9999. -/
theorem formatTimestamp_ok_iff {micros : Int} :
    (∃ s, formatTimestamp micros = .ok s) ↔ firstStamp ≤ micros ∧ micros ≤ lastInstant := by
  have hfirst : firstInstant ≤ firstStamp := by decide
  constructor
  · rintro ⟨s, h⟩
    rw [formatTimestamp] at h
    split at h
    · rename_i hin
      dsimp only at h
      split at h
      · cases h
      · rename_i hyear
        rw [year_neg_iff] at hyear
        exact ⟨Int.not_lt.mp hyear, (inCalendar_iff.mp hin).2⟩
    · cases h
  · rintro ⟨hfrom, hto⟩
    have hin : inCalendar micros = true := inCalendar_iff.mpr ⟨Int.le_trans hfirst hfrom, hto⟩
    have hyear : ¬ (Date.ofDays (micros / microsPerDay)).year < 0 := by
      rw [year_neg_iff]
      exact Int.not_lt.mpr hfrom
    rw [formatTimestamp, if_pos hin]
    exact ⟨_, if_neg hyear⟩

end RecordStore.Calendar
