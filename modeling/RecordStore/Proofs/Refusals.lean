import RecordStore.Proofs.DayStarts
import RecordStore.Store.Values

/-!
# What can go wrong with values

A value that is given for an attribute is refused, or what a set would hold of it cannot be shown,
or it is a timestamp that leads out of the calendar. Main statement: nothing else goes wrong with
values that are encoded and prepared, and only a date attribute meets the end of the calendar.
-/

namespace RecordStore

/-! ### The end of the calendar -/

namespace Calendar

/-- The text is a timestamp that lies, in universal time, after the last day of the calendar. -/
def LeavesCalendar (s : String) : Prop :=
  ∃ nanos, rfc3339? (Text.trimChars s.toList) = some nanos ∧ lastInstant * 1000 + 999 < nanos

theorem offset?_le {cs rest : List Char} {offset : Int} (h : offset? cs = some (offset, rest)) :
    offset < 86400 := by
  unfold offset? at h
  split at h
  · cases h
    decide
  · cases h
    decide
  · simp only [Option.bind_eq_bind] at h
    split at h
    · cases h
    · simp only [Option.bind_eq_some_iff] at h
      obtain ⟨⟨hours, _⟩, -, _, -, ⟨minutes, _⟩, -, h⟩ := h
      dsimp only at h
      split at h
      · cases h
      · cases h
        split <;> omega
  · cases h

/-- A timestamp has no year before 0, so none lies before the calendar. -/
theorem firstInstant_le_of_rfc3339? {cs : List Char} {nanos : Int} (h : rfc3339? cs = some nanos) :
    firstInstant ≤ nanos / nanosPerDay * microsPerDay := by
  unfold rfc3339? at h
  simp only [Option.bind_eq_bind, Option.bind_eq_some_iff] at h
  obtain ⟨⟨year, _⟩, -, ⟨d, _⟩, hdate, _, -, ⟨hour, _⟩, -, _, -, ⟨minute, _⟩, -, _, -, ⟨second, _⟩,
    -, ⟨fraction, _⟩, -, ⟨offset, _⟩, hoffset, h⟩ := h
  obtain ⟨hyear, hvalid⟩ := of_monthAndDay? hdate
  obtain ⟨hfrom, -⟩ := Date.toDays_bounds hvalid
  have hzero : daysBeforeYear 0 ≤ daysBeforeYear d.year := daysBeforeYear_le (by omega)
  rw [show daysBeforeYear 0 = 0 from rfl] at hzero
  have hoffset := offset?_le hoffset
  simp only [Option.ite_none_left_eq_some, Option.some.injEq] at h
  obtain ⟨-, -, rfl⟩ := h
  rw [epochDays] at hfrom
  rw [firstInstant, microsPerDay, nanosPerDay]
  split <;> omega

theorem parseDate_eq_overflow_iff {s : String} :
    parseDate s = .error .calendarOverflow ↔ LeavesCalendar s := by
  cases hfull : rfc3339? (Text.trimChars s.toList) with
  | some nanos =>
    have hfirst := firstInstant_le_of_rfc3339? hfull
    have hbeyond : LeavesCalendar s ↔ lastInstant * 1000 + 999 < nanos := by
      simp [LeavesCalendar, hfull]
    rw [parseDate_of_rfc3339? hfull, hbeyond]
    split
    · rename_i hin
      have hlast := (inCalendar_iff.mp hin).2
      rw [lastInstant, microsPerDay, nanosPerDay] at hlast
      rw [lastInstant]
      simp only [reduceCtorEq, false_iff]
      omega
    · rename_i hout
      have hlast : ¬ nanos / nanosPerDay * microsPerDay ≤ lastInstant :=
        fun hlast => hout (inCalendar_iff.mpr ⟨hfirst, hlast⟩)
      rw [lastInstant, microsPerDay, nanosPerDay] at hlast
      rw [lastInstant]
      simp only [true_iff]
      omega
  | none =>
    have hin : ¬ LeavesCalendar s := by simp [LeavesCalendar, hfull]
    simp only [hin, iff_false, parseDate, Text.toList_trim, hfull]
    split <;> simp

end Calendar

/-! ### Ways to fail -/

/-- What may fail, but only with such an error. -/
def FailsOnly {α : Type} (E : Error → Prop) (x : Except Error α) : Prop :=
  ∀ e, x = .error e → E e

namespace FailsOnly

variable {α β : Type} {E F : Error → Prop}

@[simp] theorem ok (a : α) : FailsOnly E (.ok a) := fun _ h => by cases h

@[simp] theorem error_iff {e : Error} : FailsOnly E (.error e : Except Error α) ↔ E e :=
  ⟨fun h => h e rfl, fun h e' he' => by cases he'; exact h⟩

theorem mono {x : Except Error α} (h : FailsOnly E x) (hEF : ∀ e, E e → F e) : FailsOnly F x :=
  fun e he => hEF e (h e he)

theorem bind {x : Except Error α} {f : α → Except Error β} (hx : FailsOnly E x)
    (hf : ∀ a, FailsOnly E (f a)) : FailsOnly E (x >>= f) := by
  cases x with
  | ok a => exact hf a
  | error e => exact error_iff.mpr (error_iff.mp hx)

theorem map {x : Except Error α} (hx : FailsOnly E x) (f : α → β) : FailsOnly E (x.map f) := by
  cases x with
  | ok a => exact ok (f a)
  | error e => exact error_iff.mpr (error_iff.mp hx)

theorem require {condition : Prop} [Decidable condition] {e : Error} (h : E e) :
    FailsOnly E (require condition e) :=
  fun _ he => (require_eq_error_iff.mp he).2 ▸ h

end FailsOnly

/-- What can go wrong with a value: it is refused, what a set would hold of it cannot be shown, or
it leads out of the calendar, which some values do. -/
inductive Mishap (leaves : Prop) : Error → Prop where
  | refused (cause : Invalid) : Mishap leaves (.invalid cause)
  | unreadable (cause : Fault) : Mishap leaves (.storage cause)
  | overflow (h : leaves) : Mishap leaves .calendarOverflow

namespace Mishap

attribute [simp] refused unreadable

variable {p q : Prop}

theorem mono {e : Error} (h : Mishap p e) (hpq : p → q) : Mishap q e := by
  cases h with
  | refused cause => exact .refused cause
  | unreadable cause => exact .unreadable cause
  | overflow hp => exact .overflow (hpq hp)

@[simp] theorem overflow_iff : Mishap p .calendarOverflow ↔ p :=
  ⟨fun h => by cases h; assumption, .overflow⟩

end Mishap

theorem FailsOnly.weaken {α : Type} {p q : Prop} {x : Except Error α}
    (h : FailsOnly (Mishap p) x) (hpq : p → q) : FailsOnly (Mishap q) x :=
  h.mono fun _ he => he.mono hpq

/-! ### Single values -/

/-- What is given for an attribute leads out of the calendar: the attribute holds dates, and it is
given a timestamp after the last day. -/
def Attribute.Overflows (a : Attribute) (raw : Json) : Prop :=
  a.type = .date ∧ ∃ s, raw = .str s ∧ Calendar.LeavesCalendar s

section

variable {p : Prop} (a : Attribute) (slug : String) (raw : Json)

theorem expectString_failsOnly : FailsOnly (Mishap p) (expectString slug raw) := by
  cases raw <;> simp [expectString]

theorem coerceNumber_failsOnly : FailsOnly (Mishap p) (coerceNumber slug raw) := by
  unfold coerceNumber
  dsimp only
  split <;> simp

theorem coerceBool_failsOnly : FailsOnly (Mishap p) (coerceBool slug raw) := by
  unfold coerceBool
  split
  · simp
  · split
    · simp
    · split <;> simp
  · simp

theorem coerceId_failsOnly : FailsOnly (Mishap p) (coerceId slug raw) := by
  refine (expectString_failsOnly slug raw).bind fun text => ?_
  split <;> simp

theorem parseDate_failsOnly (s : String) :
    FailsOnly (Mishap (Calendar.LeavesCalendar s)) (Calendar.parseDate s) := by
  intro e he
  by_cases hover : e = .calendarOverflow
  · subst hover
    exact .overflow (Calendar.parseDate_eq_overflow_iff.mp he)
  · unfold Calendar.parseDate at he
    dsimp only at he
    split at he
    · cases he
    · split at he
      · cases he
        exact .refused _
      · split at he <;> cases he
        exact absurd rfl hover

theorem parseTimestamp_failsOnly (s : String) :
    FailsOnly (Mishap p) (Calendar.parseTimestamp s) := by
  unfold Calendar.parseTimestamp
  dsimp only
  split
  · simp
  · split <;> simp

/-- A value that is a text is asked for as a text before anything is made of it. -/
theorem failsOnly_of_text {α : Type} {f : String → Except Error α}
    (h : ∀ s, raw = .str s → FailsOnly (Mishap p) (f s)) :
    FailsOnly (Mishap p) (expectString slug raw >>= f) := by
  cases raw with
  | str s => exact h s rfl
  | _ => exact FailsOnly.error_iff.mpr (.refused _)

theorem encodeRating_failsOnly : FailsOnly (Mishap p) (encodeRating a raw) := by
  refine (coerceNumber_failsOnly a.slug raw).bind fun rating => ?_
  dsimp only
  split <;> simp

theorem currencyCode_failsOnly (code : String) : FailsOnly (Mishap p) (currencyCode slug code) := by
  unfold currencyCode
  dsimp only
  split <;> simp

theorem amountCell_failsOnly (code : String) : FailsOnly (Mishap p) (amountCell a raw code) :=
  (coerceNumber_failsOnly a.slug raw).bind fun _ =>
    (currencyCode_failsOnly a.slug code).bind fun _ => .ok _

theorem encodeCurrency_failsOnly : FailsOnly (Mishap p) (encodeCurrency a raw) := by
  unfold encodeCurrency
  split
  · split
    · simp
    · exact (expectString_failsOnly a.slug _).bind fun code => amountCell_failsOnly a _ code
    · exact amountCell_failsOnly a _ _
  · exact amountCell_failsOnly a _ _

theorem encodeSingle_failsOnly : FailsOnly (Mishap (a.Overflows raw)) (encodeSingle a raw) := by
  unfold encodeSingle
  split
  · exact (expectString_failsOnly a.slug raw).bind fun _ => .ok _
  · exact (expectString_failsOnly a.slug raw).bind fun _ => .ok _
  · refine (expectString_failsOnly a.slug raw).bind fun email => ?_
    dsimp only
    split <;> simp
  · exact (expectString_failsOnly a.slug raw).bind fun _ => .ok _
  · exact (coerceNumber_failsOnly a.slug raw).bind fun _ => .ok _
  · exact (encodeRating_failsOnly a raw).map _
  · exact (encodeCurrency_failsOnly a raw).map _
  · exact (coerceBool_failsOnly a.slug raw).bind fun _ => .ok _
  · rename_i hdate
    refine failsOnly_of_text a.slug raw fun s hs => ?_
    exact ((parseDate_failsOnly s).weaken fun hleaves => ⟨hdate, s, hs, hleaves⟩).bind fun _ =>
      .ok _
  · exact (expectString_failsOnly a.slug raw).bind fun s =>
      (parseTimestamp_failsOnly s).bind fun _ => .ok _
  · refine (coerceId_failsOnly a.slug raw).bind fun id => ?_
    split <;> simp
  · refine (coerceId_failsOnly a.slug raw).bind fun id => ?_
    split <;> simp
  · exact (coerceId_failsOnly a.slug raw).bind fun _ => .ok _
  · exact (coerceId_failsOnly a.slug raw).bind fun _ => .ok _
  · unfold encodeName
    dsimp only
    split
    · simp
    · split <;> simp
  · unfold encodeLocation
    split
    · simp
    · split <;> simp
  · split <;> simp

theorem formatDate_failsOnly (micros : Int) :
    FailsOnly (Mishap p) (Calendar.formatDate micros) := by
  unfold Calendar.formatDate
  split <;> simp

theorem formatTimestamp_failsOnly (micros : Int) :
    FailsOnly (Mishap p) (Calendar.formatTimestamp micros) := by
  unfold Calendar.formatTimestamp
  split
  · dsimp only
    split <;> simp
  · simp

theorem decodeSingle_failsOnly (type : ValueType) (cell : Cell) :
    FailsOnly (Mishap p) (decodeSingle type cell) := by
  unfold decodeSingle
  split
  · simp
  · cases cell with
    | text | boolean | reference => exact .ok _
    | number value unit =>
      dsimp only
      split <;> simp
    | date micros =>
      dsimp only
      split
      · exact (formatDate_failsOnly micros).map _
      · exact (formatTimestamp_failsOnly micros).map _
    | structured j =>
      dsimp only
      split
      · split <;> simp
      · split <;> simp
      · simp

end

/-! ### Values -/

/-- What a value is for an attribute that holds sets: its members, or its one member. -/
def Attribute.items (a : Attribute) (raw : Json) : List Json :=
  if a.isSet then
    match raw with
    | .arr items => items
    | one => [one]
  else [raw]

theorem Attribute.items_of_single {a : Attribute} (h : ¬ a.isSet = true) (raw : Json) :
    a.items raw = [raw] := if_neg h

theorem encodeValue_of_set {a : Attribute} {raw : Json} (hset : a.isSet = true)
    (hblank : raw.isBlank = false) : encodeValue a raw = do
      let set ← collectMembers a [] (a.items raw)
      return if set.isEmpty then none else some (.structured (.arr set)) := by
  have hitems : a.items raw = _ := if_pos hset
  have hfull : ¬ raw.isBlank = true := by rw [hblank]; exact Bool.false_ne_true
  rw [hitems]
  exact (if_neg hfull).trans (if_pos hset)

/-- Items for the attribute of a slug, if there is one, each beside that attribute. -/
def itemsNamed (attributes : List Attribute) (slug : String) (items : Attribute → List Json) :
    List (Attribute × Json) :=
  match attributes.find? fun a => a.slug == slug with
  | some a => (items a).map fun item => (a, item)
  | none => []

theorem mem_itemsNamed {attributes : List Attribute} {slug : String}
    {items : Attribute → List Json} {a : Attribute} {item : Json} :
    (a, item) ∈ itemsNamed attributes slug items ↔
      (attributes.find? fun a => a.slug == slug) = some a ∧ item ∈ items a := by
  rw [itemsNamed]
  split
  · rename_i b hfind
    rw [hfind, Option.some.injEq, List.mem_map]
    constructor
    · rintro ⟨i, hi, heq⟩
      cases heq
      exact ⟨rfl, hi⟩
    · rintro ⟨rfl, hi⟩
      exact ⟨item, hi, rfl⟩
  · rename_i hnone
    simp [hnone]

/-- What is given by slug, item by item. -/
def itemsGiven (attributes : List Attribute) (given : List (String × Json)) :
    List (Attribute × Json) :=
  given.flatMap fun g => itemsNamed attributes g.1 fun a => a.items g.2

/-- One of the items leads out of the calendar. -/
def SomeOverflows (items : List (Attribute × Json)) : Prop := ∃ q ∈ items, q.1.Overflows q.2

theorem mem_itemsGiven {attributes : List Attribute} {given : List (String × Json)}
    {q : Attribute × Json} :
    q ∈ itemsGiven attributes given ↔ ∃ g ∈ given,
      (attributes.find? fun a => a.slug == g.1) = some q.1 ∧ q.2 ∈ q.1.items g.2 := by
  simp only [itemsGiven, List.mem_flatMap]
  exact exists_congr fun g => and_congr_right fun _ => mem_itemsNamed

theorem SomeOverflows.mono {attributes : List Attribute} {given more : List (String × Json)}
    (h : SomeOverflows (itemsGiven attributes given)) (hsub : given ⊆ more) :
    SomeOverflows (itemsGiven attributes more) := by
  obtain ⟨q, hq, hover⟩ := h
  obtain ⟨g, hg, hitem⟩ := mem_itemsGiven.mp hq
  exact ⟨q, mem_itemsGiven.mpr ⟨g, hsub hg, hitem⟩, hover⟩

section

variable (a : Attribute) (raw : Json)

theorem encodeMember_failsOnly : FailsOnly (Mishap (a.Overflows raw)) (encodeMember a raw) := by
  unfold encodeMember
  split
  · simp
  · refine (encodeSingle_failsOnly a raw).bind fun made => ?_
    cases made with
    | none => exact .ok _
    | some cell => exact (decodeSingle_failsOnly a.type cell).bind fun _ => .ok _

theorem collectMembers_failsOnly (set items : List Json) :
    FailsOnly (Mishap (∃ item ∈ items, a.Overflows item)) (collectMembers a set items) := by
  induction items generalizing set with
  | nil => exact .ok _
  | cons item rest ih =>
    refine ((encodeMember_failsOnly a item).weaken fun hover =>
      ⟨item, List.mem_cons_self, hover⟩).bind fun made => ?_
    cases made with
    | none => exact (ih set).weaken fun ⟨i, hi, hover⟩ => ⟨i, List.mem_cons_of_mem _ hi, hover⟩
    | some member => exact (ih _).weaken fun ⟨i, hi, hover⟩ => ⟨i, List.mem_cons_of_mem _ hi, hover⟩

theorem encodeValue_failsOnly :
    FailsOnly (Mishap (∃ item ∈ a.items raw, a.Overflows item)) (encodeValue a raw) := by
  cases hblank : raw.isBlank with
  | true => simp [encodeValue, hblank]
  | false =>
    by_cases hset : a.isSet = true
    · rw [encodeValue_of_set hset hblank]
      exact (collectMembers_failsOnly a [] _).bind fun _ => .ok _
    · rw [encodeValue_of_single hset hblank, Attribute.items_of_single hset]
      exact (encodeSingle_failsOnly a raw).weaken fun hover =>
        ⟨raw, List.mem_singleton_self raw, hover⟩

theorem encodeValue_given_failsOnly {a : Attribute} {attributes : List Attribute}
    {given : List (String × Json)} {g : String × Json} (hg : g ∈ given)
    (hfind : (attributes.find? fun a => a.slug == g.1) = some a) :
    FailsOnly (Mishap (SomeOverflows (itemsGiven attributes given))) (encodeValue a g.2) :=
  (encodeValue_failsOnly a g.2).weaken fun ⟨item, hitem, hover⟩ =>
    ⟨(a, item), mem_itemsGiven.mpr ⟨g, hg, hfind, hitem⟩, hover⟩

theorem uniqueKeyOf_failsOnly {p : Prop} (cell : Cell) :
    FailsOnly (Mishap p) (uniqueKeyOf a cell) := by
  unfold uniqueKeyOf
  split <;> simp

theorem storedKeyOf_failsOnly {p : Prop} (cell : Cell) :
    FailsOnly (Mishap p) (storedKeyOf a cell) := by
  unfold storedKeyOf
  split
  · exact (uniqueKeyOf_failsOnly a cell).map _
  · simp

theorem encodeAll_failsOnly (attributes : List Attribute) (given : List (String × Json)) :
    FailsOnly (Mishap (SomeOverflows (itemsGiven attributes given)))
      (encodeAll attributes given) := by
  induction given with
  | nil => exact .ok _
  | cons g rest ih =>
    have hrest := ih.weaken fun hover => hover.mono (List.subset_cons_self g rest)
    unfold encodeAll
    split
    · simp
    · rename_i a hfind
      refine (encodeValue_given_failsOnly List.mem_cons_self hfind).bind fun cell => ?_
      cases cell with
      | none => exact hrest.bind fun _ => .ok _
      | some c => exact (storedKeyOf_failsOnly a c).bind fun _ => hrest.bind fun _ => .ok _

theorem prepareValues_failsOnly (attributes : List Attribute) (given : List (String × Json))
    (mode : WriteMode) :
    FailsOnly (Mishap (SomeOverflows (itemsGiven attributes given)))
      (prepareValues attributes given mode) := by
  refine (encodeAll_failsOnly attributes given).bind fun encoded => ?_
  cases mode with
  | create =>
    dsimp only
    split
    · simp
    · exact .ok _
  | update =>
    dsimp only
    split
    · simp
    · exact .ok _

end

end RecordStore
