import RecordStore.Value.Coerce
import RecordStore.Value.Decode

/-!
# Writing values

A JSON value given for an attribute becomes a cell, or nothing when it is blank. A set keeps the
first of members that are the same.
-/

namespace RecordStore

/-! ### Members of sets -/

/-- Whether two members of a set are the same: texts are compared folded, all else exactly. -/
def sameMember : Json → Json → Bool
  | .str a, .str b => Text.alike a b
  | a, b => a.same b

def hasMember (members : List Json) (candidate : Json) : Bool :=
  members.any fun member => sameMember member candidate

/-! ### Single values -/

def isEmail (cs : List Char) : Bool :=
  match cs.dropWhile (· ≠ '@') with
  | [] => false
  | _ :: domain => cs.head? ≠ some '@' && !domain.isEmpty && !domain.contains '@'

def dropHead? (head cs : List Char) : Option (List Char) :=
  if head.isPrefixOf cs then some (cs.drop head.length) else none

/-- A domain without scheme and closing slashes, in lower case. -/
def normalizeDomain (s : String) : String :=
  let cs := Text.trimChars s.toList
  let bare := ((dropHead? "https://".toList cs).or (dropHead? "http://".toList cs)).getD cs
  Text.lower (String.ofList (bare.reverse.dropWhile (· == '/')).reverse)

def currencyCode (slug code : String) : Except Error String :=
  let cs := Text.trimChars code.toList
  if cs.length = 3 ∧ cs.all Char.isAlpha then .ok (String.ofList (cs.map Char.toUpper))
  else .error (.invalid (.notACurrencyCode slug (String.ofList cs)))

def defaultRatingMax : Nat := 5

def ratingMax (a : Attribute) : Double :=
  (Double.ofInt? ((a.natSetting? "max").getD defaultRatingMax)).getD .zero

def encodeRating (a : Attribute) (raw : Json) : Except Error Cell := do
  let rating ← coerceNumber a.slug raw
  let max := ratingMax a
  if rating.whole?.isNone ∨ rating.place < 0 ∨ max.place < rating.place then
    .error (.invalid (.ratingOutOfRange a.slug max))
  else .ok (.number rating none)

def impliedCode (a : Attribute) : String := (a.textSetting? "currency").getD defaultCurrency

def amountCell (a : Attribute) (given : Json) (code : String) : Except Error Cell := do
  let amount ← coerceNumber a.slug given
  return .number amount (some (← currencyCode a.slug code))

def encodeCurrency (a : Attribute) (raw : Json) : Except Error Cell := do
  match raw with
  | .obj members =>
    match members.lookup "amount", members.lookup "currency" with
    | none, _ => .error (.invalid (.amountMissing a.slug))
    | some amount, some code => amountCell a amount (← expectString a.slug code)
    | some amount, none => amountCell a amount (impliedCode a)
  | other => amountCell a other (impliedCode a)

def encodeName (a : Attribute) (raw : Json) : Except Error (Option Cell) :=
  let given := match raw with
    | .str full => some (PersonalName.mk none none (some full))
    | other => PersonalName.ofJson? other
  match given with
  | none => .error (.invalid (.malformedName a.slug))
  | some name =>
    if name.normalized.isEmpty then .ok none
    else .ok (some (.structured name.normalized.toJson))

def encodeLocation (a : Attribute) (raw : Json) : Except Error (Option Cell) :=
  match Location.ofJson? raw with
  | none => .error (.invalid (.malformedLocation a.slug))
  | some place =>
    if place.normalized.isEmpty then .ok none
    else .ok (some (.structured place.normalized.toJson))

def encodeSingle (a : Attribute) (raw : Json) : Except Error (Option Cell) :=
  match a.type with
  | .text | .phone => do return some (.text (← expectString a.slug raw))
  | .email => do
    let email := Text.trim (← expectString a.slug raw)
    if isEmail email.toList then .ok (some (.text email))
    else .error (.invalid (.notAnEmail a.slug email))
  | .domain => do return some (.text (normalizeDomain (← expectString a.slug raw)))
  | .number => do return some (.number (← coerceNumber a.slug raw) none)
  | .rating => (encodeRating a raw).map some
  | .currency => (encodeCurrency a raw).map some
  | .checkbox => do return some (.boolean (← coerceBool a.slug raw))
  | .date => do return some (.date (← Calendar.parseDate (← expectString a.slug raw)))
  | .timestamp => do return some (.date (← Calendar.parseTimestamp (← expectString a.slug raw)))
  | .select => do
    let id ← coerceId a.slug raw
    if a.hasOption id then .ok (some (.reference id))
    else .error (.invalid (.notAnOption a.slug id))
  | .status => do
    let id ← coerceId a.slug raw
    if a.hasStatus id then .ok (some (.reference id))
    else .error (.invalid (.notAStatus a.slug id))
  | .recordReference | .actorReference => do return some (.reference (← coerceId a.slug raw))
  | .personalName => encodeName a raw
  | .location => encodeLocation a raw
  | .interaction =>
    if raw.isObject then .ok (some (.structured raw))
    else .error (.invalid (.interactionNotObject a.slug))

/-! ### Slots of single values -/

/-- An amount of money has a code, which is one that was given or implied, written as a code. -/
theorem exists_of_amountCell {a : Attribute} {given : Json} {code : String} {cell : Cell}
    (h : amountCell a given code = .ok cell) :
    ∃ amount unit, currencyCode a.slug code = .ok unit ∧ cell = .number amount (some unit) := by
  obtain ⟨amount, -, h⟩ := bind_eq_ok_iff.mp h
  obtain ⟨unit, hunit, h⟩ := bind_eq_ok_iff.mp h
  cases h
  exact ⟨amount, unit, hunit, rfl⟩

theorem exists_of_encodeCurrency {a : Attribute} {raw : Json} {cell : Cell}
    (h : encodeCurrency a raw = .ok cell) : ∃ amount code unit,
      currencyCode a.slug code = .ok unit ∧ cell = .number amount (some unit) := by
  obtain ⟨given, code, h⟩ : ∃ given code, amountCell a given code = .ok cell := by
    unfold encodeCurrency at h
    split at h
    · split at h
      · cases h
      · obtain ⟨code, -, h⟩ := bind_eq_ok_iff.mp h
        exact ⟨_, code, h⟩
      · exact ⟨_, _, h⟩
    · exact ⟨_, _, h⟩
  obtain ⟨amount, unit, hunit⟩ := exists_of_amountCell h
  exact ⟨amount, code, unit, hunit⟩

/-- A rating is a whole number within the bounds. -/
theorem exists_of_encodeRating {a : Attribute} {raw : Json} {cell : Cell}
    (h : encodeRating a raw = .ok cell) : ∃ rating : Double, cell = .number rating none ∧
      ¬ (rating.whole?.isNone ∨ rating.place < 0 ∨ (ratingMax a).place < rating.place) := by
  obtain ⟨rating, -, h⟩ := bind_eq_ok_iff.mp h
  dsimp only at h
  split at h
  · cases h
  · rename_i hfits
    cases h
    exact ⟨rating, rfl, hfits⟩

/-- A name that is accepted is normalized, and something is left of it. -/
theorem exists_of_encodeName {a : Attribute} {raw : Json} {cell : Cell}
    (h : encodeName a raw = .ok (some cell)) : ∃ name : PersonalName,
      name.normalized.isEmpty = false ∧ cell = .structured name.normalized.toJson := by
  simp only [encodeName] at h
  split at h
  · cases h
  · split at h
    · cases h
    · rename_i hempty
      cases h
      exact ⟨_, Bool.eq_false_iff.mpr hempty, rfl⟩

theorem exists_of_encodeLocation {a : Attribute} {raw : Json} {cell : Cell}
    (h : encodeLocation a raw = .ok (some cell)) : ∃ place : Location,
      place.normalized.isEmpty = false ∧ cell = .structured place.normalized.toJson := by
  simp only [encodeLocation] at h
  split at h
  · cases h
  · split at h
    · cases h
    · rename_i hempty
      cases h
      exact ⟨_, Bool.eq_false_iff.mpr hempty, rfl⟩

theorem slot_of_encodeSingle {a : Attribute} {raw : Json} {cell : Cell}
    (h : encodeSingle a raw = .ok (some cell)) : cell.slot = a.type.slot := by
  unfold encodeSingle at h
  cases htype : a.type with
  | text | phone | domain | number | checkbox | recordReference | actorReference =>
    simp only [htype] at h
    obtain ⟨content, -, h⟩ := bind_eq_ok_iff.mp h
    cases h
    rfl
  | date | timestamp =>
    simp only [htype] at h
    obtain ⟨text, -, h⟩ := bind_eq_ok_iff.mp h
    obtain ⟨micros, -, h⟩ := bind_eq_ok_iff.mp h
    cases h
    rfl
  | email =>
    simp only [htype] at h
    obtain ⟨s, -, h⟩ := bind_eq_ok_iff.mp h
    split at h <;> cases h
    rfl
  | rating =>
    simp only [htype] at h
    obtain ⟨c, hc, h⟩ := map_eq_ok_iff.mp h
    cases h
    obtain ⟨rating, rfl, -⟩ := exists_of_encodeRating hc
    rfl
  | currency =>
    simp only [htype] at h
    obtain ⟨c, hc, h⟩ := map_eq_ok_iff.mp h
    cases h
    obtain ⟨amount, code, unit, -, rfl⟩ := exists_of_encodeCurrency hc
    rfl
  | select | status =>
    simp only [htype] at h
    obtain ⟨id, -, h⟩ := bind_eq_ok_iff.mp h
    split at h <;> cases h
    rfl
  | personalName =>
    simp only [htype] at h
    obtain ⟨name, -, rfl⟩ := exists_of_encodeName h
    rfl
  | location =>
    simp only [htype] at h
    obtain ⟨place, -, rfl⟩ := exists_of_encodeLocation h
    rfl
  | interaction =>
    simp only [htype] at h
    split at h <;> cases h
    rfl

theorem hasOption_of_encodeSingle {a : Attribute} {raw : Json} {cell : Cell}
    (h : encodeSingle a raw = .ok (some cell)) (htype : a.type = .select) :
    ∃ id, cell = .reference id ∧ a.hasOption id = true := by
  simp only [encodeSingle, htype] at h
  obtain ⟨id, -, h⟩ := bind_eq_ok_iff.mp h
  split at h <;> cases h
  exact ⟨id, rfl, ‹_›⟩

theorem hasStatus_of_encodeSingle {a : Attribute} {raw : Json} {cell : Cell}
    (h : encodeSingle a raw = .ok (some cell)) (htype : a.type = .status) :
    ∃ id, cell = .reference id ∧ a.hasStatus id = true := by
  simp only [encodeSingle, htype] at h
  obtain ⟨id, -, h⟩ := bind_eq_ok_iff.mp h
  split at h <;> cases h
  exact ⟨id, rfl, ‹_›⟩

/-! ### Values -/

/-- The stored form of one member of a set; nothing when it is blank. -/
def encodeMember (a : Attribute) (raw : Json) : Except Error (Option Json) :=
  if raw.isBlank then .ok none
  else do
    match ← encodeSingle a raw with
    | none => return none
    | some cell => return some (← decodeSingle a.type cell).toJson

/-- Members of a set with those of the given items that are new, in order. -/
def collectMembers (a : Attribute) (set : List Json) : List Json → Except Error (List Json)
  | [] => .ok set
  | item :: rest => do
    match ← encodeMember a item with
    | none => collectMembers a set rest
    | some member =>
      collectMembers a (if hasMember set member then set else set ++ [member]) rest

/-- A member of a set is a single value in its public shape. -/
theorem exists_of_encodeMember {a : Attribute} {raw member : Json}
    (h : encodeMember a raw = .ok (some member)) : raw.isBlank = false ∧
      ∃ cell v, encodeSingle a raw = .ok (some cell) ∧ decodeSingle a.type cell = .ok v ∧
        member = v.toJson := by
  rw [encodeMember] at h
  split at h
  · cases h
  · rename_i hblank
    obtain ⟨made, hmade, h⟩ := bind_eq_ok_iff.mp h
    cases made with
    | none => cases h
    | some cell =>
      obtain ⟨v, hv, h⟩ := bind_eq_ok_iff.mp h
      cases h
      exact ⟨Bool.eq_false_iff.mpr hblank, cell, v, hmade, hv, rfl⟩

/-- The cell of a value given for an attribute; nothing when there is no value. -/
def encodeValue (a : Attribute) (raw : Json) : Except Error (Option Cell) :=
  if raw.isBlank then .ok none
  else if a.isSet then do
    let items := match raw with
      | .arr items => items
      | other => [other]
    let set ← collectMembers a [] items
    return if set.isEmpty then none else some (.structured (.arr set))
  else encodeSingle a raw

theorem encodeValue_of_single {a : Attribute} {raw : Json} (hsingle : ¬ a.isSet = true)
    (hblank : raw.isBlank = false) : encodeValue a raw = encodeSingle a raw := by
  unfold encodeValue
  rw [hblank, if_neg Bool.false_ne_true, if_neg hsingle]

/-- A stored value is a set of collected members or a single value, by the attribute. -/
theorem encodeValue_cases {a : Attribute} {raw : Json} {cell : Cell}
    (h : encodeValue a raw = .ok (some cell)) : raw.isBlank = false ∧
      (a.isSet = true ∧ (∃ items m rest, collectMembers a [] items = .ok (m :: rest) ∧
        cell = .structured (.arr (m :: rest))) ∨
      ¬ a.isSet = true ∧ encodeSingle a raw = .ok (some cell)) := by
  unfold encodeValue at h
  split at h
  · cases h
  · rename_i hblank
    refine ⟨Bool.eq_false_iff.mpr hblank, ?_⟩
    split at h
    · rename_i hset
      obtain ⟨members, hmembers, h⟩ := bind_eq_ok_iff.mp h
      cases members with
      | nil => cases h
      | cons m rest =>
        cases h
        exact .inl ⟨hset, _, m, rest, hmembers, rfl⟩
    · rename_i hsingle
      exact .inr ⟨hsingle, h⟩

theorem slot_of_encodeValue {a : Attribute} {raw : Json} {cell : Cell}
    (h : encodeValue a raw = .ok (some cell)) : cell.slot = a.slot := by
  rcases (encodeValue_cases h).2 with ⟨hset, items, m, rest, -, rfl⟩ | ⟨hsingle, h⟩
  · rw [AttributeHead.slot, if_pos hset, Cell.slot]
  · rw [AttributeHead.slot, if_neg hsingle]
    exact slot_of_encodeSingle h

end RecordStore
