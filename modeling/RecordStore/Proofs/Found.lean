import Mathlib
import RecordStore.Proofs.Collected

/-!
# Values found as they were written

A value becomes a cell where it is written and an operand where it is asked for. Main statement:
whoever asks for a value in the spelling in which it was written finds it, for every type but
domain. A domain loses its scheme and its closing slashes where it is written alone, but is asked
for as it is given, so that just those domains are found that stay alike. The members of a set are
stored and asked for in one form, and are found whatever their type.
-/

namespace RecordStore

section

variable {a : Attribute} {raw : Json} {cell : Cell} {o : Operand}

/-! ### Texts -/

theorem fold_trim (s : String) : Text.fold (Text.trim s) = Text.fold s := by
  rw [Text.fold, Text.trim_trim, Text.fold]

theorem equals_of_plain (hslot : a.slot = .text) (htype : a.type = .text ∨ a.type = .phone)
    (h : encodeSingle a raw = .ok (some cell)) (ho : coerceOperand a raw = .ok o) :
    cell.Equals o := by
  have hencode : encodeSingle a raw = do return some (.text (← expectString a.slug raw)) := by
    rcases htype with htype | htype <;> simp only [encodeSingle, htype]
  obtain ⟨s, hs, rfl⟩ := (coerceOperand_text_iff hslot).mp ho
  rw [hencode, hs] at h
  cases h
  exact .text rfl

theorem equals_of_email (hslot : a.slot = .text) (htype : a.type = .email)
    (h : encodeSingle a raw = .ok (some cell)) (ho : coerceOperand a raw = .ok o) :
    cell.Equals o := by
  obtain ⟨s, hs, rfl⟩ := (coerceOperand_text_iff hslot).mp ho
  simp only [encodeSingle, htype, hs, ok_bind] at h
  split at h <;> cases h
  exact .text (fold_trim s)

/-- A domain is asked for without being normalized. -/
theorem equals_of_domain_iff (hslot : a.slot = .text) (htype : a.type = .domain)
    (h : encodeSingle a raw = .ok (some cell)) (ho : coerceOperand a raw = .ok o) :
    cell.Equals o ↔ ∀ s, raw = .str s → Text.alike (normalizeDomain s) s = true := by
  obtain ⟨s, hs, rfl⟩ := (coerceOperand_text_iff hslot).mp ho
  simp only [encodeSingle, htype, hs, ok_bind] at h
  cases h
  cases eq_str_of_expectString hs
  rw [Cell.equals_text_iff]
  constructor
  · rintro hfold _ ⟨⟩
    exact beq_iff_eq.mpr hfold
  · exact fun halike => beq_iff_eq.mp (halike s rfl)

/-! ### Numbers -/

theorem eq_number_of_encodeRating {d : Double} (h : encodeRating a raw = .ok cell)
    (hd : coerceNumber a.slug raw = .ok d) : cell = .number d none := by
  rw [encodeRating, hd, ok_bind] at h
  dsimp only at h
  split at h <;> cases h
  rfl

theorem numberOrText?_of_coerceNumber {slug : String} {members : List (String × Json)}
    {amount : Json} {d : Double} (hamount : members.lookup "amount" = some amount)
    (h : coerceNumber slug (.obj members) = .ok d) : numberOrText? amount = some d := by
  simp only [coerceNumber, hamount, Option.bind_some] at h
  split at h <;> cases h
  assumption

/-- What stands for a number and for an amount of money stands for the same number in both. An
amount that is itself an object is accepted where it is written, but stands for no number. -/
theorem exists_unit_of_encodeCurrency {d : Double} (h : encodeCurrency a raw = .ok cell)
    (hd : coerceNumber a.slug raw = .ok d) : ∃ unit, cell = .number d unit := by
  obtain ⟨given, code, hcell, hgiven⟩ : ∃ given code, amountCell a given code = .ok cell ∧
      coerceNumber a.slug given = .ok d := by
    unfold encodeCurrency at h
    split at h
    · have hinner : ∀ {amount}, List.lookup "amount" _ = some amount →
          coerceNumber a.slug amount = .ok d := fun hamount =>
        coerceNumber_of_numberOrText? a.slug (numberOrText?_of_coerceNumber hamount hd)
      split at h
      · cases h
      · obtain ⟨code, -, h⟩ := bind_eq_ok_iff.mp h
        exact ⟨_, code, h, hinner ‹_›⟩
      · exact ⟨_, _, h, hinner ‹_›⟩
    · exact ⟨_, _, h, hd⟩
  rw [amountCell, hgiven, ok_bind] at hcell
  obtain ⟨unit, -, hcell⟩ := bind_eq_ok_iff.mp hcell
  cases hcell
  exact ⟨some unit, rfl⟩

theorem exists_unit_of_encodeSingle {d : Double} (htype : a.type.slot = .number)
    (h : encodeSingle a raw = .ok (some cell)) (hd : coerceNumber a.slug raw = .ok d) :
    ∃ unit, cell = .number d unit := by
  cases ht : a.type with
  | number =>
    simp only [encodeSingle, ht, hd, ok_bind] at h
    cases h
    exact ⟨none, rfl⟩
  | rating =>
    simp only [encodeSingle, ht] at h
    obtain ⟨c, hc, h⟩ := map_eq_ok_iff.mp h
    cases h
    exact ⟨none, eq_number_of_encodeRating hc hd⟩
  | currency =>
    simp only [encodeSingle, ht] at h
    obtain ⟨c, hc, h⟩ := map_eq_ok_iff.mp h
    cases h
    exact exists_unit_of_encodeCurrency hc hd
  | _ =>
    rw [ht] at htype
    cases htype

theorem equals_of_number (hslot : a.slot = .number) (htype : a.type.slot = .number)
    (h : encodeSingle a raw = .ok (some cell)) (ho : coerceOperand a raw = .ok o) :
    cell.Equals o := by
  obtain ⟨d, hd, rfl⟩ := (coerceOperand_number_iff hslot).mp ho
  obtain ⟨unit, rfl⟩ := exists_unit_of_encodeSingle htype h hd
  exact .number unit d.same_self

/-! ### Truth values, days and instants, ids -/

theorem equals_of_checkbox (hslot : a.slot = .boolean) (htype : a.type = .checkbox)
    (h : encodeSingle a raw = .ok (some cell)) (ho : coerceOperand a raw = .ok o) :
    cell.Equals o := by
  obtain ⟨b, hb, rfl⟩ := (coerceOperand_boolean_iff hslot).mp ho
  simp only [encodeSingle, htype, hb, ok_bind] at h
  cases h
  exact .boolean b

theorem equals_of_date (hslot : a.slot = .date) (htype : a.type = .date)
    (h : encodeSingle a raw = .ok (some cell)) (ho : coerceOperand a raw = .ok o) :
    cell.Equals o := by
  obtain ⟨s, hs, micros, hmicros, rfl⟩ := (coerceOperand_date_iff htype hslot).mp ho
  simp only [encodeSingle, htype, hs, hmicros, ok_bind] at h
  cases h
  exact .date micros

theorem equals_of_timestamp (hslot : a.slot = .date) (htype : a.type = .timestamp)
    (h : encodeSingle a raw = .ok (some cell)) (ho : coerceOperand a raw = .ok o) :
    cell.Equals o := by
  obtain ⟨s, hs, micros, hmicros, rfl⟩ := (coerceOperand_timestamp_iff htype hslot).mp ho
  simp only [encodeSingle, htype, hs, hmicros, ok_bind] at h
  cases h
  exact .date micros

theorem equals_of_id (hslot : a.slot = .reference) (htype : a.type.slot = .reference)
    (h : encodeSingle a raw = .ok (some cell)) (ho : coerceOperand a raw = .ok o) :
    cell.Equals o := by
  obtain ⟨id, hid, rfl⟩ := (coerceOperand_reference_iff hslot).mp ho
  suffices hcell : cell = .reference id by
    rw [hcell]
    exact .reference id
  cases ht : a.type with
  | select | status =>
    simp only [encodeSingle, ht, hid, ok_bind] at h
    split at h <;> cases h
    rfl
  | recordReference | actorReference =>
    simp only [encodeSingle, ht, hid, ok_bind] at h
    cases h
    rfl
  | _ =>
    rw [ht] at htype
    cases htype

/-! ### Single values -/

/-- A single value that is asked for as it was written equals what is stored, unless it is a domain
that does not stay alike. Structured values are never asked for in this way. -/
theorem equals_of_encodeSingle_iff (hslot : a.slot = a.type.slot)
    (hstructured : a.type.slot ≠ .structured) (h : encodeSingle a raw = .ok (some cell))
    (ho : coerceOperand a raw = .ok o) : cell.Equals o ↔
      (a.type = .domain → ∀ s, raw = .str s → Text.alike (normalizeDomain s) s = true) := by
  cases htype : a.type with
  | domain =>
    rw [equals_of_domain_iff (by rw [hslot, htype]; rfl) htype h ho]
    exact ⟨fun halike _ => halike, fun halike => halike rfl⟩
  | text => exact iff_of_true (equals_of_plain (by rw [hslot, htype]; rfl) (.inl htype) h ho) nofun
  | phone => exact iff_of_true (equals_of_plain (by rw [hslot, htype]; rfl) (.inr htype) h ho) nofun
  | email => exact iff_of_true (equals_of_email (by rw [hslot, htype]; rfl) htype h ho) nofun
  | number | currency | rating =>
    exact iff_of_true
      (equals_of_number (by rw [hslot, htype]; rfl) (by rw [htype]; rfl) h ho) nofun
  | checkbox => exact iff_of_true (equals_of_checkbox (by rw [hslot, htype]; rfl) htype h ho) nofun
  | date => exact iff_of_true (equals_of_date (by rw [hslot, htype]; rfl) htype h ho) nofun
  | timestamp =>
    exact iff_of_true (equals_of_timestamp (by rw [hslot, htype]; rfl) htype h ho) nofun
  | select | status | recordReference | actorReference =>
    exact iff_of_true (equals_of_id (by rw [hslot, htype]; rfl) (by rw [htype]; rfl) h ho) nofun
  | personalName | location | interaction =>
    rw [htype] at hstructured
    exact absurd rfl hstructured

/-! ### Sets -/

/-- But for names and locations, which may come as arrays and may be empty without being blank, what
is accepted is no array and stands for something. -/
theorem exists_cell_of_encodeSingle {made : Option Cell} (hname : a.type ≠ .personalName)
    (hplace : a.type ≠ .location) (h : encodeSingle a raw = .ok made) :
    (∀ items, raw ≠ .arr items) ∧ ∃ cell, made = some cell := by
  constructor
  · rintro items rfl
    cases htype : a.type with
    | personalName => exact hname htype
    | location => exact hplace htype
    | _ =>
      simp only [encodeSingle, htype] at h
      cases h
  · cases htype : a.type with
    | personalName => exact absurd htype hname
    | location => exact absurd htype hplace
    | text | phone | domain | number | checkbox | recordReference | actorReference =>
      simp only [encodeSingle, htype] at h
      obtain ⟨_, -, h⟩ := bind_eq_ok_iff.mp h
      exact ⟨_, (Except.ok.inj h).symm⟩
    | date | timestamp =>
      simp only [encodeSingle, htype] at h
      obtain ⟨_, -, h⟩ := bind_eq_ok_iff.mp h
      obtain ⟨_, -, h⟩ := bind_eq_ok_iff.mp h
      exact ⟨_, (Except.ok.inj h).symm⟩
    | rating | currency =>
      simp only [encodeSingle, htype] at h
      obtain ⟨cell, -, rfl⟩ := map_eq_ok_iff.mp h
      exact ⟨cell, rfl⟩
    | email | select | status =>
      simp only [encodeSingle, htype] at h
      obtain ⟨_, -, h⟩ := bind_eq_ok_iff.mp h
      split at h <;> cases h
      exact ⟨_, rfl⟩
    | interaction =>
      simp only [encodeSingle, htype] at h
      split at h <;> cases h
      exact ⟨_, rfl⟩

/-- The items of sets are given as texts. -/
theorem exists_str_of_allowsSets {made : Option Cell} (hset : a.type.allowsSets = true)
    (h : encodeSingle a raw = .ok made) : ∃ s, raw = .str s := by
  suffices hstring : ∃ s, expectString a.slug raw = .ok s by
    obtain ⟨s, hs⟩ := hstring
    exact ⟨s, eq_str_of_expectString hs⟩
  cases htype : a.type with
  | phone | email | domain =>
    simp only [encodeSingle, htype] at h
    obtain ⟨s, hs, -⟩ := bind_eq_ok_iff.mp h
    exact ⟨s, hs⟩
  | select | recordReference | actorReference =>
    simp only [encodeSingle, htype] at h
    obtain ⟨id, hid, -⟩ := bind_eq_ok_iff.mp h
    obtain ⟨s, hs, -⟩ := bind_eq_ok_iff.mp hid
    exact ⟨s, hs⟩
  | _ =>
    rw [htype] at hset
    cases hset

/-- A set has the member that is stored of each of its items, so that the item is found in it. -/
theorem accepts_contains_of_collectMembers {items members : List Json} (hisSet : a.isSet = true)
    (h : collectMembers a [] items = .ok members) {item : Json} (hitem : item ∈ items) {t : Test}
    (ht : compileTest a .contains item = .ok t) :
    t.accepts (some (.structured (.arr members))) = true := by
  obtain ⟨-, m, hm, rfl⟩ := (compileTest_contains_eq_ok_iff hisSet).mp ht
  obtain ⟨-, rfl⟩ := collectMembers_nil_eq_ok_iff.mp h
  rw [accepts_contains, hasMember_of_item hitem hm]

/-- Each item of a set that is not blank may be asked for, but for names and locations, of which no
sets are made. -/
theorem exists_compileTest_contains {items members : List Json} (hisSet : a.isSet = true)
    (hname : a.type ≠ .personalName) (hplace : a.type ≠ .location)
    (h : collectMembers a [] items = .ok members) {item : Json} (hitem : item ∈ items)
    (hblank : item.isBlank = false) : ∃ t, compileTest a .contains item = .ok t := by
  obtain ⟨made, hmade⟩ := (collectMembers_nil_eq_ok_iff.mp h).1 item hitem
  have hmember := hmade
  rw [encodeMember, hblank, if_neg Bool.false_ne_true] at hmade
  obtain ⟨cell, hcell, hmade⟩ := bind_eq_ok_iff.mp hmade
  obtain ⟨hsingle, cell, rfl⟩ := exists_cell_of_encodeSingle hname hplace hcell
  obtain ⟨v, -, hmade⟩ := bind_eq_ok_iff.mp hmade
  cases hmade
  exact ⟨_, (compileTest_contains_eq_ok_iff hisSet).mpr ⟨hsingle, _, hmember, rfl⟩⟩

/-! ### Values -/

/-- What is stored of a value is found by the value as it was written: a single value by equality,
except for domains that do not stay alike, and a set by each item that is not blank. -/
theorem accepts_of_encodeValue (h : encodeValue a raw = .ok (some cell)) :
    (¬ a.isSet = true → ∀ t, compileTest a .equals raw = .ok t →
      (t.accepts (some cell) = true ↔
        (a.type = .domain → ∀ s, raw = .str s → Text.alike (normalizeDomain s) s = true))) ∧
    (a.isSet = true → ∀ items, raw = .arr items → ∀ item ∈ items, item.isBlank = false →
      (a.type ≠ .personalName → a.type ≠ .location → ∃ t, compileTest a .contains item = .ok t) ∧
        ∀ t, compileTest a .contains item = .ok t → t.accepts (some cell) = true) := by
  have hgiven : raw.isBlank = false := (encodeValue_cases h).1
  constructor
  · intro hsingle t ht
    rw [encodeValue_of_single hsingle hgiven] at h
    obtain ⟨hlegal, -, -, o, ho, rfl⟩ := (compileTest_one_eq_ok_iff (by decide) (by decide)).mp ht
    rw [AttributeHead.operators, if_neg hsingle] at hlegal
    have hstructured : a.type.slot ≠ .structured := by
      intro hslot
      rw [hslot] at hlegal
      revert hlegal
      decide
    rw [accepts_equals_iff]
    exact equals_of_encodeSingle_iff (if_neg hsingle) hstructured h ho
  · rintro hisSet items rfl item hitem hblank
    rw [encodeValue, hgiven, if_neg Bool.false_ne_true, if_pos hisSet] at h
    obtain ⟨members, hmembers, h⟩ := bind_eq_ok_iff.mp h
    cases members with
    | nil => cases h
    | cons m rest =>
      cases h
      refine ⟨fun hname hplace => ?_, fun t ht => ?_⟩
      · exact exists_compileTest_contains hisSet hname hplace hmembers hitem hblank
      · exact accepts_contains_of_collectMembers hisSet hmembers hitem ht

end

/-! ### Domains -/

theorem encodeSingle_domain {a : Attribute} (htype : a.type = .domain) (s : String) :
    encodeSingle a (.str s) = .ok (some (.text (normalizeDomain s))) := by
  simp only [encodeSingle, htype]
  rfl

theorem encodeMember_domain {a : Attribute} (htype : a.type = .domain) {s : String}
    (hblank : Text.isBlank s = false) :
    encodeMember a (.str s) = .ok (some (.str (normalizeDomain s))) := by
  rw [encodeMember, Json.isBlank_str, hblank, if_neg Bool.false_ne_true,
    encodeSingle_domain htype, ok_bind]
  refine bind_eq_ok_iff.mpr ⟨.text (normalizeDomain s), ?_, rfl⟩
  exact decodeSingle_text (by rw [htype]; rfl) _

theorem encodeValue_singleton {a : Attribute} (hisSet : a.isSet = true) {item m : Json}
    (h : encodeMember a item = .ok (some m)) :
    encodeValue a (.arr [item]) = .ok (some (.structured (.arr [m]))) := by
  rw [encodeValue, Json.isBlank_arr_cons (exists_of_encodeMember h).1, if_neg Bool.false_ne_true,
    if_pos hisSet]
  exact bind_eq_ok_iff.mpr ⟨[m], bind_eq_ok_iff.mpr ⟨some m, h, rfl⟩, rfl⟩

theorem compileTest_domain {a : Attribute} (hsingle : ¬ a.isSet = true) (htype : a.type = .domain)
    {s : String} (hblank : Text.isBlank s = false) :
    compileTest a .equals (.str s) = .ok ⟨a.id, .equals, [.text (Text.fold s)]⟩ := by
  refine compileTest_equals_text ?_ hblank
  rw [AttributeHead.slot, if_neg hsingle, htype]
  rfl

def website : Attribute where
  id := default
  parent := .object default
  slug := "website"
  title := "Website"
  type := .domain
  settings := .obj []
  isSystem := false
  isRequired := false
  isUnique := false
  isSet := false
  sortOrder := 0
  createdAt := ⟨0⟩
  options := []
  statuses := []

theorem encodeValue_website {s : String} (hblank : Text.isBlank s = false) :
    encodeValue website (.str s) = .ok (some (.text (normalizeDomain s))) :=
  (encodeValue_of_single (by decide) ((Json.isBlank_str s).trans hblank)).trans
    (encodeSingle_domain rfl s)

def websites : Attribute := { website with isSet := true }

/-- A bare domain is found in the spelling in which it was written; as the member of a set, one
with a scheme and a slash at its end is found as well. -/
theorem accepts_website :
    (encodeValue website (.str " Docs.A.io") = .ok (some (.text "docs.a.io")) ∧
      ∃ t, compileTest website .equals (.str " Docs.A.io") = .ok t ∧
        t.accepts (some (.text "docs.a.io")) = true) ∧
    (encodeValue websites (.arr [.str "https://b.io/"]) =
        .ok (some (.structured (.arr [.str "b.io"]))) ∧
      ∃ t, compileTest websites .contains (.str "https://b.io/") = .ok t ∧
        t.accepts (some (.structured (.arr [.str "b.io"]))) = true) := by
  have hnormal : normalizeDomain " Docs.A.io" = "docs.a.io" := by decide +kernel
  have hsingle : encodeValue website (.str " Docs.A.io") = .ok (some (.text "docs.a.io")) :=
    hnormal ▸ encodeValue_website (by decide)
  have htest := compileTest_domain (a := website) (by decide) rfl (s := " Docs.A.io") (by decide)
  have hset : encodeValue websites (.arr [.str "https://b.io/"]) =
      .ok (some (.structured (.arr [.str "b.io"]))) := by
    have hmember := encodeMember_domain (a := websites) rfl (s := "https://b.io/") (by decide)
    rw [show normalizeDomain "https://b.io/" = "b.io" by decide +kernel] at hmember
    exact encodeValue_singleton rfl hmember
  refine ⟨⟨hsingle, _, htest, ?_⟩, hset, ?_⟩
  · refine ((accepts_of_encodeValue hsingle).1 (by decide) _ htest).mpr ?_
    rintro - _ hs
    rw [← Json.str.inj hs]
    decide +kernel
  · obtain ⟨hcompiled, haccepts⟩ := (accepts_of_encodeValue hset).2 rfl _ rfl (.str "https://b.io/")
      (.head _) (by decide)
    obtain ⟨t, ht⟩ := hcompiled (by decide) (by decide)
    exact ⟨t, ht, haccepts t ht⟩

/-- Written alone, a domain with a scheme is not found by what was written. -/
theorem accepts_website_eq_false :
    encodeValue website (.str "https://a.io") = .ok (some (.text "a.io")) ∧
      ∃ t, compileTest website .equals (.str "https://a.io") = .ok t ∧
        t.accepts (some (.text "a.io")) = false := by
  have hnormal : normalizeDomain "https://a.io" = "a.io" := by decide +kernel
  have htest := compileTest_domain (a := website) (by decide) rfl (s := "https://a.io") (by decide)
  refine ⟨hnormal ▸ encodeValue_website (by decide), _, htest, ?_⟩
  rw [← Bool.not_eq_true, accepts_equals_iff, Cell.equals_text_iff]
  decide +kernel

end RecordStore
