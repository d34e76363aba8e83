import Mathlib
import RecordStore.Proofs.Collected
import RecordStore.Proofs.Instants
import RecordStore.Proofs.Parts
import RecordStore.Proofs.WholeDoubles

/-!
# Values written back

What is shown of a stored value may be given again. Main statement: it is accepted and stored as it
was, for every type but domain. Single values are treated type by type. The members of a set are
each stored in the shape in which they are shown, and no two of them are the same, so that a set
which is given again is collected to itself.
-/

namespace RecordStore

/-- The same content; of numbers, the same number, so that the zeros of both signs are the same. -/
inductive Cell.Same : Cell → Cell → Prop
  | refl (c : Cell) : Same c c
  | number {d e : Double} (unit : Option String) (same : d.same e = true) :
      Same (.number d unit) (.number e unit)

/-- The public value is not blank, and the single value made of it is the given cell. -/
def WrittenBack (a : Attribute) (cell : Cell) (v : Value) : Prop :=
  v.toJson.isBlank = false ∧
    ∃ again, encodeSingle a v.toJson = .ok (some again) ∧ cell.Same again

/-! ### Single values -/

section

variable {a : Attribute} {raw : Json} {cell : Cell} {v : Value}

/-! #### Texts -/

theorem writtenBack_text {s : String} (hslot : a.type.slot = .text)
    (hblank : Text.isBlank s = false) (h : encodeSingle a (.str s) = .ok (some (.text s)))
    (hv : decodeSingle a.type (.text s) = .ok v) : WrittenBack a (.text s) v := by
  rw [decodeSingle_text hslot] at hv
  cases hv
  exact ⟨(Json.isBlank_str s).trans hblank, .text s, h, .refl _⟩

theorem writtenBack_plain (htype : a.type = .text ∨ a.type = .phone)
    (hblank : raw.isBlank = false) (h : encodeSingle a raw = .ok (some cell))
    (hv : decodeSingle a.type cell = .ok v) : WrittenBack a cell v := by
  have hencode : encodeSingle a raw = do return some (.text (← expectString a.slug raw)) := by
    rcases htype with htype | htype <;> simp only [encodeSingle, htype]
  have hslot : a.type.slot = .text := by rcases htype with htype | htype <;> rw [htype] <;> rfl
  have hcell := h
  rw [hencode] at hcell
  obtain ⟨s, hs, hcell⟩ := bind_eq_ok_iff.mp hcell
  cases hcell
  cases eq_str_of_expectString hs
  exact writtenBack_text hslot ((Json.isBlank_str s).symm.trans hblank) h hv

theorem at_mem_of_isEmail {cs : List Char} (h : isEmail cs = true) : '@' ∈ cs := by
  rw [isEmail] at h
  split at h
  · cases h
  · rename_i c domain hcs
    have hhead : c ∈ (cs.dropWhile (· ≠ '@')).head? := by rw [hcs]; rfl
    have hat : c = '@' := by
      have hnot := List.head?_dropWhile_not (· ≠ '@') cs
      rw [Option.mem_def.mp hhead] at hnot
      simpa using hnot
    rw [← hat]
    exact (List.dropWhile_suffix _).subset (List.mem_of_mem_head? hhead)

theorem writtenBack_email (htype : a.type = .email) (h : encodeSingle a raw = .ok (some cell))
    (hv : decodeSingle a.type cell = .ok v) : WrittenBack a cell v := by
  simp only [encodeSingle, htype] at h
  obtain ⟨s, -, h⟩ := bind_eq_ok_iff.mp h
  split at h
  · rename_i hemail
    cases h
    have hslot : a.type.slot = .text := by rw [htype]; rfl
    refine writtenBack_text hslot
      (Text.isBlank_eq_false (at_mem_of_isEmail hemail) (by decide)) ?_ hv
    simp only [encodeSingle, htype]
    refine bind_eq_ok_iff.mpr ⟨Text.trim s, rfl, ?_⟩
    rw [Text.trim_trim, if_pos hemail]
  · cases h

/-! #### Numbers -/

namespace Double

/-- A public number is read as the number that it shows, but for the sign of a zero. -/
theorem exists_number?_toJson (d : Double) : ∃ e, d.toJson.number? = some e ∧
    e.rank = d.rank ∧ (d.rank ≠ 0 → e.negative = d.negative) := by
  cases hn : d.int64? with
  | none =>
    rw [toJson, hn]
    exact ⟨d, rfl, rfl, fun _ => rfl⟩
  | some n =>
    rw [toJson, hn]
    rw [int64?, Option.filter_eq_some_iff] at hn
    exact exists_ofInt?_eq_some hn.1

theorem exists_coerceNumber_toJson (d : Double) (slug : String) :
    ∃ e, coerceNumber slug d.toJson = .ok e ∧ e.rank = d.rank ∧ d.same e = true := by
  obtain ⟨e, he, hrank, hsign⟩ := d.exists_number?_toJson
  exact ⟨e, coerceNumber_of_number? slug he, hrank, same_of_rank hrank hsign⟩

theorem isBlank_toJson (d : Double) : d.toJson.isBlank = false := by
  rw [toJson]
  cases d.int64? <;> simp [Json.isBlank]

theorem isNone_whole?_congr {d e : Double} (h : e.rank = d.rank) :
    e.whole?.isNone = d.whole?.isNone := by
  have hunits : e.units = d.units := congrArg unitsAt h
  rw [whole?, whole?, hunits]
  split
  · rw [Option.isNone_some, Option.isNone_some]
  · rw [Option.isNone_none]

end Double

theorem writtenBack_number (htype : a.type = .number) (h : encodeSingle a raw = .ok (some cell))
    (hv : decodeSingle a.type cell = .ok v) : WrittenBack a cell v := by
  simp only [encodeSingle, htype] at h
  obtain ⟨d, -, h⟩ := bind_eq_ok_iff.mp h
  cases h
  rw [htype] at hv
  cases hv
  obtain ⟨e, he, -, hsame⟩ := d.exists_coerceNumber_toJson a.slug
  refine ⟨d.isBlank_toJson, .number e none, ?_, .number none hsame⟩
  simp only [encodeSingle, htype, Value.toJson]
  exact bind_eq_ok_iff.mpr ⟨e, he, rfl⟩

theorem writtenBack_rating (htype : a.type = .rating) (h : encodeSingle a raw = .ok (some cell))
    (hv : decodeSingle a.type cell = .ok v) : WrittenBack a cell v := by
  simp only [encodeSingle, htype] at h
  obtain ⟨c, hc, h⟩ := map_eq_ok_iff.mp h
  cases h
  obtain ⟨d, rfl, hfits⟩ := exists_of_encodeRating hc
  rw [htype] at hv
  cases hv
  obtain ⟨e, he, hrank, hsame⟩ := d.exists_coerceNumber_toJson a.slug
  have hplace : e.place = d.place := (beq_iff_eq.mp hsame).symm
  refine ⟨d.isBlank_toJson, .number e none, ?_, .number none hsame⟩
  simp only [encodeSingle, htype, Value.toJson]
  refine map_eq_ok_iff.mpr ⟨.number e none, bind_eq_ok_iff.mpr ⟨e, he, ?_⟩, rfl⟩
  -- the bounds speak of the place of a number and of whether it is whole, not of its sign
  rw [if_neg]
  rwa [Double.isNone_whole?_congr hrank, hplace]

/-! #### Amounts of money -/

theorem toUpper_of_isAlpha {c : Char} (h : c.isAlpha = true) :
    c.toUpper.isAlpha = true ∧ Text.isSpace c.toUpper = false ∧ c.toUpper.toUpper = c.toUpper := by
  have hascii : ∀ n : Fin 128, (Char.ofNat n).isAlpha = true →
      (Char.ofNat n).toUpper.isAlpha = true ∧ Text.isSpace (Char.ofNat n).toUpper = false ∧
        (Char.ofNat n).toUpper.toUpper = (Char.ofNat n).toUpper := by decide
  have hlt : c.toNat < 128 := by
    have hbounds : 65 ≤ c.toNat ∧ c.toNat ≤ 90 ∨ 97 ≤ c.toNat ∧ c.toNat ≤ 122 := by
      simpa [Char.isAlpha, Char.isUpper, Char.isLower, UInt32.le_iff_toNat_le] using h
    omega
  have hc := hascii ⟨c.toNat, hlt⟩
  rw [Char.ofNat_toNat] at hc
  exact hc h

/-- A currency code is written in the form in which it is read. -/
theorem currencyCode_stable {slug other given code : String}
    (h : currencyCode slug given = .ok code) : currencyCode other code = .ok code := by
  simp only [currencyCode] at h
  split at h
  · rename_i hgiven
    obtain ⟨hlength, halpha⟩ := hgiven
    cases h
    generalize Text.trimChars given.toList = cs at hlength halpha
    have hletter : ∀ c ∈ cs, c.toUpper.isAlpha = true ∧ Text.isSpace c.toUpper = false ∧
        c.toUpper.toUpper = c.toUpper :=
      fun c hc => toUpper_of_isAlpha (List.all_eq_true.mp halpha c hc)
    have htrim : Text.trimChars (cs.map Char.toUpper) = cs.map Char.toUpper :=
      Text.trimChars_of_forall (List.forall_mem_map.mpr fun c hc => (hletter c hc).2.1)
    have hupper : (cs.map Char.toUpper).all Char.isAlpha = true :=
      List.all_eq_true.mpr (List.forall_mem_map.mpr fun c hc => (hletter c hc).1)
    have htwice : (cs.map Char.toUpper).map Char.toUpper = cs.map Char.toUpper := by
      rw [List.map_map]
      exact List.map_congr_left fun c hc => (hletter c hc).2.2
    simp only [currencyCode, String.toList_ofList, htrim, htwice]
    rw [if_pos ⟨by rw [List.length_map, hlength], hupper⟩]
  · cases h

theorem encodeCurrency_obj (a : Attribute) (amount : Json) (code : String) :
    encodeCurrency a (.obj [("amount", amount), ("currency", .str code)]) =
      amountCell a amount code := by
  have hamount : List.lookup "amount" [("amount", amount), ("currency", .str code)] =
      some amount := by simp
  have hcode : List.lookup "currency" [("amount", amount), ("currency", .str code)] =
      some (.str code) := by simp [List.lookup_cons]
  simp only [encodeCurrency, hamount, hcode]
  rfl

theorem writtenBack_currency (htype : a.type = .currency)
    (h : encodeSingle a raw = .ok (some cell)) (hv : decodeSingle a.type cell = .ok v) :
    WrittenBack a cell v := by
  simp only [encodeSingle, htype] at h
  obtain ⟨c, hc, h⟩ := map_eq_ok_iff.mp h
  cases h
  obtain ⟨d, given, code, hcode, rfl⟩ := exists_of_encodeCurrency hc
  rw [htype] at hv
  cases hv
  obtain ⟨e, he, -, hsame⟩ := d.exists_coerceNumber_toJson a.slug
  have hamount : amountCell a d.toJson code = .ok (.number e (some code)) := by
    rw [amountCell]
    exact bind_eq_ok_iff.mpr ⟨e, he, bind_eq_ok_iff.mpr ⟨code, currencyCode_stable hcode, rfl⟩⟩
  refine ⟨?_, .number e (some code), ?_, .number _ hsame⟩
  · rw [Value.toJson, Json.isBlank, Json.blankMembers, d.isBlank_toJson, Bool.false_and]
  · rw [Value.toJson, Option.getD_some]
    simp only [encodeSingle, htype, encodeCurrency_obj]
    exact map_eq_ok_iff.mpr ⟨.number e (some code), hamount, rfl⟩

/-! #### Truth values -/

theorem writtenBack_checkbox (htype : a.type = .checkbox)
    (h : encodeSingle a raw = .ok (some cell)) (hv : decodeSingle a.type cell = .ok v) :
    WrittenBack a cell v := by
  simp only [encodeSingle, htype] at h
  obtain ⟨b, -, h⟩ := bind_eq_ok_iff.mp h
  cases h
  rw [htype] at hv
  cases hv
  refine ⟨by simp [Value.toJson, Json.isBlank], .boolean b, ?_, .refl _⟩
  simp only [encodeSingle, htype, Value.toJson]
  rfl

/-! #### Dates and timestamps -/

theorem writtenBack_date (htype : a.type = .date) (h : encodeSingle a raw = .ok (some cell))
    (hv : decodeSingle a.type cell = .ok v) : WrittenBack a cell v := by
  simp only [encodeSingle, htype] at h
  obtain ⟨given, -, h⟩ := bind_eq_ok_iff.mp h
  obtain ⟨micros, hparse, h⟩ := bind_eq_ok_iff.mp h
  cases h
  rw [htype] at hv
  obtain ⟨s, hs, rfl⟩ := map_eq_ok_iff.mp hv
  -- what is stored is the start of a day, so that nothing is cut when it is written
  obtain ⟨day, rfl⟩ := Calendar.exists_day_of_parseDate hparse
  have hread := Calendar.parseDate_of_formatDate hs
  rw [Int.mul_ediv_cancel day (by decide)] at hread
  refine ⟨(Json.isBlank_str s).trans (Calendar.isBlank_of_formatDate hs), _, ?_, .refl _⟩
  simp only [encodeSingle, htype, Value.toJson]
  exact bind_eq_ok_iff.mpr ⟨s, rfl, bind_eq_ok_iff.mpr ⟨_, hread, rfl⟩⟩

theorem writtenBack_timestamp (htype : a.type = .timestamp)
    (h : encodeSingle a raw = .ok (some cell)) (hv : decodeSingle a.type cell = .ok v) :
    WrittenBack a cell v := by
  simp only [encodeSingle, htype] at h
  obtain ⟨given, -, h⟩ := bind_eq_ok_iff.mp h
  obtain ⟨micros, -, h⟩ := bind_eq_ok_iff.mp h
  cases h
  rw [htype] at hv
  obtain ⟨s, hs, rfl⟩ := map_eq_ok_iff.mp hv
  have hread := Calendar.parseTimestamp_of_formatTimestamp hs
  refine ⟨(Json.isBlank_str s).trans (Calendar.isBlank_of_formatTimestamp hs), _, ?_, .refl _⟩
  simp only [encodeSingle, htype, Value.toJson]
  exact bind_eq_ok_iff.mpr ⟨s, rfl, bind_eq_ok_iff.mpr ⟨micros, hread, rfl⟩⟩

/-! #### Ids -/

theorem writtenBack_id {id : Id} (hslot : a.type.slot = .reference)
    (h : encodeSingle a (.str id.text) = .ok (some (.reference id)))
    (hv : decodeSingle a.type (.reference id) = .ok v) : WrittenBack a (.reference id) v := by
  rw [decodeSingle_reference hslot] at hv
  cases hv
  exact ⟨(Json.isBlank_str id.text).trans id.isBlank_text, .reference id, h, .refl _⟩

theorem writtenBack_select (htype : a.type = .select) (h : encodeSingle a raw = .ok (some cell))
    (hv : decodeSingle a.type cell = .ok v) : WrittenBack a cell v := by
  obtain ⟨id, rfl, hoption⟩ := hasOption_of_encodeSingle h htype
  refine writtenBack_id (by rw [htype]; rfl) ?_ hv
  simp only [encodeSingle, htype]
  exact bind_eq_ok_iff.mpr ⟨id, coerceId_text a.slug id, if_pos hoption⟩

theorem writtenBack_status (htype : a.type = .status) (h : encodeSingle a raw = .ok (some cell))
    (hv : decodeSingle a.type cell = .ok v) : WrittenBack a cell v := by
  obtain ⟨id, rfl, hstatus⟩ := hasStatus_of_encodeSingle h htype
  refine writtenBack_id (by rw [htype]; rfl) ?_ hv
  simp only [encodeSingle, htype]
  exact bind_eq_ok_iff.mpr ⟨id, coerceId_text a.slug id, if_pos hstatus⟩

theorem writtenBack_reference (htype : a.type = .recordReference ∨ a.type = .actorReference)
    (h : encodeSingle a raw = .ok (some cell)) (hv : decodeSingle a.type cell = .ok v) :
    WrittenBack a cell v := by
  have hencode : ∀ j, encodeSingle a j = do return some (.reference (← coerceId a.slug j)) := by
    intro j
    rcases htype with htype | htype <;> simp only [encodeSingle, htype]
  have hslot : a.type.slot = .reference := by
    rcases htype with htype | htype <;> rw [htype] <;> rfl
  rw [hencode] at h
  obtain ⟨id, -, h⟩ := bind_eq_ok_iff.mp h
  cases h
  refine writtenBack_id hslot ?_ hv
  rw [hencode]
  exact bind_eq_ok_iff.mpr ⟨id, coerceId_text a.slug id, rfl⟩

/-! #### Structured values -/

theorem encodeName_toJson (a : Attribute) (n : PersonalName) :
    encodeName a n.toJson = if n.normalized.isEmpty then .ok none
      else .ok (some (.structured n.normalized.toJson)) := by
  obtain ⟨members, hmembers⟩ : ∃ members, n.toJson = .obj members := ⟨_, rfl⟩
  have hread := n.ofJson?_toJson
  rw [hmembers] at hread ⊢
  simp only [encodeName, hread]

theorem writtenBack_name (htype : a.type = .personalName)
    (h : encodeSingle a raw = .ok (some cell)) (hv : decodeSingle a.type cell = .ok v) :
    WrittenBack a cell v := by
  simp only [encodeSingle, htype] at h
  obtain ⟨name, hempty, rfl⟩ := exists_of_encodeName h
  rw [htype] at hv
  simp only [decodeSingle, PersonalName.ofJson?_toJson] at hv
  cases hv
  refine ⟨PersonalName.isBlank_toJson hempty, _, ?_, .refl _⟩
  simp only [encodeSingle, htype, Value.toJson, encodeName_toJson,
    PersonalName.normalized_normalized, hempty, if_neg Bool.false_ne_true]

theorem writtenBack_location (htype : a.type = .location)
    (h : encodeSingle a raw = .ok (some cell)) (hv : decodeSingle a.type cell = .ok v) :
    WrittenBack a cell v := by
  simp only [encodeSingle, htype] at h
  obtain ⟨place, hempty, rfl⟩ := exists_of_encodeLocation h
  rw [htype] at hv
  simp only [decodeSingle, Location.ofJson?_toJson] at hv
  cases hv
  refine ⟨Location.isBlank_toJson hempty, _, ?_, .refl _⟩
  simp only [encodeSingle, htype, Value.toJson, encodeLocation, Location.ofJson?_toJson,
    Location.normalized_normalized, hempty, if_neg Bool.false_ne_true]

theorem writtenBack_interaction (htype : a.type = .interaction) (hblank : raw.isBlank = false)
    (h : encodeSingle a raw = .ok (some cell)) (hv : decodeSingle a.type cell = .ok v) :
    WrittenBack a cell v := by
  simp only [encodeSingle, htype] at h
  split at h
  · rename_i hobject
    cases h
    rw [htype] at hv
    cases hv
    refine ⟨hblank, .structured raw, ?_, .refl _⟩
    simp only [encodeSingle, htype, Value.toJson]
    exact if_pos hobject
  · cases h

/-- What is shown of a single value is written back, whatever its type but domain. -/
theorem writtenBack_of_encodeSingle (hdomain : a.type ≠ .domain) (hblank : raw.isBlank = false)
    (h : encodeSingle a raw = .ok (some cell)) (hv : decodeSingle a.type cell = .ok v) :
    WrittenBack a cell v := by
  cases htype : a.type with
  | domain => exact absurd htype hdomain
  | text => exact writtenBack_plain (.inl htype) hblank h hv
  | phone => exact writtenBack_plain (.inr htype) hblank h hv
  | email => exact writtenBack_email htype h hv
  | number => exact writtenBack_number htype h hv
  | rating => exact writtenBack_rating htype h hv
  | currency => exact writtenBack_currency htype h hv
  | checkbox => exact writtenBack_checkbox htype h hv
  | date => exact writtenBack_date htype h hv
  | timestamp => exact writtenBack_timestamp htype h hv
  | select => exact writtenBack_select htype h hv
  | status => exact writtenBack_status htype h hv
  | recordReference => exact writtenBack_reference (.inl htype) h hv
  | actorReference => exact writtenBack_reference (.inr htype) h hv
  | personalName => exact writtenBack_name htype h hv
  | location => exact writtenBack_location htype h hv
  | interaction => exact writtenBack_interaction htype hblank h hv

end

/-- A domain loses one scheme each time it is written, which is why domains are left out. -/
example : normalizeDomain "https://http://a" = "http://a" ∧ normalizeDomain "http://a" = "a" := by
  cbv

/-! ### Members of sets -/

/-- A member of a set in the form in which it is stored, shown and taken back. -/
structure Canonical (a : Attribute) (member : Json) : Prop where
  notBlank : member.isBlank = false
  encoded : encodeMember a member = .ok (some member)
  decoded : decodeMember a.type member = .ok member

/-- The members are all canonical, and no two of them are the same. -/
structure CanonicalSet (a : Attribute) (members : List Json) : Prop where
  canonical : ∀ m ∈ members, Canonical a m
  apart : members.Pairwise fun m n => sameMember m n = false

section

variable {a : Attribute}

theorem Cell.Same.eq_of_slot_ne {c d : Cell} (h : c.Same d) (hslot : c.slot ≠ .number) : d = c := by
  cases h with
  | refl => rfl
  | number => exact absurd rfl hslot

/-- A member of a set is shown as it is stored. -/
theorem decodeMember_toJson {cell : Cell} {v : Value} (hset : a.type.allowsSets = true)
    (h : decodeSingle a.type cell = .ok v) : decodeMember a.type v.toJson = .ok v.toJson := by
  have hslot := slot_of_decodeSingle h
  rcases ValueType.slot_of_allowsSets hset with htype | htype
  · cases cell with
    | text s =>
      rw [decodeSingle_text htype] at h
      cases h
      simp only [decodeMember, htype]
    | _ => cases hslot.trans htype
  · cases cell with
    | reference id =>
      rw [decodeSingle_reference htype] at h
      cases h
      simp only [decodeMember, htype, Value.toJson, Id.ofTrimmed?_text]
    | _ => cases hslot.trans htype

theorem canonical_of_encodeMember {item member : Json} (hset : a.type.allowsSets = true)
    (hdomain : a.type ≠ .domain) (h : encodeMember a item = .ok (some member)) :
    Canonical a member := by
  obtain ⟨hblank, cell, v, hmade, hv, rfl⟩ := exists_of_encodeMember h
  obtain ⟨hshown, again, hagain, hsame⟩ := writtenBack_of_encodeSingle hdomain hblank hmade hv
  have hslot : cell.slot ≠ .number := by
    rw [slot_of_encodeSingle hmade]
    rcases ValueType.slot_of_allowsSets hset with hslot | hslot <;> rw [hslot] <;> decide
  rw [hsame.eq_of_slot_ne hslot] at hagain
  refine ⟨hshown, ?_, decodeMember_toJson hset hv⟩
  rw [encodeMember, hshown, if_neg Bool.false_ne_true]
  exact bind_eq_ok_iff.mpr ⟨some cell, hagain, bind_eq_ok_iff.mpr ⟨v, hv, rfl⟩⟩

/-! ### Sets -/

/-- Collected members are a canonical set. -/
theorem canonicalSet_of_collectMembers (hset : a.type.allowsSets = true)
    (hdomain : a.type ≠ .domain) {items members : List Json}
    (h : collectMembers a [] items = .ok members) : CanonicalSet a members := by
  refine ⟨fun m hm => ?_, pairwise_of_collectMembers h⟩
  obtain ⟨item, -, hmade⟩ := exists_item_of_collectMembers h hm
  exact canonical_of_encodeMember hset hdomain hmade

/-- The members of a canonical set are collected to that set. -/
theorem collectMembers_of_canonicalSet {members : List Json} (h : CanonicalSet a members) :
    collectMembers a [] members = .ok members := by
  have hself : members.filterMap a.member? = members := filterMap_eq_self_iff.mpr fun m hm =>
    member?_eq_some_iff.mpr (h.canonical m hm).encoded
  refine collectMembers_nil_eq_ok_iff.mpr ⟨fun m hm => ⟨_, (h.canonical m hm).encoded⟩, ?_⟩
  rw [hself, distinctMembers_eq_self h.apart]

theorem mapM_decodeMember {members : List Json}
    (h : ∀ m ∈ members, decodeMember a.type m = .ok m) :
    members.mapM (decodeMember a.type) = .ok members := by
  induction members with
  | nil => rfl
  | cons m rest ih =>
    rw [List.forall_mem_cons] at h
    rw [List.mapM_cons]
    exact bind_eq_ok_iff.mpr ⟨m, h.1, bind_eq_ok_iff.mpr ⟨rest, ih h.2, rfl⟩⟩

theorem decodeCell_canonicalSet {members : List Json} (hisSet : a.isSet = true)
    (h : CanonicalSet a members) :
    decodeCell a (.structured (.arr members)) = .ok (.set members) := by
  rw [decodeCell, if_pos hisSet, mapM_decodeMember fun m hm => (h.canonical m hm).decoded]
  rfl

/-! ### Values -/

theorem decodeCell_of_single (hsingle : ¬ a.isSet = true) (cell : Cell) :
    decodeCell a cell = decodeSingle a.type cell := by
  unfold decodeCell
  rw [if_neg hsingle]

theorem encodeValue_canonicalSet {m : Json} {rest : List Json} (hisSet : a.isSet = true)
    (h : CanonicalSet a (m :: rest)) :
    encodeValue a (.arr (m :: rest)) = .ok (some (.structured (.arr (m :: rest)))) := by
  have hm : m.isBlank = false := (h.canonical m List.mem_cons_self).notBlank
  rw [encodeValue, Json.isBlank_arr_cons hm, if_neg Bool.false_ne_true, if_pos hisSet]
  exact bind_eq_ok_iff.mpr ⟨m :: rest, collectMembers_of_canonicalSet h, rfl⟩

/-- What is shown of a stored value can be written back, and changes nothing. -/
theorem encodeValue_toJson {raw : Json} {cell : Cell} {v : Value} (hdomain : a.type ≠ .domain)
    (hset : a.isSet = true → a.type.allowsSets = true) (h : encodeValue a raw = .ok (some cell))
    (hv : decodeCell a cell = .ok v) :
    ∃ again, encodeValue a v.toJson = .ok (some again) ∧ cell.Same again := by
  obtain ⟨hblank, ⟨hisSet, items, m, rest, hmembers, rfl⟩ | ⟨hsingle, h⟩⟩ := encodeValue_cases h
  · have hcanonical : CanonicalSet a (m :: rest) :=
      canonicalSet_of_collectMembers (hset hisSet) hdomain hmembers
    rw [decodeCell_canonicalSet hisSet hcanonical] at hv
    cases hv
    exact ⟨_, encodeValue_canonicalSet hisSet hcanonical, .refl _⟩
  · rw [decodeCell_of_single hsingle] at hv
    obtain ⟨hshown, again, hagain, hsame⟩ := writtenBack_of_encodeSingle hdomain hblank h hv
    exact ⟨again, (encodeValue_of_single hsingle hshown).trans hagain, hsame⟩

end

def departure : Attribute where
  id := default
  parent := .object default
  slug := "departure"
  title := "Departure"
  type := .timestamp
  settings := .obj []
  isSystem := false
  isRequired := false
  isUnique := false
  isSet := false
  sortOrder := 0
  createdAt := ⟨0⟩
  options := []
  statuses := []

/-- A time on the evening of a leap day, to the west, is shown as one of the next day, without the
zero at the end of its fraction. -/
theorem encodeValue_departure :
    encodeValue departure (.str "2024-02-29T23:30:00.50-01:00") =
        .ok (some (.date 1709253000500000)) ∧
      decodeCell departure (.date 1709253000500000) = .ok (.date "2024-03-01T00:30:00.5Z") ∧
      ∃ again, encodeValue departure (.str "2024-03-01T00:30:00.5Z") = .ok (some again) ∧
        Cell.Same (.date 1709253000500000) again := by
  have hencode : encodeValue departure (.str "2024-02-29T23:30:00.50-01:00") =
      .ok (some (.date 1709253000500000)) :=
    (encodeValue_of_single (by decide) (by cbv)).trans (by cbv)
  have hdecode : decodeCell departure (.date 1709253000500000) =
      .ok (.date "2024-03-01T00:30:00.5Z") := by cbv
  exact ⟨hencode, hdecode, encodeValue_toJson (by decide) (by decide) hencode hdecode⟩

end RecordStore
