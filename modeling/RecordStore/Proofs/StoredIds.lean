import RecordStore.Proofs.Folding
import RecordStore.Proofs.IdTexts
import RecordStore.Proofs.MixedRanks
import RecordStore.Proofs.Pointers

/-!
# Ids as they are stored and compared

Ids are given in several spellings and compared as bytes, as texts and as members of sets. Main
statement: the text of an id is read as that id, texts of ids are in the order of the ids, and
however an id is spelled, what is stored of it, what filters ask for and what references are found
by is its text.
-/

namespace RecordStore

/-! ### Folded texts of ids -/

namespace Id

theorem toNat_lt_of_mem_chars {id : Id} {c : Char} (h : c ∈ id.chars) :
    c.toNat < 0xC0 ∧ Text.isCapital c.toNat = false := by
  have hdigit : ∀ n : Fin 16, (Text.hexDigit n).toNat < 0xC0 ∧
      Text.isCapital (Text.hexDigit n).toNat = false := by decide +kernel
  exact id.forall_mem_chars (P := fun c => c.toNat < 0xC0 ∧ Text.isCapital c.toNat = false)
    (by decide +kernel) (fun n hn => hdigit ⟨n, hn⟩) c h

/-- The text of an id is its own folded form. -/
theorem fold_text (id : Id) : Text.fold id.text = id.text := by
  have hchars : id.text.toList = id.chars := String.toList_ofList
  have htrimmed : Text.Trimmed id.text.toList := by
    rw [Text.trimmed_iff, ← Text.toList_trim, trim_text]
  exact Text.fold_eq_self htrimmed fun c hc => toNat_lt_of_mem_chars (hchars ▸ hc)

end Id

/-- Members of sets of ids are the same just if the ids are. -/
theorem sameMember_choiceMember_iff {id other : Id} :
    sameMember (choiceMember other) (choiceMember id) = true ↔ other = id := by
  rw [choiceMember, choiceMember, sameMember_str_iff, Id.fold_text, Id.fold_text,
    Id.text_injective.eq_iff]

theorem hasMember_choiceMember_iff {ids : List Id} {id : Id} :
    hasMember (ids.map choiceMember) (choiceMember id) = true ↔ id ∈ ids := by
  rw [hasMember, List.any_map, List.any_eq_true]
  simp only [Function.comp_apply, sameMember_choiceMember_iff, exists_eq_right]

theorem holds_reference_iff {id other : Id} : (Cell.reference other).Holds id ↔ other = id := by
  constructor
  · rintro ⟨⟩
    rfl
  · rintro rfl
    exact .single

theorem accepts_reference {attributeId : Id} {operator : Operator}
    (h : operator = .equals ∨ operator = .isIn) (id other : Id) :
    Test.accepts ⟨attributeId, operator, [.reference id]⟩ (some (.reference other)) =
      (id == other) := by
  rcases h with rfl | rfl
  · exact Bool.bne_false _
  · exact (Bool.bne_false _).trans (Bool.or_false _)

theorem accepts_idSet {attributeId : Id} {operator : Operator}
    (h : operator = .contains ∨ operator = .isIn) (id : Id) (ids : List Id) :
    Test.accepts ⟨attributeId, operator, [.member (choiceMember id)]⟩ (some (idSet ids)) =
      hasMember (ids.map choiceMember) (choiceMember id) := by
  rcases h with rfl | rfl
  · exact Bool.bne_false _
  · exact (Bool.bne_false _).trans (Bool.or_false _)

/-! ### Spelled ids -/

/-- What is blank is no id. -/
theorem Id.isBlank_of_ofTrimmed? {s : String} {id : Id} (h : Id.ofTrimmed? s = some id) :
    Text.isBlank s = false := by
  rw [← Bool.not_eq_true]
  intro hblank
  rw [Id.ofTrimmed?, Id.ofText?, Text.toList_trim, Text.trimChars_of_isBlank hblank] at h
  cases h

section

variable {s : String} {id : Id} (h : Id.ofTrimmed? s = some id) {a : Attribute}
  (hslot : a.type.slot = .reference)

include h

theorem coerceId_of_ofTrimmed? (slug : String) : coerceId slug (.str s) = .ok id := by
  refine bind_eq_ok_iff.mpr ⟨s, rfl, ?_⟩
  rw [h]

include hslot

/-- However an id is spelled, it is written alike. -/
theorem encodeSingle_of_ofTrimmed? :
    encodeSingle a (.str s) = encodeSingle a (.str id.text) := by
  have hid : coerceId a.slug (.str s) = coerceId a.slug (.str id.text) :=
    (coerceId_of_ofTrimmed? h a.slug).trans (coerceId_text a.slug id).symm
  cases htype : a.type with
  | select | status | recordReference | actorReference => simp only [encodeSingle, htype, hid]
  | _ =>
    rw [htype] at hslot
    cases hslot

theorem eq_reference_of_encodeSingle {cell : Cell}
    (hcell : encodeSingle a (.str s) = .ok (some cell)) : cell = .reference id := by
  have hid := coerceId_of_ofTrimmed? h a.slug
  cases htype : a.type with
  | select | status =>
    simp only [encodeSingle, htype, hid, ok_bind] at hcell
    split at hcell <;> cases hcell
    rfl
  | recordReference | actorReference =>
    simp only [encodeSingle, htype, hid, ok_bind] at hcell
    cases hcell
    rfl
  | _ =>
    rw [htype] at hslot
    cases hslot

theorem encodeMember_of_ofTrimmed? :
    encodeMember a (.str s) = encodeMember a (.str id.text) := by
  rw [encodeMember, encodeMember, Json.isBlank_str, Json.isBlank_str, id.isBlank_text,
    Id.isBlank_of_ofTrimmed? h, encodeSingle_of_ofTrimmed? h hslot]

theorem eq_choiceMember_of_encodeMember {m : Json}
    (hm : encodeMember a (.str s) = .ok (some m)) : m = choiceMember id := by
  obtain ⟨other, hother, rfl⟩ := exists_id_of_encodeMember hslot hm
  cases eq_reference_of_encodeSingle h hslot hother
  rfl

/-! ### Filters -/

theorem coerceOperand_of_ofTrimmed? :
    coerceOperand a (.str s) = coerceOperand a (.str id.text) := by
  have hid := (coerceId_of_ofTrimmed? h a.slug).trans (coerceId_text a.slug id).symm
  have hslots : a.slot = .structured ∨ a.slot = .reference := by
    rw [AttributeHead.slot]
    split
    · exact .inl rfl
    · exact .inr hslot
  rcases hslots with hset | hsingle
  · simp only [coerceOperand, hset, encodeMember_of_ofTrimmed? h hslot]
  · simp only [coerceOperand, hsingle, hid]

theorem compileTest_of_ofTrimmed? (operator : Operator) :
    compileTest a operator (.str s) = compileTest a operator (.str id.text) := by
  have hraw (t : String) (ht : Text.isBlank t = false) :
      rawOperands a operator (.str t) = .ok [.str t] := by
    rw [rawOperands, Json.isBlank_str, ht, if_neg Bool.false_ne_true]
    rintro items ⟨⟩
  simp only [compileTest, hraw s (Id.isBlank_of_ofTrimmed? h), hraw id.text id.isBlank_text,
    ok_bind, List.mapM_cons, List.mapM_nil, coerceOperand_of_ofTrimmed? h hslot]

/-- A filter that asks for an id, in whatever spelling, selects the values that hold it. -/
theorem accepts_iff_holds {operator : Operator}
    (hoperator : operator = .equals ∨ operator = .contains ∨ operator = .isIn) {t : Test}
    (ht : compileTest a operator (.str s) = .ok t) {cell : Cell}
    (hcell : OfIds a.toAttributeHead cell) : t.accepts (some cell) = true ↔ cell.Holds id := by
  obtain ⟨hallowed, rfl⟩ := (compileTest_eq_ok_iff (c := ⟨a.slug, operator, .str s⟩)).mp ht
  have hlegal : operator ∈ a.operators := hallowed.legal
  have hcompared : (Condition.mk a.slug operator (.str s)).compared = [.str s] := by
    rcases hoperator with rfl | rfl | rfl <;> rfl
  obtain ⟨o, ho⟩ := Option.isSome_iff_exists.mp (hallowed.denotes (.str s) (by simp [hcompared]))
  rw [Condition.test, hcompared, List.filterMap_cons, ho, List.filterMap_nil]
  rw [← coerceOperand_eq_ok_iff] at ho
  rcases hcell with ⟨hsingle, other, rfl⟩ | ⟨hset, ids, -, -, rfl⟩
  · have hslot' : a.slot = .reference := by
      rw [AttributeHead.slot, if_neg (by simp [hsingle]), hslot]
    obtain ⟨asked, hasked, rfl⟩ := (coerceOperand_reference_iff hslot').mp ho
    cases (coerceId_of_ofTrimmed? h a.slug).symm.trans hasked
    have hcompares : operator = .equals ∨ operator = .isIn := by
      rw [AttributeHead.operators, if_neg (by simp [hsingle]), hslot] at hlegal
      rcases hoperator with rfl | rfl | rfl
      · exact .inl rfl
      · exact absurd hlegal (by decide)
      · exact .inr rfl
    rw [accepts_reference hcompares, beq_iff_eq, holds_reference_iff, eq_comm]
  · obtain ⟨m, hm, rfl⟩ := (coerceOperand_set_iff hset).mp ho
    have hcompares : operator = .contains ∨ operator = .isIn := by
      rw [AttributeHead.operators, if_pos hset] at hlegal
      rcases hoperator with rfl | rfl | rfl
      · exact absurd hlegal (by decide)
      · exact .inl rfl
      · exact .inr rfl
    rw [eq_choiceMember_of_encodeMember h hslot hm, accepts_idSet hcompares,
      hasMember_choiceMember_iff, holds_idSet]

end

/-! ### What a text stands for -/

/-- However an id is spelled, its text is what is stored of it and what it is found by. -/
structure Id.StandsFor (id : Id) (s : String) : Prop where
  /-- The text has the digits that were given, small and in groups. -/
  written : ∃ form : Id.Form, ∃ digits, digits.length = 32 ∧
    form.write digits = Text.trimChars s.toList ∧
      id.text = String.ofList (Id.hyphenated (digits.map Char.toLower))
  single : ∀ a : Attribute, a.type.slot = .reference →
    encodeSingle a (.str s) = encodeSingle a (.str id.text) ∧
      ∀ cell, encodeSingle a (.str s) = .ok (some cell) → cell = .reference id
  member : ∀ a : Attribute, a.type.slot = .reference →
    encodeMember a (.str s) = encodeMember a (.str id.text) ∧
      ∀ m, encodeMember a (.str s) = .ok (some m) → m = .str id.text
  /-- Filters that ask for the id select the values that hold it, by itself or as a member. -/
  asked : ∀ a : Attribute, a.type.slot = .reference → ∀ operator,
    compileTest a operator (.str s) = compileTest a operator (.str id.text) ∧
      (operator = .equals ∨ operator = .contains ∨ operator = .isIn →
        ∀ t, compileTest a operator (.str s) = .ok t → ∀ cell, OfIds a.toAttributeHead cell →
          (t.accepts (some cell) = true ↔ cell.Holds id))
  pointed : ∀ (row : ValueRow) (a : AttributeHead), OfIds a row.cell →
    (row.pointsTo a id = true ↔ row.cell.Holds id)

theorem Id.standsFor_of_ofTrimmed? {id : Id} {s : String} (h : Id.ofTrimmed? s = some id) :
    id.StandsFor s where
  written := by
    obtain ⟨form, digits, hdigits, hwritten⟩ := Id.ofTrimmed?_eq_some_iff.mp h
    refine ⟨form, digits, Id.length_of_toLower hdigits, hwritten, ?_⟩
    rw [hdigits, Id.hyphenated_digits, Id.text]
  single _ hslot :=
    ⟨encodeSingle_of_ofTrimmed? h hslot, fun _ => eq_reference_of_encodeSingle h hslot⟩
  member _ hslot :=
    ⟨encodeMember_of_ofTrimmed? h hslot, fun _ => eq_choiceMember_of_encodeMember h hslot⟩
  asked _ hslot operator := ⟨compileTest_of_ofTrimmed? h hslot operator,
    fun hoperator _ ht _ => accepts_iff_holds h hslot hoperator ht⟩
  pointed _ _ hids := pointsTo_iff hids id

theorem refersTo_iff_text (a b : Id) :
    (Cell.reference a).refersTo b = (a.text == b.text) := by
  rw [Cell.refersTo, Bool.eq_iff_iff, beq_iff_eq, beq_iff_eq, Id.text_injective.eq_iff]

/-- The text of an id is read as that id. Texts of ids are the same and are ordered as the ids are
by their bytes, so that references without ranks are in the order that rows without keys are in.
A text is read as an id just if it spells that id, and then it stands for it. -/
theorem Id.text_canonical :
    (∀ id : Id, Id.ofText? id.text = some id ∧ Id.ofTrimmed? id.text = some id) ∧
    (∀ a b : Id, compare a.text b.text = compare a.bytes b.bytes ∧
      (Cell.reference a).refersTo b = (a.text == b.text) ∧
      ∀ ranks : List (Id × Int), ranks.lookup a = none ∨ ranks.lookup b = none →
        compareReferences ranks a b = compare a b) ∧
    ∀ (s : String) (id : Id),
      (Id.ofTrimmed? s = some id ↔ id.SpelledBy s) ∧
        (Id.ofTrimmed? s = some id → id.StandsFor s) := by
  refine ⟨fun id => ⟨id.ofText?_text, id.ofTrimmed?_text⟩, fun a b => ⟨Id.compare_text a b,
    refersTo_iff_text a b, fun ranks hranks => ?_⟩, fun s id =>
    ⟨Id.ofTrimmed?_eq_some_iff, Id.standsFor_of_ofTrimmed?⟩⟩
  rw [compareReferences_unranked hranks, Id.compare_text]

def dnsId : Id :=
  ⟨[0x6B, 0xA7, 0xB8, 0x10, 0x9D, 0xAD, 0x11, 0xD1, 0x80, 0xB4, 0x00, 0xC0, 0x4F, 0xD4, 0x30, 0xC8],
    rfl⟩

/-- An id in braces and in capitals, between blanks, is written small and bare. -/
theorem standsFor_dnsId :
    Id.ofTrimmed? " \x7b6BA7B810-9DAD-11D1-80B4-00C04FD430C8\x7d\n" = some dnsId ∧
      dnsId.text = "6ba7b810-9dad-11d1-80b4-00c04fd430c8" ∧
      dnsId.StandsFor " \x7b6BA7B810-9DAD-11D1-80B4-00C04FD430C8\x7d\n" := by
  have hread : Id.ofTrimmed? " \x7b6BA7B810-9DAD-11D1-80B4-00C04FD430C8\x7d\n" = some dnsId := by
    decide +kernel
  exact ⟨hread, by decide +kernel, (Id.text_canonical.2.2 _ _).2 hread⟩

end RecordStore
