import Mathlib
import RecordStore.Proofs.Members
import RecordStore.Proofs.Retrieved
import RecordStore.Proofs.Writes

/-!
# Keys of sets

Whether members are the same is asked of their folded texts, and so is whether single texts have one
key. The key of a set is the text of its array, in which the members stand as they were spelled.
Main statement: of two arrays whose items are the same one by one, sets are stored that no test
tells apart and whose members have the same keys one by one, but the sets themselves have one key
just if their members are spelled alike.
-/

namespace RecordStore

/-! ### Texts that are alike -/

/-- Two members are texts that are the same as members. -/
inductive AlikeTexts : Json → Json → Prop
  | intro {s t : String} (same : Text.fold s = Text.fold t) : AlikeTexts (.str s) (.str t)

theorem AlikeTexts.sameMember_eq {m n k l : Json} (h : AlikeTexts m n) (h' : AlikeTexts k l) :
    sameMember m k = sameMember n l := by
  obtain ⟨hs⟩ := h
  obtain ⟨ht⟩ := h'
  simp only [sameMember, Text.alike, hs, ht]

section

variable {members others : List Json}

/-- What is left out as the same as something before it is left out in both. -/
theorem alikeTexts_distinctMembers (h : List.Forall₂ AlikeTexts members others) :
    List.Forall₂ AlikeTexts (distinctMembers members) (distinctMembers others) := by
  induction members using distinct_induction generalizing others with
  | nil =>
    rw [List.forall₂_nil_left_iff.mp h]
    exact .nil
  | cons m rest ih =>
    obtain ⟨n, more, hmn, hrest, rfl⟩ := List.forall₂_cons_left_iff.mp h
    rw [distinctMembers_cons, distinctMembers_cons]
    refine .cons hmn (ih (List.rel_filter (fun k l hkl => ?_) hrest))
    simp only [hmn.sameMember_eq hkl]

theorem hasMember_of_alikeTexts (h : List.Forall₂ AlikeTexts members others) (candidate : Json) :
    hasMember members candidate = hasMember others candidate := by
  induction h with
  | nil => rfl
  | @cons m n _ _ hmn _ ih =>
    obtain ⟨hsame⟩ := hmn
    rw [hasMember, hasMember, List.any_cons, List.any_cons,
      sameMember_of_same (beq_iff_eq.mpr hsame) candidate]
    exact congrArg _ ih

theorem exists_texts_of_alikeTexts (h : List.Forall₂ AlikeTexts members others) :
    ∃ texts texts' : List String, members = texts.map .str ∧ others = texts'.map .str ∧
      List.Forall₂ (fun s t => Text.fold s = Text.fold t) texts texts' := by
  induction h with
  | nil => exact ⟨[], [], rfl, rfl, .nil⟩
  | cons hmn _ ih =>
    obtain ⟨hsame⟩ := hmn
    obtain ⟨texts, texts', rfl, rfl, hrest⟩ := ih
    exact ⟨_ :: texts, _ :: texts', rfl, rfl, .cons hsame hrest⟩

end

/-! ### Keys of arrays of texts -/

/-- The set whose members are the given texts. -/
def textSet (texts : List String) : Cell := .structured (.arr (texts.map .str))

/-- A set of texts is read back from its key, so no other set of texts has it. -/
theorem canonicalKey_textSet_iff {texts texts' : List String} :
    (textSet texts).canonicalKey = (textSet texts').canonicalKey ↔ texts = texts' := by
  refine ⟨fun hkey => ?_, fun h => h ▸ rfl⟩
  have hplain : ∀ texts : List String, Json.ItemsInOrder (texts.map .str) ∧
      Json.WholeItems (texts.map .str) := by
    intro texts
    refine Json.plain_of_texts fun m hm => ?_
    obtain ⟨s, -, rfl⟩ := List.mem_map.mp hm
    exact ⟨s, rfl⟩
  have harrays : Json.arr (texts.map .str) = .arr (texts'.map .str) :=
    Json.eq_of_text_eq (hplain texts).1 (hplain texts).2 (hplain texts').1 (hplain texts').2 hkey
  exact List.map_injective_iff.mpr (fun _ _ => Json.str.inj) (Json.arr.inj harrays)

/-! ### Main statement -/

/-- Two items are made to members that are the same, or both of them are blank. -/
inductive Attribute.MakesSame (a : Attribute) (item other : Json) : Prop
  | blank (left : encodeMember a item = .ok none) (right : encodeMember a other = .ok none)
  | same {m n : Json} (left : encodeMember a item = .ok (some m))
      (right : encodeMember a other = .ok (some n)) (alike : sameMember m n = true)

section

variable {a : Attribute}

theorem exists_str_of_encodeMember_text (hslot : a.type.slot = .text) {item m : Json}
    (h : encodeMember a item = .ok (some m)) : ∃ s, m = .str s := by
  obtain ⟨-, cell, v, hcell, hv, rfl⟩ := exists_of_encodeMember h
  have htext := (slot_of_encodeSingle hcell).trans hslot
  cases cell with
  | text s =>
    cases (decodeSingle_text hslot s).symm.trans hv
    exact ⟨s, rfl⟩
  | _ => cases htext

theorem alikeTexts_of_makesSame (hslot : a.type.slot = .text) {items others : List Json}
    (h : List.Forall₂ a.MakesSame items others) :
    List.Forall₂ AlikeTexts (items.filterMap a.member?) (others.filterMap a.member?) := by
  refine List.rel_filterMap (fun item other hsame => ?_) h
  cases hsame with
  | blank left right =>
    rw [member?_of_encodeMember left, member?_of_encodeMember right]
    exact .none
  | same left right alike =>
    rw [member?_of_encodeMember left, member?_of_encodeMember right]
    obtain ⟨s, rfl⟩ := exists_str_of_encodeMember_text hslot left
    obtain ⟨t, rfl⟩ := exists_str_of_encodeMember_text hslot right
    exact .some ⟨beq_iff_eq.mp alike⟩

/-- Arrays whose items are the same one by one are stored as sets that are the same to every test,
and whose members would by themselves have the same keys. The sets have one key, and one of them
stands in the way of the other where values are unique, just if their members are spelled alike. -/
theorem canonicalKey_sets_iff (hisSet : a.isSet = true) (hslot : a.type.slot = .text)
    {items others : List Json} (h : List.Forall₂ a.MakesSame items others) {c d : Cell}
    (hc : encodeValue a (.arr items) = .ok (some c))
    (hd : encodeValue a (.arr others) = .ok (some d)) :
    (∀ t : Test, t.accepts (some c) = t.accepts (some d)) ∧
      ∃ texts texts', c = textSet texts ∧ d = textSet texts' ∧
        List.Forall₂ (fun s t => (Cell.text s).canonicalKey = (Cell.text t).canonicalKey) texts
          texts' ∧
        (c.canonicalKey = d.canonicalKey ↔ texts = texts') ∧
        (a.isUnique = true → ∀ owner other, owner ≠ other →
          (keyTaken [newRow owner (a, c)] other a.id (keyOf a d) = true ↔ texts = texts')) := by
  have hc' := (encodeValue_set_eq_ok_iff hisSet).mp hc
  have hd' := (encodeValue_set_eq_ok_iff hisSet).mp hd
  have halike := alikeTexts_distinctMembers (alikeTexts_of_makesSame hslot h)
  have htests := accepts_ofMembers (hasMember_of_alikeTexts halike)
  obtain ⟨texts, texts', hmembers, hothers, hkeys⟩ := exists_texts_of_alikeTexts halike
  rw [show Json.items (.arr items) = items from rfl, hmembers] at hc'
  rw [show Json.items (.arr others) = others from rfl, hothers] at hd'
  rw [hmembers, hothers, hc'.2, hd'.2] at htests
  obtain ⟨-, rfl⟩ := ofMembers_eq_some_iff.mp hc'.2
  obtain ⟨-, rfl⟩ := ofMembers_eq_some_iff.mp hd'.2
  refine ⟨htests, texts, texts', rfl, rfl, hkeys, canonicalKey_textSet_iff, ?_⟩
  intro hunique owner other hne
  rw [← canonicalKey_textSet_iff]
  simp [keyTaken, keyOf, newRow, hunique, hne, textSet]

end

def emails : Attribute :=
  { phones with slug := "emails", title := "Emails", type := .email, isUnique := true }

theorem encodeMember_emails {s t : String} (hblank : Text.isBlank s = false)
    (htrim : Text.trim s = t) (hemail : isEmail t.toList = true) :
    encodeMember emails (.str s) = .ok (some (.str t)) := by
  have hsingle : encodeSingle emails (.str s) = .ok (some (.text t)) :=
    (encodeSingle_email_iff rfl).mpr ⟨htrim.symm ▸ hemail, htrim⟩
  rw [encodeMember, Json.isBlank_str, hblank, if_neg Bool.false_ne_true, hsingle]
  rfl

/-- White space around an address is not part of its spelling: nobody else may have the set. -/
theorem canonicalKey_sets_ada :
    List.Forall₂ emails.MakesSame [.str " Ada@Example.com"] [.str "Ada@Example.com"] ∧
      encodeValue emails (.arr [.str " Ada@Example.com"]) =
        .ok (some (textSet ["Ada@Example.com"])) ∧
      encodeValue emails (.arr [.str "Ada@Example.com"]) =
        .ok (some (textSet ["Ada@Example.com"])) ∧
      ∀ owner other, owner ≠ other →
        keyTaken [newRow owner (emails, textSet ["Ada@Example.com"])] other emails.id
          (keyOf emails (textSet ["Ada@Example.com"])) = true := by
  have hspaced := encodeMember_emails (s := " Ada@Example.com") (t := "Ada@Example.com")
    (by decide +kernel) (by decide +kernel) (by decide +kernel)
  have hbare := encodeMember_emails (s := "Ada@Example.com") (t := "Ada@Example.com")
    (by decide +kernel) (by decide +kernel) (by decide +kernel)
  have hsame : List.Forall₂ emails.MakesSame [.str " Ada@Example.com"] [.str "Ada@Example.com"] :=
    .cons (.same hspaced hbare (sameMember_self _)) .nil
  have hc := encodeValue_singleton (a := emails) rfl hspaced
  have hd := encodeValue_singleton (a := emails) rfl hbare
  obtain ⟨-, texts, texts', htexts, htexts', -, hkeys, htaken⟩ :=
    canonicalKey_sets_iff rfl rfl hsame hc hd
  exact ⟨hsame, hc, hd, fun owner other hne => (htaken rfl owner other hne).mpr (hkeys.mp rfl)⟩

/-- An address in capitals is the same member as in small letters, and has the same key by itself,
but as a set another one, so that two owners of a unique attribute may have it. -/
theorem canonicalKey_sets_ada_ne :
    List.Forall₂ emails.MakesSame [.str "Ada@Example.com"] [.str "ada@example.com"] ∧
      encodeValue emails (.arr [.str "Ada@Example.com"]) =
        .ok (some (textSet ["Ada@Example.com"])) ∧
      encodeValue emails (.arr [.str "ada@example.com"]) =
        .ok (some (textSet ["ada@example.com"])) ∧
      (Cell.text "Ada@Example.com").canonicalKey = (Cell.text "ada@example.com").canonicalKey ∧
      (textSet ["Ada@Example.com"]).canonicalKey ≠ (textSet ["ada@example.com"]).canonicalKey := by
  have hcapital := encodeMember_emails (s := "Ada@Example.com") (t := "Ada@Example.com")
    (by decide +kernel) (by decide +kernel) (by decide +kernel)
  have hsmall := encodeMember_emails (s := "ada@example.com") (t := "ada@example.com")
    (by decide +kernel) (by decide +kernel) (by decide +kernel)
  have hfold : Text.fold "Ada@Example.com" = Text.fold "ada@example.com" := by decide +kernel
  refine ⟨.cons (.same hcapital hsmall (beq_iff_eq.mpr hfold)) .nil,
    encodeValue_singleton rfl hcapital, encodeValue_singleton rfl hsmall, hfold, ?_⟩
  rw [Ne, canonicalKey_textSet_iff]
  decide

end RecordStore
