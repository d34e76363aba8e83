import Mathlib
import RecordStore.Proofs.LetterCase
import RecordStore.Proofs.Members
import RecordStore.Proofs.Shown

/-!
# Domains written again

A domain is stored without the white space around it, without its scheme, without its closing
slashes and in lower case. Each of these is taken off once and in this order, so that a scheme in
capitals, or behind another scheme, is left, and so is white space that stood behind a scheme or
before a slash. Main statement: what is shown of a domain can be written again, and is stored as it
is just if it is not empty, has no white space around it and begins with no scheme.
-/

namespace RecordStore

/-! ### What is taken off -/

def schemes : List (List Char) := ["https://".toList, "http://".toList]

def withoutScheme (cs : List Char) : List Char :=
  ((dropHead? "https://".toList cs).or (dropHead? "http://".toList cs)).getD cs

def withoutSlashes (cs : List Char) : List Char := cs.rdropWhile (· == '/')

def domainChars (cs : List Char) : List Char :=
  Text.lowerAfter [] (withoutSlashes (withoutScheme (Text.trimChars cs)))

theorem toList_normalizeDomain (s : String) :
    (normalizeDomain s).toList = domainChars s.toList := by
  rw [normalizeDomain, Text.lower, String.toList_ofList, String.toList_ofList]
  rfl

theorem dropHead?_eq_some_iff {head cs rest : List Char} :
    dropHead? head cs = some rest ↔ cs = head ++ rest := by
  rw [dropHead?]
  constructor
  · intro h
    split at h
    · rename_i hhead
      obtain ⟨tail, rfl⟩ := List.isPrefixOf_iff_prefix.mp hhead
      rw [List.drop_left] at h
      rw [Option.some.inj h]
    · cases h
  · rintro rfl
    rw [if_pos (List.isPrefixOf_iff_prefix.mpr (List.prefix_append _ _)), List.drop_left]

theorem dropHead?_eq_none_iff {head cs : List Char} :
    dropHead? head cs = none ↔ ¬ head <+: cs := by
  rw [dropHead?, ← List.isPrefixOf_iff_prefix]
  split <;> simp [*]

/-- A text begins with a scheme, which is taken off, or with none. -/
theorem withoutScheme_cases (cs : List Char) :
    (∃ scheme ∈ schemes, cs = scheme ++ withoutScheme cs) ∨
      (∀ scheme ∈ schemes, ¬ scheme <+: cs) ∧ withoutScheme cs = cs := by
  rw [withoutScheme]
  cases hsecure : dropHead? "https://".toList cs with
  | some rest => exact .inl ⟨_, .head _, dropHead?_eq_some_iff.mp hsecure⟩
  | none =>
    cases hplain : dropHead? "http://".toList cs with
    | some rest => exact .inl ⟨_, .tail _ (.head _), dropHead?_eq_some_iff.mp hplain⟩
    | none =>
      refine .inr ⟨?_, rfl⟩
      rw [schemes, List.forall_mem_cons, List.forall_mem_singleton]
      exact ⟨dropHead?_eq_none_iff.mp hsecure, dropHead?_eq_none_iff.mp hplain⟩

theorem withoutScheme_isSuffix (cs : List Char) : withoutScheme cs <:+ cs := by
  rcases withoutScheme_cases cs with ⟨scheme, -, hcs⟩ | ⟨-, hcs⟩
  · exact ⟨scheme, hcs.symm⟩
  · rw [hcs]

theorem withoutScheme_eq_self_iff {cs : List Char} :
    withoutScheme cs = cs ↔ ∀ scheme ∈ schemes, ¬ scheme <+: cs := by
  rcases withoutScheme_cases cs with ⟨scheme, hscheme, hcs⟩ | ⟨hnone, hcs⟩
  · refine iff_of_false (fun hself => ?_) fun hnone => hnone scheme hscheme ⟨_, hcs.symm⟩
    rw [hself, List.self_eq_append_left] at hcs
    subst hcs
    exact absurd hscheme (by decide)
  · exact iff_of_true hcs hnone

theorem withoutSlashes_isPrefix (cs : List Char) : withoutSlashes cs <+: cs :=
  List.rdropWhile_prefix _ _

theorem getLast?_withoutSlashes_ne (cs : List Char) : (withoutSlashes cs).getLast? ≠ some '/' := by
  intro h
  rw [withoutSlashes, List.rdropWhile, List.getLast?_reverse] at h
  have hnot := List.head?_dropWhile_not (· == '/') cs.reverse
  rw [h] at hnot
  cases hnot

theorem withoutSlashes_eq_self {cs : List Char} (h : cs.getLast? ≠ some '/') :
    withoutSlashes cs = cs := by
  refine List.rdropWhile_eq_self_iff.mpr fun hne hlast => h ?_
  rw [List.getLast?_eq_some_getLast hne, beq_iff_eq.mp hlast]

theorem trimChars_sublist (cs : List Char) : (Text.trimChars cs).Sublist cs :=
  (List.rdropWhile_prefix _ _).sublist.trans (List.dropWhile_sublist _)

/-! ### Domains that stay -/

/-- A text that is a domain in the form in which domains are meant to be stored. -/
structure PlainDomain (cs : List Char) : Prop where
  trimmed : Text.Trimmed cs
  noScheme : ∀ scheme ∈ schemes, ¬ scheme <+: cs
  noSlash : cs.getLast? ≠ some '/'
  lower : ∀ c ∈ cs, Text.isCapital c.toNat = false

theorem domainChars_eq_self_iff {cs : List Char} : domainChars cs = cs ↔ PlainDomain cs := by
  constructor
  · intro h
    have hlower : ∀ c ∈ cs, Text.isCapital c.toNat = false := by
      intro c hc
      rw [← h] at hc
      exact Text.isCapital_of_mem_lowerAfter hc
    have htrim := trimChars_sublist cs
    have hscheme := (withoutScheme_isSuffix (Text.trimChars cs)).sublist
    have hslash := (withoutSlashes_isPrefix (withoutScheme (Text.trimChars cs))).sublist
    have hbare : withoutSlashes (withoutScheme (Text.trimChars cs)) = cs := by
      refine Eq.trans (Text.lowerAfter_of_not_isCapital fun c hc => ?_).symm h
      exact hlower c (htrim.subset (hscheme.subset (hslash.subset hc)))
    -- what is cut in turn has the length of the whole, so that nothing is cut
    have hlength := (congrArg List.length hbare).ge
    have htrimmed : Text.trimChars cs = cs :=
      htrim.eq_of_length_le (hlength.trans (hslash.length_le.trans hscheme.length_le))
    rw [htrimmed] at hbare hscheme hslash hlength
    have hbehind : withoutScheme cs = cs :=
      hscheme.eq_of_length_le (hlength.trans hslash.length_le)
    rw [hbehind] at hbare
    exact ⟨Text.trimmed_iff.mpr htrimmed, withoutScheme_eq_self_iff.mp hbehind,
      hbare ▸ getLast?_withoutSlashes_ne cs, hlower⟩
  · intro h
    rw [domainChars, h.trimmed.trimChars_eq, withoutScheme_eq_self_iff.mpr h.noScheme,
      withoutSlashes_eq_self h.noSlash, Text.lowerAfter_of_not_isCapital h.lower]

/-- A stored domain has no closing slash, whatever was written. -/
theorem getLast?_normalizeDomain_ne (s : String) :
    (normalizeDomain s).toList.getLast? ≠ some '/' := by
  rw [toList_normalizeDomain]
  intro h
  refine Text.getLast?_lowerAfter (P := fun c => c ≠ '/') ?_ ?_ '/' h rfl
  · rintro _ hlowered rfl
    revert hlowered
    decide
  · rintro _ hlast rfl
    exact getLast?_withoutSlashes_ne _ hlast

theorem isCapital_of_mem_normalizeDomain {s : String} :
    ∀ c ∈ (normalizeDomain s).toList, Text.isCapital c.toNat = false := by
  rw [toList_normalizeDomain]
  exact fun c => Text.isCapital_of_mem_lowerAfter

/-! ### Domains as they are shown -/

/-- What a stored domain must be to be stored as it is when it is written again. -/
structure StaysDomain (s : String) : Prop where
  given : s ≠ ""
  trimmed : Text.Trimmed s.toList
  noScheme : ∀ scheme ∈ schemes, ¬ scheme <+: s.toList

theorem isBlank_of_trimmed {s : String} (h : Text.Trimmed s.toList) :
    Text.isBlank s = false ↔ s ≠ "" := by
  constructor
  · rintro hgiven rfl
    cases hgiven
  · intro hne
    cases hcs : s.toList with
    | nil => exact absurd (String.toList_eq_nil_iff.mp hcs) hne
    | cons c rest =>
      exact Text.isBlank_eq_false (c := c) (by simp [hcs]) (h.head c (by simp [hcs]))

theorem normalizeDomain_eq_self_iff {s : String} :
    normalizeDomain s = s ↔ PlainDomain s.toList := by
  rw [← String.toList_inj, toList_normalizeDomain, domainChars_eq_self_iff]

section

variable {a : Attribute} {raw : Json} {cell : Cell}

theorem member?_domain_eq_some_iff (htype : a.type = .domain) {s : String} {m : Json} :
    a.member? (.str s) = some m ↔ Text.isBlank s = false ∧ .str (normalizeDomain s) = m := by
  rw [member?_eq_some_iff]
  cases hblank : Text.isBlank s with
  | true => simp [encodeMember_of_blank ((Json.isBlank_str s).trans hblank)]
  | false => simp [encodeMember_domain htype hblank]

theorem exists_str_of_domain (htype : a.type = .domain) {item m : Json}
    (h : encodeMember a item = .ok (some m)) :
    ∃ s, item = .str s ∧ Text.isBlank s = false ∧ m = .str (normalizeDomain s) := by
  obtain ⟨hblank, made, -, hmade, -⟩ := exists_of_encodeMember h
  obtain ⟨s, rfl⟩ := exists_str_of_allowsSets (by rw [htype]; rfl) hmade
  obtain ⟨hgiven, hm⟩ := (member?_domain_eq_some_iff htype).mp (member?_eq_some_iff.mpr h)
  exact ⟨s, rfl, hgiven, hm.symm⟩

theorem exists_encodeMember_domain (htype : a.type = .domain) (s : String) :
    ∃ made, encodeMember a (.str s) = .ok made := by
  cases hblank : Text.isBlank s with
  | true => exact ⟨none, encodeMember_of_blank ((Json.isBlank_str s).trans hblank)⟩
  | false => exact ⟨_, encodeMember_domain htype hblank⟩

theorem encodeValue_domain (htype : a.type = .domain) (hsingle : ¬ a.isSet = true) (s : String) :
    encodeValue a (.str s) =
      .ok (if Text.isBlank s then none else some (.text (normalizeDomain s))) := by
  cases hblank : Text.isBlank s with
  | true =>
    unfold encodeValue
    rw [Json.isBlank_str, hblank, if_pos rfl, if_pos rfl]
  | false =>
    rw [encodeValue_of_single hsingle ((Json.isBlank_str s).trans hblank),
      encodeSingle_domain htype, if_neg Bool.false_ne_true]

theorem decodeCell_domain (htype : a.type = .domain) (hsingle : ¬ a.isSet = true) (s : String) :
    decodeCell a (.text s) = .ok (.text s) := by
  rw [decodeCell_of_single hsingle]
  exact decodeSingle_text (by rw [htype]; rfl) s

/-- A domain that was stored once is stored again as it is just if it stays. -/
theorem member?_normalizeDomain_iff (htype : a.type = .domain) (s : String) :
    a.member? (.str (normalizeDomain s)) = some (.str (normalizeDomain s)) ↔
      StaysDomain (normalizeDomain s) := by
  rw [member?_domain_eq_some_iff htype, Json.str.injEq, normalizeDomain_eq_self_iff]
  constructor
  · rintro ⟨hgiven, hplain⟩
    exact ⟨(isBlank_of_trimmed hplain.trimmed).mp hgiven, hplain.trimmed, hplain.noScheme⟩
  · intro h
    exact ⟨(isBlank_of_trimmed h.trimmed).mpr h.given, h.trimmed, h.noScheme,
      getLast?_normalizeDomain_ne s, isCapital_of_mem_normalizeDomain⟩

/-- What is stored of domains: one by itself, or a set of distinct ones. -/
theorem cell_of_domain (htype : a.type = .domain) (h : encodeValue a raw = .ok (some cell)) :
    (¬ a.isSet = true ∧ ∃ s, cell = .text (normalizeDomain s)) ∨
      (a.isSet = true ∧ ∃ members, cell = .structured (.arr members) ∧ members ≠ [] ∧
        (members.Pairwise fun m n => sameMember m n = false) ∧
        ∀ m ∈ members, ∃ s, m = .str (normalizeDomain s)) := by
  by_cases hisSet : a.isSet = true
  · obtain ⟨-, hcell⟩ := (encodeValue_set_eq_ok_iff hisSet).mp h
    obtain ⟨hne, rfl⟩ := ofMembers_eq_some_iff.mp hcell
    refine .inr ⟨hisSet, _, rfl, hne, pairwise_distinctMembers _, fun m hm => ?_⟩
    obtain ⟨item, -, hmade⟩ := exists_item_of_mem hm
    obtain ⟨s, -, -, rfl⟩ := exists_str_of_domain htype hmade
    exact ⟨s, rfl⟩
  · rw [encodeValue_of_single hisSet (encodeValue_cases h).1] at h
    obtain ⟨s, rfl⟩ : ∃ s, raw = .str s := exists_str_of_allowsSets (by rw [htype]; rfl) h
    rw [encodeSingle_domain htype] at h
    cases h
    exact .inl ⟨hisSet, s, rfl⟩

/-- What is shown of stored domains has no closing slash and no capital. It is accepted when it is
written again, and is stored as it is just if each domain shown is not empty, has no white space
around it and begins with no scheme. -/
theorem domain_written_again (htype : a.type = .domain)
    (h : encodeValue a raw = .ok (some cell)) :
    ∃ v, decodeCell a cell = .ok v ∧
      (∀ item ∈ v.toJson.items, ∃ s, item = .str s ∧ s.toList.getLast? ≠ some '/' ∧
        ∀ c ∈ s.toList, Text.isCapital c.toNat = false) ∧
      (∃ again, encodeValue a v.toJson = .ok again) ∧
      (encodeValue a v.toJson = .ok (some cell) ↔
        ∀ s, .str s ∈ v.toJson.items → StaysDomain s) := by
  have hshown : ∀ s, ∃ t, Json.str (normalizeDomain s) = .str t ∧ t.toList.getLast? ≠ some '/' ∧
      ∀ c ∈ t.toList, Text.isCapital c.toNat = false := fun s =>
    ⟨_, rfl, getLast?_normalizeDomain_ne s, isCapital_of_mem_normalizeDomain⟩
  rcases cell_of_domain htype h with ⟨hsingle, s, rfl⟩ | ⟨hisSet, members, rfl, hne, hapart, hall⟩
  · refine ⟨.text (normalizeDomain s), decodeCell_domain htype hsingle _, ?_,
      ⟨_, encodeValue_domain htype hsingle _⟩, ?_⟩
    · exact List.forall_mem_singleton.mpr (hshown s)
    · have hself : encodeValue a (.str (normalizeDomain s)) =
          .ok (some (.text (normalizeDomain s))) ↔
            a.member? (.str (normalizeDomain s)) = some (.str (normalizeDomain s)) := by
        rw [encodeValue_domain htype hsingle, member?_domain_eq_some_iff htype]
        cases Text.isBlank (normalizeDomain s) <;> simp
      rw [Value.toJson, hself, member?_normalizeDomain_iff htype]
      simp [Json.items]
  · refine ⟨.set members, decodeCell_set_of_text hisSet (by rw [htype]; rfl) members, ?_, ?_, ?_⟩
    · intro item hitem
      obtain ⟨s, rfl⟩ := hall item hitem
      exact hshown s
    · refine ⟨_, (encodeValue_set_eq_ok_iff hisSet).mpr ⟨fun item hitem => ?_, rfl⟩⟩
      obtain ⟨s, rfl⟩ := hall item hitem
      exact exists_encodeMember_domain htype _
    · rw [Value.toJson, encodeValue_members_iff hisSet hne hapart]
      constructor
      · intro hself s hs
        obtain ⟨t, ht⟩ := hall _ hs
        rw [Json.str.inj ht]
        exact (member?_normalizeDomain_iff htype t).mp (ht ▸ hself _ hs)
      · intro hstays m hm
        obtain ⟨t, rfl⟩ := hall m hm
        exact (member?_normalizeDomain_iff htype t).mpr (hstays _ hm)

end

/-- A domain that is given with a scheme, capitals and a slash is stored without them, and stays. -/
theorem domain_written_again_docs :
    encodeValue website (.str " https://Docs.A.io/") = .ok (some (.text "docs.a.io")) ∧
      encodeValue website (.str "docs.a.io") = .ok (some (.text "docs.a.io")) := by
  have hencode : encodeValue website (.str " https://Docs.A.io/") =
      .ok (some (.text "docs.a.io")) := by
    rw [encodeValue_website (by decide)]
    rw [show normalizeDomain " https://Docs.A.io/" = "docs.a.io" by decide +kernel]
  obtain ⟨v, hv, -, -, hagain⟩ := domain_written_again (a := website) rfl hencode
  cases (decodeCell_domain (a := website) rfl (by decide) _).symm.trans hv
  refine ⟨hencode, hagain.mpr fun s hs => ?_⟩
  rw [Json.str.inj (List.mem_singleton.mp hs)]
  exact ⟨by decide, Text.trimmed_iff.mpr (by decide +kernel), by decide⟩

/-- A scheme in capitals is not taken off as one, but is put in small letters, so that it is taken
off where the domain is written again. -/
theorem domain_changed_again :
    encodeValue website (.str "HTTPS://Example.com") =
        .ok (some (.text "https://example.com")) ∧
      decodeCell website (.text "https://example.com") = .ok (.text "https://example.com") ∧
      encodeValue website (.str "https://example.com") = .ok (some (.text "example.com")) := by
  refine ⟨?_, decodeCell_domain rfl (by decide) _, ?_⟩
  · rw [encodeValue_website (by decide)]
    rw [show normalizeDomain "HTTPS://Example.com" = "https://example.com" by decide +kernel]
  · rw [encodeValue_website (by decide)]
    rw [show normalizeDomain "https://example.com" = "example.com" by decide +kernel]

end RecordStore
