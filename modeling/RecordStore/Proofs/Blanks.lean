import Mathlib
import RecordStore.Proofs.Domains
import RecordStore.Proofs.Folding
import RecordStore.Proofs.Required
import RecordStore.Proofs.Writes

/-!
# Values that come to nothing

A blank value is not stored. That it is blank is asked before it is brought into the form in which
it is stored, and once more for names and locations, of which nothing may be left. Main statement:
what is stored shows no blank value, except that of a domain nothing may be left but its scheme; so
that what is required is given, and what is not empty has something in it, but for such domains.
-/

namespace RecordStore

/-! ### Domains of which nothing is left -/

/-- A text with nothing but white space, and then slashes, behind its scheme. -/
def NamesNothing (s : String) : Prop :=
  ∃ spaces slashes, withoutScheme (Text.trimChars s.toList) = spaces ++ slashes ∧
    (∀ c ∈ spaces, Text.isSpace c = true) ∧ ∀ c ∈ slashes, c = '/'

theorem withoutSlashes_append {slashes : List Char} (cs : List Char) (h : ∀ c ∈ slashes, c = '/') :
    withoutSlashes (cs ++ slashes) = withoutSlashes cs := by
  rw [withoutSlashes, List.rdropWhile, List.reverse_append, List.dropWhile_append_of_pos]
  · rfl
  · intro c hc
    rw [h c (List.mem_reverse.mp hc)]
    rfl

theorem isBlank_normalizeDomain_iff {s : String} :
    Text.isBlank (normalizeDomain s) = true ↔ NamesNothing s := by
  rw [Text.isBlank, toList_normalizeDomain, domainChars, Text.all_isSpace_lowerAfter,
    List.all_eq_true, NamesNothing]
  generalize withoutScheme (Text.trimChars s.toList) = cs
  constructor
  · intro h
    refine ⟨withoutSlashes cs, cs.rtakeWhile (· == '/'), ?_, h, fun c hc => ?_⟩
    · exact List.rdropWhile_append_rtakeWhile.symm
    · exact beq_iff_eq.mp (List.mem_rtakeWhile_imp (p := (· == '/')) hc)
  · rintro ⟨spaces, slashes, rfl, hspaces, hslashes⟩ c hc
    rw [withoutSlashes_append spaces hslashes] at hc
    exact hspaces c ((withoutSlashes_isPrefix spaces).subset hc)

/-! ### Sets as they are shown -/

section

variable {a : Attribute} {raw : Json} {cell : Cell} {v : Value}

theorem exists_members_of_encodeValue (hisSet : a.isSet = true) (hset : a.type.allowsSets = true)
    (h : encodeValue a raw = .ok (some cell)) (hv : decodeCell a cell = .ok v) :
    ∃ members, StoredSet a raw.items members ∧ members ≠ [] ∧ v = .set members := by
  obtain ⟨hitems, hcell⟩ := (encodeValue_set_eq_ok_iff hisSet).mp h
  obtain ⟨hne, rfl⟩ := ofMembers_eq_some_iff.mp hcell
  have hcollected := collectMembers_nil_eq_ok_iff.mpr ⟨hitems, rfl⟩
  cases (decodeCell_of_collectMembers hisSet hset hcollected).symm.trans hv
  exact ⟨_, storedSet_distinctMembers hset hitems, hne, rfl⟩

/-- A member of a set of domains was made of an item, and is blank just if that names nothing. -/
theorem StoredSet.exists_item_of_domain {items members : List Json} (h : StoredSet a items members)
    (htype : a.type = .domain) {m : Json} (hm : m ∈ members) :
    ∃ s, .str s ∈ items ∧ Text.isBlank s = false ∧ (m.isBlank = true ↔ NamesNothing s) := by
  obtain ⟨item, hitem, hmade⟩ := h.made m hm
  obtain ⟨s, rfl, hgiven, rfl⟩ := exists_str_of_domain htype hmade
  exact ⟨s, hitem, hgiven, by rw [Json.isBlank_str, isBlank_normalizeDomain_iff]⟩

theorem StoredSet.exists_member_of_domain {items members : List Json}
    (h : StoredSet a items members) (htype : a.type = .domain) {s : String} (hs : .str s ∈ items)
    (hgiven : Text.isBlank s = false) :
    ∃ m ∈ members, (m.isBlank = true ↔ NamesNothing s) := by
  obtain ⟨n, hn, hmember⟩ := h.complete _ hs ((Json.isBlank_str s).trans hgiven)
  obtain ⟨m, hm, hsame⟩ := List.any_eq_true.mp hmember
  obtain ⟨t, ht, -, rfl⟩ := exists_str_of_domain htype hn
  cases ht
  obtain ⟨item, -, hmade⟩ := h.made m hm
  obtain ⟨u, -, -, rfl⟩ := exists_str_of_domain htype hmade
  refine ⟨_, hm, ?_⟩
  rw [Json.isBlank_str, ← isBlank_normalizeDomain_iff]
  have hfold : Text.fold (normalizeDomain u) = Text.fold (normalizeDomain s) := beq_iff_eq.mp hsame
  exact ⟨Text.isBlank_of_fold_eq hfold, Text.isBlank_of_fold_eq hfold.symm⟩

/-! ### Values of which nothing is left -/

/-- Nothing is left of a value that is given for an attribute, although it is not blank: it is a
domain, or a set of domains, without a name. -/
structure Attribute.EmptiedBy (a : Attribute) (raw : Json) : Prop where
  domain : a.type = .domain
  nameless : ∀ s, .str s ∈ raw.items → Text.isBlank s = false → NamesNothing s

/-- A value is stored, and something is shown of it. -/
structure Attribute.FilledBy (a : Attribute) (raw : Json) (cell : Cell) : Prop where
  stored : encodeValue a raw = .ok (some cell)
  shown : ∀ v, decodeCell a cell = .ok v → v.toJson.isBlank = false

theorem isBlank_shown_of_ne_domain (hset : a.isSet = true → a.type.allowsSets = true)
    (hdomain : a.type ≠ .domain) (h : encodeValue a raw = .ok (some cell))
    (hv : decodeCell a cell = .ok v) : v.toJson.isBlank = false ∧
      (a.isSet = true → ∀ m ∈ v.toJson.items, m.isBlank = false) := by
  by_cases hisSet : a.isSet = true
  · obtain ⟨members, hstored, hne, rfl⟩ :=
      exists_members_of_encodeValue hisSet (hset hisSet) h hv
    have hmembers : ∀ m ∈ members, m.isBlank = false := by
      intro m hm
      obtain ⟨item, -, hmade⟩ := hstored.made m hm
      exact (canonical_of_encodeMember (hset hisSet) hdomain hmade).notBlank
    refine ⟨Bool.eq_false_iff.mpr fun hblank => ?_, fun _ => hmembers⟩
    obtain ⟨m, hm⟩ := List.exists_mem_of_ne_nil _ hne
    cases (hmembers m hm).symm.trans (Json.isBlank_iff.mp hblank m hm)
  · obtain ⟨hgiven, ⟨hisSet', -⟩ | ⟨-, hsingle⟩⟩ := encodeValue_cases h
    · exact absurd hisSet' hisSet
    · rw [decodeCell_of_single hisSet] at hv
      exact ⟨(writtenBack_of_encodeSingle hdomain hgiven hsingle hv).1, fun h => absurd h hisSet⟩

theorem isBlank_shown_iff (hset : a.isSet = true → a.type.allowsSets = true)
    (h : encodeValue a raw = .ok (some cell)) (hv : decodeCell a cell = .ok v) :
    v.toJson.isBlank = true ↔ a.EmptiedBy raw := by
  by_cases htype : a.type = .domain
  swap
  · rw [(isBlank_shown_of_ne_domain hset htype h hv).1]
    exact iff_of_false Bool.false_ne_true fun hempty => htype hempty.domain
  refine Iff.trans ?_ ⟨fun hall => ⟨htype, hall⟩, Attribute.EmptiedBy.nameless⟩
  by_cases hisSet : a.isSet = true
  · obtain ⟨members, hstored, -, rfl⟩ := exists_members_of_encodeValue hisSet (hset hisSet) h hv
    rw [Json.isBlank_iff]
    constructor
    · intro hall s hs hgiven
      obtain ⟨m, hm, hblank⟩ := hstored.exists_member_of_domain htype hs hgiven
      exact hblank.mp (hall m hm)
    · intro hall m hm
      obtain ⟨s, hs, hgiven, hblank⟩ := hstored.exists_item_of_domain htype hm
      exact hblank.mpr (hall s hs hgiven)
  · obtain ⟨s, rfl⟩ : ∃ s, raw = .str s := by
      rw [encodeValue_of_single hisSet (encodeValue_cases h).1] at h
      exact exists_str_of_allowsSets (by rw [htype]; rfl) h
    have hgiven : Text.isBlank s = false := (Json.isBlank_str s).symm.trans (encodeValue_cases h).1
    rw [encodeValue_domain htype hisSet, hgiven, if_neg Bool.false_ne_true] at h
    cases h
    cases (decodeCell_domain htype hisSet _).symm.trans hv
    have hitems : (Json.str s).items = [.str s] := rfl
    rw [Value.toJson, Json.isBlank_str, isBlank_normalizeDomain_iff, hitems]
    simp [hgiven]

theorem isBlank_member_iff (hisSet : a.isSet = true) (hset : a.type.allowsSets = true)
    (h : encodeValue a raw = .ok (some cell)) (hv : decodeCell a cell = .ok v) :
    (∃ m ∈ v.toJson.items, m.isBlank = true) ↔
      a.type = .domain ∧ ∃ s, .str s ∈ raw.items ∧ Text.isBlank s = false ∧ NamesNothing s := by
  by_cases htype : a.type = .domain
  · obtain ⟨members, hstored, -, rfl⟩ := exists_members_of_encodeValue hisSet hset h hv
    rw [and_iff_right htype]
    constructor
    · rintro ⟨m, hm, hblank⟩
      obtain ⟨s, hs, hgiven, hnothing⟩ := hstored.exists_item_of_domain htype hm
      exact ⟨s, hs, hgiven, hnothing.mp hblank⟩
    · rintro ⟨s, hs, hgiven, hnothing⟩
      obtain ⟨m, hm, hblank⟩ := hstored.exists_member_of_domain htype hs hgiven
      exact ⟨m, hm, hblank.mpr hnothing⟩
  · have hshown := (isBlank_shown_of_ne_domain (fun _ => hset) htype h hv).2 hisSet
    refine iff_of_false ?_ fun hempty => htype hempty.1
    rintro ⟨m, hm, hblank⟩
    cases (hshown m hm).symm.trans hblank

theorem filledBy_of_encodeValue (hset : a.isSet = true → a.type.allowsSets = true)
    (h : encodeValue a raw = .ok (some cell)) : a.EmptiedBy raw ∨ a.FilledBy raw cell := by
  by_cases hempty : a.EmptiedBy raw
  · exact .inl hempty
  · refine .inr ⟨h, fun v hv => Bool.eq_false_iff.mpr fun hblank => hempty ?_⟩
    exact (isBlank_shown_iff hset h hv).mp hblank

theorem eq_of_compileTest_isNotEmpty {operand : Json} {t : Test}
    (h : compileTest a .isNotEmpty operand = .ok t) : t = ⟨a.id, .isNotEmpty, []⟩ := by
  rw [compileTest] at h
  split at h <;> cases h
  rfl

/-- Something new is given a value for each attribute that requires one. -/
theorem exists_given_of_required {attributes : List Attribute} {given : List (String × Json)}
    {prepared : Prepared} (hslugs : attributes.Pairwise fun a b => a.slug ≠ b.slug)
    (hids : attributes.Pairwise fun a b => a.id ≠ b.id) (ha : a ∈ attributes)
    (hrequired : a.isRequired = true) (h : prepareValues attributes given .create = .ok prepared) :
    ∃ raw cell, (a.slug, raw) ∈ given ∧ (a, cell) ∈ prepared.sets ∧
      encodeValue a raw = .ok (some cell) := by
  obtain ⟨⟨b, cell⟩, hset, hid⟩ := (exists_set_of_prepareValues h).2 a ha hrequired
  obtain ⟨encoded, hencoded, rfl⟩ := exists_of_prepareValues_create hslugs h
  obtain ⟨⟨slug, raw⟩, hgiven, hprepares⟩ := exists_of_mem_right hencoded (mem_setsOf.mp hset)
  obtain rfl : b = a := eq_of_pairwise_ne hids hprepares.mem ha hid
  exact ⟨raw, cell, hprepares.slug ▸ hgiven, hset, hprepares.encoded⟩

/-- What is stored shows nothing that is blank, except domains that name nothing. So a condition
that a value is not empty accepts nothing else that is empty, and nothing else that is empty is
taken for a value that is required. -/
theorem blank_values (hset : a.isSet = true → a.type.allowsSets = true) :
    (∀ raw cell v, encodeValue a raw = .ok (some cell) → decodeCell a cell = .ok v →
      (v.toJson.isBlank = true ↔ a.EmptiedBy raw) ∧
      (a.isSet = true → ((∃ m ∈ v.toJson.items, m.isBlank = true) ↔
        a.type = .domain ∧
          ∃ s, .str s ∈ raw.items ∧ Text.isBlank s = false ∧ NamesNothing s))) ∧
    (∀ raw made operand t, encodeValue a raw = .ok made →
      compileTest a .isNotEmpty operand = .ok t → t.accepts made = true →
        a.EmptiedBy raw ∨ ∃ cell, made = some cell ∧ a.FilledBy raw cell) ∧
    ∀ attributes given prepared, (attributes.Pairwise fun a b => a.slug ≠ b.slug) →
      (attributes.Pairwise fun a b => a.id ≠ b.id) → a ∈ attributes → a.isRequired = true →
      prepareValues attributes given .create = .ok prepared →
        ∃ raw cell, (a.slug, raw) ∈ given ∧ (a, cell) ∈ prepared.sets ∧
          (a.EmptiedBy raw ∨ a.FilledBy raw cell) := by
  refine ⟨fun raw cell v h hv => ?_, fun raw made operand t h ht haccepts => ?_, ?_⟩
  · exact ⟨isBlank_shown_iff hset h hv, fun hisSet => isBlank_member_iff hisSet (hset hisSet) h hv⟩
  · rw [eq_of_compileTest_isNotEmpty ht] at haccepts
    cases made with
    | none => cases haccepts
    | some cell => exact (filledBy_of_encodeValue hset h).imp_right fun hfilled => ⟨_, rfl, hfilled⟩
  · intro attributes given prepared hslugs hids ha hrequired hprepared
    obtain ⟨raw, cell, hgiven, hstored, h⟩ :=
      exists_given_of_required hslugs hids ha hrequired hprepared
    exact ⟨raw, cell, hgiven, hstored, filledBy_of_encodeValue hset h⟩

end

/-- Of a set of phone numbers a blank one is left out, and what is shown has nothing blank in it. -/
theorem blank_values_phones :
    encodeValue phones (.arr [.str " ", .str "112"]) =
        .ok (some (.structured (.arr [.str "112"]))) ∧
      ¬ (Json.arr [.str "112"]).isBlank = true ∧ ¬ ∃ m ∈ [Json.str "112"], m.isBlank = true := by
  have hblank : encodeMember phones (.str " ") = .ok none := encodeMember_of_blank (by decide)
  have hgiven := encodeMember_phones (s := "112") (by decide)
  have hencode : encodeValue phones (.arr [.str " ", .str "112"]) =
      .ok (some (.structured (.arr [.str "112"]))) := by
    refine (encodeValue_set_eq_ok_iff rfl).mpr ⟨?_, ?_⟩
    · rw [Json.items, List.forall_mem_cons, List.forall_mem_singleton]
      exact ⟨⟨_, hblank⟩, ⟨_, hgiven⟩⟩
    · rw [Json.items, List.filterMap_cons_none (member?_of_encodeMember hblank),
        List.filterMap_cons_some (member?_of_encodeMember hgiven)]
      rfl
  have hdecode : decodeCell phones (.structured (.arr [.str "112"])) = .ok (.set [.str "112"]) :=
    decodeCell_set_of_text rfl rfl _
  obtain ⟨hshown, hmembers⟩ :=
    (blank_values (a := phones) fun _ => rfl).1 _ _ _ hencode hdecode
  have hdomain : phones.type ≠ .domain := by decide
  exact ⟨hencode, fun hempty => hdomain (hshown.mp hempty).domain,
    fun hempty => hdomain ((hmembers rfl).mp hempty).1⟩

/-- A domain that is given as a scheme and nothing else is stored as an empty text, which is taken
for a value. -/
theorem domain_stored_empty :
    (Json.str "https://").isBlank = false ∧
      encodeValue website (.str "https://") = .ok (some (.text "")) ∧
      decodeCell website (.text "") = .ok (.text "") ∧ (Value.text "").toJson.isBlank = true ∧
      ∃ t, compileTest website .isNotEmpty .null = .ok t ∧ t.accepts (some (.text "")) = true := by
  refine ⟨by decide, ?_, decodeCell_domain rfl (by decide) _, by decide, _, rfl, rfl⟩
  rw [encodeValue_website (by decide)]
  rw [show normalizeDomain "https://" = "" by decide +kernel]

end RecordStore
