import Mathlib
import RecordStore.Proofs.Folding
import RecordStore.Proofs.Segments
import RecordStore.Query.Search

/-!
# Parts of texts found

A filter or a search that asks for a part of a text folds the part by itself. Trimming and composing
leave the part as it is, and lower case goes character by character, but for the capital sigma: at
the end of a word it has a form of its own, and a cut may make or unmake the end of a word. Main
statement: a part of a composed text is found in it if its sigmas end words in the part just where
they do in the text, and at the beginning or the end of the text only then.
-/

namespace RecordStore.Text

/-! ### Parts in lower case -/

/-- Each capital sigma of a part ends a word of the part just if it ends a word of the text that the
part stands in. -/
def SameSigmas (before part after : List Char) : Prop :=
  ∀ left right, part = left ++ 'Σ' :: right →
    endsWord (left.reverse ++ before.reverse) (right ++ after) = endsWord left.reverse right

theorem sameSigmas_iff {before part after : List Char} :
    SameSigmas before part after ↔
      lowerBetween before.reverse after part = lowerAfter [] part := by
  rw [← lowerBetween_nil, lowerBetween_eq_iff]
  simp only [List.append_nil]
  rfl

theorem sameSigmas_of_not_mem {before part after : List Char} (h : 'Σ' ∉ part) :
    SameSigmas before part after := by
  rintro left right rfl
  simp at h

theorem lowerAfter_part (before part after : List Char) :
    lowerAfter [] (before ++ part ++ after) = lowerBetween [] (part ++ after) before ++
      lowerBetween before.reverse after part ++
        lowerAfter (part.reverse ++ before.reverse) after := by
  rw [List.append_assoc, lowerAfter_append, lowerAfter_append, List.append_nil, List.append_assoc]

theorem infix_lowerAfter {before part after : List Char} (h : SameSigmas before part after) :
    lowerAfter [] part <:+: lowerAfter [] (before ++ part ++ after) := by
  rw [lowerAfter_part, sameSigmas_iff.mp h]
  exact ⟨_, _, rfl⟩

theorem prefix_lowerAfter_iff {part after : List Char} :
    lowerAfter [] part <+: lowerAfter [] (part ++ after) ↔ SameSigmas [] part after := by
  rw [lowerAfter_append, sameSigmas_iff, List.reverse_nil, eq_comm]
  constructor
  · intro h
    have hlength : (lowerAfter [] part).length = (lowerBetween [] after part).length := by
      rw [← lowerBetween_nil, length_lowerBetween]
    have hwithin := List.prefix_of_prefix_length_le h (List.prefix_append _ _) hlength.le
    exact hwithin.eq_of_length hlength
  · intro h
    rw [h]
    exact List.prefix_append _ _

theorem suffix_lowerAfter_iff {before part : List Char} :
    lowerAfter [] part <:+ lowerAfter [] (before ++ part) ↔ SameSigmas before part [] := by
  rw [lowerAfter_append, sameSigmas_iff, List.append_nil, lowerBetween_nil, eq_comm]
  constructor
  · intro h
    have hlength : (lowerAfter [] part).length = (lowerAfter before.reverse part).length := by
      rw [← lowerBetween_nil, ← lowerBetween_nil, length_lowerBetween]
    have hwithin := List.suffix_of_suffix_length_le h (List.suffix_append _ _) hlength.le
    exact hwithin.eq_of_length hlength
  · intro h
    rw [h]
    exact List.suffix_append _ _

/-! ### Composed parts -/

theorem composedChars_eq_self_iff {cs : List Char} :
    composedChars cs = cs ↔ composedCodes (cs.map Char.toNat) = cs.map Char.toNat := by
  rw [← toNat_composedChars]
  have hinjective : Function.Injective Char.toNat :=
    Function.LeftInverse.injective Char.ofNat_toNat
  exact ⟨congrArg _, fun h => List.map_injective_iff.mpr hinjective h⟩

theorem composedChars_of_part {part whole : List Char} (h : part <:+: whole)
    (hwhole : composedChars whole = whole) : composedChars part = part := by
  rw [composedChars_eq_self_iff] at hwhole ⊢
  exact composedCodes_of_part (h.map Char.toNat) hwhole

/-- A text that is trimmed and composed is folded to its lower case. -/
theorem foldChars_of_composed {cs : List Char} (htrim : trimChars cs = cs)
    (hcomposed : composedChars cs = cs) : foldChars cs = lowerAfter [] cs := by
  rw [foldChars, htrim, hcomposed]

theorem trimChars_of_trim {s : String} (h : trim s = s) : trimChars s.toList = s.toList := by
  rw [← toList_trim, h]

theorem composedChars_of_composed {s : String} (h : composed s = s) :
    composedChars s.toList = s.toList := by
  rw [composed] at h
  exact (String.toList_ofList (l := composedChars s.toList)).symm.trans (congrArg String.toList h)

/-- A part of a composed text, and the text around it. Neither the text nor the part begins or ends
with white space, and something is left of the part. -/
structure HasPart (text before part after : String) : Prop where
  split : text = before ++ part ++ after
  composed : Text.composed text = text
  trimmed : Text.trim text = text
  partTrimmed : Text.trim part = part
  notBlank : isBlank part = false

namespace HasPart

variable {text before part after : String}

theorem toList_fold_text (h : HasPart text before part after) :
    (fold text).toList = lowerAfter [] (before.toList ++ part.toList ++ after.toList) := by
  have hchars : text.toList = before.toList ++ part.toList ++ after.toList := by
    rw [h.split, String.toList_append, String.toList_append]
  rw [toList_fold, foldChars_of_composed (trimChars_of_trim h.trimmed)
    (composedChars_of_composed h.composed), hchars]

theorem toList_fold_part (h : HasPart text before part after) :
    (fold part).toList = lowerAfter [] part.toList := by
  have hpart : part.toList <:+: text.toList := by
    rw [h.split, String.toList_append, String.toList_append]
    exact ⟨_, _, rfl⟩
  rw [toList_fold, foldChars_of_composed (trimChars_of_trim h.partTrimmed)
    (composedChars_of_part hpart (composedChars_of_composed h.composed))]

end HasPart

end RecordStore.Text

namespace RecordStore

/-! ### Filters and searches -/

section

variable {id : Id} {asked stored : String}

theorem accepts_contains_text_iff :
    Test.accepts ⟨id, .contains, [.text asked]⟩ (some (.text stored)) = true ↔
      asked.toList <:+: (Text.fold stored).toList := by
  rw [← Text.holds_iff_infix]
  exact iff_of_eq (congrArg (· = true) (Bool.bne_false _))

theorem accepts_startsWith_iff :
    Test.accepts ⟨id, .startsWith, [.text asked]⟩ (some (.text stored)) = true ↔
      asked.toList <+: (Text.fold stored).toList := by
  rw [← List.isPrefixOf_iff_prefix]
  exact iff_of_eq (congrArg (· = true) (Bool.bne_false _))

theorem accepts_endsWith_iff :
    Test.accepts ⟨id, .endsWith, [.text asked]⟩ (some (.text stored)) = true ↔
      asked.toList <:+ (Text.fold stored).toList := by
  rw [← List.isSuffixOf_iff_suffix]
  exact iff_of_eq (congrArg (· = true) (Bool.bne_false _))

end

theorem compileSearch_eq_some {attributes : List Attribute} {s : String}
    (hblank : Text.isBlank s = false) : compileSearch attributes (some s) =
      some ⟨Text.fold s, (attributes.filter fun a => a.type.isSearchable).map (·.id)⟩ := by
  have hne : Text.fold s ≠ "" := by
    intro hempty
    have hfold := Text.isBlank_fold hblank
    rw [hempty] at hfold
    cases hfold
  simp [compileSearch, hne]

theorem Search.accepts_of_text {search : Search} {cells : Cells} {id : Id} {s : String}
    (hid : id ∈ search.attributeIds) (hcell : cells id = some (.text s))
    (h : search.needle.toList <:+: (Text.fold s).toList) : search.accepts cells = true := by
  rw [Search.accepts, List.any_eq_true]
  refine ⟨id, hid, ?_⟩
  rw [hcell, Option.any_some, Cell.mentions]
  exact Text.holds_iff_infix.mpr h

theorem isSearchable_of_slot {a : Attribute} (hslot : a.slot = .text) :
    a.type.isSearchable = true := by
  rw [AttributeHead.slot] at hslot
  split at hslot
  · cases hslot
  · simp [ValueType.isSearchable, hslot]

/-- A part of a composed text can be asked for, and the text is found by it if the sigmas of the
part end words in it just where they do in the text; as the beginning or the end of the text the
part is found only then. Of a part without sigmas that is always so. -/
theorem accepts_part {a : Attribute} (hslot : a.slot = .text) {text before part after : String}
    (h : Text.HasPart text before part after) :
    ('Σ' ∉ part.toList → Text.SameSigmas before.toList part.toList after.toList) ∧
    (∃ t, compileTest a .contains (.str part) = .ok t ∧
      (Text.SameSigmas before.toList part.toList after.toList →
        t.accepts (some (.text text)) = true)) ∧
    (before = "" → ∃ t, compileTest a .startsWith (.str part) = .ok t ∧
      (t.accepts (some (.text text)) = true ↔
        Text.SameSigmas before.toList part.toList after.toList)) ∧
    (after = "" → ∃ t, compileTest a .endsWith (.str part) = .ok t ∧
      (t.accepts (some (.text text)) = true ↔
        Text.SameSigmas before.toList part.toList after.toList)) ∧
    ∀ attributes, a ∈ attributes → ∃ search, compileSearch attributes (some part) = some search ∧
      (Text.SameSigmas before.toList part.toList after.toList →
        ∀ cells : Cells, cells a.id = some (.text text) → search.accepts cells = true) := by
  have hfound : Text.SameSigmas before.toList part.toList after.toList →
      (Text.fold part).toList <:+: (Text.fold text).toList := by
    rw [h.toList_fold_text, h.toList_fold_part]
    exact Text.infix_lowerAfter
  refine ⟨Text.sameSigmas_of_not_mem, ?_, fun hbefore => ?_, fun hafter => ?_,
    fun attributes ha => ?_⟩
  · exact ⟨_, compileTest_text hslot (by decide) (by decide) (by decide) h.notBlank,
      fun hsigmas => accepts_contains_text_iff.mpr (hfound hsigmas)⟩
  · refine ⟨_, compileTest_text hslot (by decide) (by decide) (by decide) h.notBlank, ?_⟩
    rw [accepts_startsWith_iff, h.toList_fold_text, h.toList_fold_part, hbefore]
    exact Text.prefix_lowerAfter_iff
  · refine ⟨_, compileTest_text hslot (by decide) (by decide) (by decide) h.notBlank, ?_⟩
    rw [accepts_endsWith_iff, h.toList_fold_text, h.toList_fold_part, hafter, String.toList_empty,
      List.append_nil]
    exact Text.suffix_lowerAfter_iff
  · refine ⟨_, compileSearch_eq_some h.notBlank, fun hsigmas cells hcell => ?_⟩
    refine Search.accepts_of_text ?_ hcell (hfound hsigmas)
    exact List.mem_map_of_mem (List.mem_filter.mpr ⟨ha, isSearchable_of_slot hslot⟩)

/-- A word in capitals that ends in a sigma is found at the beginning of a text. -/
theorem accepts_part_sophos : Text.HasPart "ΣΟΦΟΣ ΑΝΗΡ" "" "ΣΟΦΟΣ" " ΑΝΗΡ" ∧
    (∃ t, compileTest exampleAttribute .contains (.str "ΣΟΦΟΣ") = .ok t ∧
      t.accepts (some (.text "ΣΟΦΟΣ ΑΝΗΡ")) = true) ∧
    ∃ t, compileTest exampleAttribute .startsWith (.str "ΣΟΦΟΣ") = .ok t ∧
      t.accepts (some (.text "ΣΟΦΟΣ ΑΝΗΡ")) = true := by
  have hpart : Text.HasPart "ΣΟΦΟΣ ΑΝΗΡ" "" "ΣΟΦΟΣ" " ΑΝΗΡ" :=
    ⟨by decide, by decide +kernel, by decide, by decide, by decide⟩
  have hsigmas : Text.SameSigmas "".toList "ΣΟΦΟΣ".toList " ΑΝΗΡ".toList :=
    Text.sameSigmas_iff.mpr (by decide +kernel)
  obtain ⟨-, ⟨t, ht, hcontains⟩, hstart, -⟩ := accepts_part (a := exampleAttribute) rfl hpart
  obtain ⟨u, hu, hstarts⟩ := hstart rfl
  exact ⟨hpart, ⟨t, ht, hcontains hsigmas⟩, u, hu, hstarts.mpr hsigmas⟩

/-- Cut off behind its sigma a word does not contain its own beginning. -/
theorem accepts_part_eq_false : Text.HasPart "ΑΣΑ" "" "ΑΣ" "Α" ∧
    (∃ t, compileTest exampleAttribute .contains (.str "ΑΣ") = .ok t ∧
      t.accepts (some (.text "ΑΣΑ")) = false) ∧
    (∃ t, compileTest exampleAttribute .startsWith (.str "ΑΣ") = .ok t ∧
      t.accepts (some (.text "ΑΣΑ")) = false) ∧
    ∃ search, compileSearch [exampleAttribute] (some "ΑΣ") = some search ∧
      search.accepts (fun _ => some (.text "ΑΣΑ")) = false := by
  have htext : Text.fold "ΑΣΑ" = "ασα" := by decide +kernel
  have hfold : Text.fold "ΑΣ" = "ας" := by decide +kernel
  have hblank : Text.isBlank "ΑΣ" = false := by decide
  refine ⟨⟨by decide, by decide +kernel, by decide, by decide, hblank⟩,
    ⟨_, compileTest_text rfl (by decide) (by decide) (by decide) hblank, ?_⟩,
    ⟨_, compileTest_text rfl (by decide) (by decide) (by decide) hblank, ?_⟩,
    _, compileSearch_eq_some hblank, ?_⟩
  · rw [← Bool.not_eq_true, accepts_contains_text_iff, htext, hfold]
    decide
  · rw [← Bool.not_eq_true, accepts_startsWith_iff, htext, hfold]
    decide
  · rw [Search.accepts, List.any_eq_false]
    intro id _
    rw [Option.any_some, Cell.mentions, Text.holds_iff_infix, htext, hfold]
    decide

end RecordStore
