import RecordStore.Proofs.LetterCase
import RecordStore.Proofs.Normalization
import RecordStore.Proofs.Operands

/-!
# Folded text folded again

A text is composed before it is put into lower case, and a lower-case letter may form a composite
with marks that its capital leaves alone. Main statements: folding folded text composes it and does
no more, so that a text and its folded form are the same as members, operands and keys just if the
folded form is composed, and from the second folding on nothing changes.
-/

namespace RecordStore.Text

/-! ### What composing keeps of characters -/

/-- How white space lies to the rules of composition. -/
class SpacesFit : Prop where
  starters : (spaces.all fun n => combiningClass n == 0) = true
  /-- No composite is white space. -/
  solid : (triples.all fun t => !isSpaceCode t.2.2) = true

instance spacesFit : SpacesFit where
  starters := by decide +kernel
  solid := by decide +kernel

theorem not_mem_of_isHangul {cs : List Nat} (h : (cs.all fun n => !isHangul n) = true) {c : Nat}
    (hc : isHangul c = true) : (!(codeSet cs).testBit c) = true := by
  rw [Bool.not_eq_true', ← Bool.not_eq_true, testBit_codeSet]
  intro hmem
  have hnot := List.all_eq_true.mp h c hmem
  rw [hc] at hnot
  cases hnot

instance kept_isScalar : Kept isScalar where
  apart := by decide +kernel
  together := by decide +kernel
  hangul c hc := by
    simp only [isHangul, isSyllable, Bool.or_eq_true, Bool.and_eq_true, decide_eq_true_eq] at hc
    simp only [isScalar, Bool.or_eq_true, Bool.and_eq_true, decide_eq_true_eq]
    omega

instance kept_not_isCapital : Kept fun c => !isCapital c where
  apart := by decide +kernel
  together := by decide +kernel
  hangul _ := not_mem_of_isHangul (by decide +kernel)

instance kept_not_isSpaceCode : Kept fun c => !isSpaceCode c where
  apart := by decide +kernel
  together := List.all_eq_true.mpr fun t ht => by
    rw [List.all_eq_true.mp spacesFit.solid t ht, Bool.or_true]
  hangul _ := not_mem_of_isHangul (by decide +kernel)

theorem toNat_composedChars (cs : List Char) :
    (composedChars cs).map Char.toNat = composedCodes (cs.map Char.toNat) := by
  rw [composedChars_eq, List.map_map]
  have hscalar : ∀ n ∈ composedCodes (cs.map Char.toNat), isScalar n = true :=
    kept_isScalar.composedCodes (List.forall_mem_map.mpr fun c _ => isScalar_toNat c)
  exact (List.map_congr_left fun n hn => toNat_ofNat (hscalar n hn)).trans (List.map_id' _)

theorem composedChars_composedChars (cs : List Char) :
    composedChars (composedChars cs) = composedChars cs := by
  rw [composedChars_eq (composedChars cs), toNat_composedChars, composedCodes_composedCodes,
    ← composedChars_eq]

theorem Kept.composedChars {ok : Nat → Bool} (h : Kept ok) {cs : List Char}
    (hcs : ∀ c ∈ cs, ok c.toNat = true) : ∀ d ∈ composedChars cs, ok d.toNat = true := by
  intro d hd
  refine h.composedCodes (List.forall_mem_map.mpr hcs) d.toNat ?_
  rw [← toNat_composedChars]
  exact List.mem_map_of_mem hd

theorem isCapital_of_mem_composedChars {cs : List Char}
    (h : ∀ c ∈ cs, isCapital c.toNat = false) :
    ∀ d ∈ composedChars cs, isCapital d.toNat = false := by
  have hkept := @Kept.composedChars _ kept_not_isCapital cs (by simpa using h)
  simpa using hkept

/-- What composed text begins or ends with is no white space, if the text does not. -/
theorem isSpace_of_end {ends : Option Char} (h : ∀ c ∈ ends, isSpace c = false) {d : Char}
    (hd : (∃ n ∈ ends.map Char.toNat, d.toNat ∈ decompose n) ∨ combiningClass d.toNat ≠ 0 ∨
      IsComposite d.toNat) : isSpace d = false := by
  rw [← isSpaceCode_toNat]
  rcases hd with ⟨n, hn, hd⟩ | hmark | ⟨a, b, hmade⟩
  · obtain ⟨c, hc, rfl⟩ := Option.map_eq_some_iff.mp hn
    have hsolid : isSpaceCode c.toNat = false := (isSpaceCode_toNat c).trans (h c hc)
    simpa using kept_not_isSpaceCode.decompose (by simpa using hsolid) _ hd
  · rw [← Bool.not_eq_true]
    intro hspace
    have hstarter := List.all_eq_true.mp spacesFit.starters _ (testBit_codeSet.mp hspace)
    exact hmark (eq_of_beq hstarter)
  · rcases isHangul_or_mem_triples hmade with hd | ht
    · simpa using kept_not_isSpaceCode.hangul _ hd
    · simpa using List.all_eq_true.mp spacesFit.solid _ ht

theorem Trimmed.composedChars {cs : List Char} (h : Trimmed cs) : Trimmed (composedChars cs) := by
  constructor
  · intro d hd
    refine isSpace_of_end h.head ?_
    rw [← List.head?_map]
    refine head?_composedCodes ?_
    rw [← toNat_composedChars, List.head?_map]
    exact Option.mem_map_of_mem Char.toNat hd
  · intro d hd
    refine isSpace_of_end h.last ?_
    rw [← List.getLast?_map]
    refine getLast?_composedCodes ?_
    rw [← toNat_composedChars, List.getLast?_map]
    exact Option.mem_map_of_mem Char.toNat hd

/-! ### Folding -/

def foldChars (cs : List Char) : List Char := lowerAfter [] (composedChars (trimChars cs))

theorem toList_fold (s : String) : (fold s).toList = foldChars s.toList := by
  simp only [fold, lower, composed, toList_trim, String.toList_ofList, foldChars]

theorem isCapital_of_mem_foldChars {cs : List Char} :
    ∀ c ∈ foldChars cs, isCapital c.toNat = false := fun _ => isCapital_of_mem_lowerAfter

theorem trimmed_foldChars (cs : List Char) : Trimmed (foldChars cs) :=
  (trimmed_trimChars cs).composedChars.lowerAfter []

/-- Text that is trimmed and has no capitals is only composed. -/
theorem foldChars_eq_composedChars {cs : List Char} (htrimmed : Trimmed cs)
    (hsmall : ∀ c ∈ cs, isCapital c.toNat = false) : foldChars cs = composedChars cs := by
  rw [foldChars, htrimmed.trimChars_eq]
  exact lowerAfter_of_not_isCapital (isCapital_of_mem_composedChars hsmall)

theorem foldChars_foldChars (cs : List Char) :
    foldChars (foldChars cs) = composedChars (foldChars cs) :=
  foldChars_eq_composedChars (trimmed_foldChars cs) isCapital_of_mem_foldChars

/-- Folding folded text composes it and does no more. -/
theorem fold_fold (s : String) : fold (fold s) = composed (fold s) := by
  rw [← String.toList_inj, toList_fold, toList_fold, foldChars_foldChars, composed,
    String.toList_ofList, toList_fold]

theorem composed_composed (s : String) : composed (composed s) = composed s := by
  simp only [composed, String.toList_ofList, composedChars_composedChars]

/-- From the second folding on nothing changes. -/
theorem fold_fold_fold (s : String) : fold (fold (fold s)) = fold (fold s) := by
  have htrimmed := (trimmed_foldChars s.toList).composedChars
  have hsmall := isCapital_of_mem_composedChars (@isCapital_of_mem_foldChars s.toList)
  rw [← String.toList_inj]
  simp only [toList_fold, foldChars_foldChars]
  rw [foldChars_eq_composedChars htrimmed hsmall, composedChars_composedChars]

/-- Only lower case leaves anything to compose. -/
theorem composed_fold_of_lower {s : String}
    (h : lower (composed (trim s)) = composed (trim s)) : composed (fold s) = fold s := by
  rw [fold, h, composed_composed]

/-! ### Plain text -/

theorem decompose_of_lt {c : Nat} (h : c < 0xC0) : decompose c = [c] := by
  refine decompose_of_once ?_ (by rw [decomposeOnce, if_pos h])
  rw [isSyllable, Bool.and_eq_false_iff]
  exact .inl (decide_eq_false (by omega))

theorem combiningClass_of_lt {c : Nat} (h : c < 0x300) : combiningClass c = 0 := by
  rw [combiningClass, if_pos h]

theorem compose?_of_lt (starter : Nat) {c : Nat} (h : c < 0x300) : compose? starter c = none := by
  rw [compose?, if_pos h]

/-- Where there are no marks, nothing is put together. -/
theorem composeAfter_of_lt (starter : Nat) {cs : List Nat} (h : ∀ c ∈ cs, c < 0x300) :
    composeAfter starter [] cs = starter :: cs := by
  induction cs generalizing starter with
  | nil => rfl
  | cons c rest ih =>
    obtain ⟨hc, hrest⟩ := List.forall_mem_cons.mp h
    rcases composeAfter_cases starter [] c rest with ⟨composite, -, hmade, -⟩ | ⟨-, heq⟩ |
      ⟨hmark, -⟩
    · rw [compose?_of_lt starter hc] at hmade
      cases hmade
    · rw [heq, ih c hrest]
      rfl
    · exact absurd (combiningClass_of_lt hc) hmark

theorem composeAll_of_lt {cs : List Nat} (h : ∀ c ∈ cs, c < 0x300) : composeAll cs = cs := by
  cases cs with
  | nil => rfl
  | cons c rest =>
    obtain ⟨hc, hrest⟩ := List.forall_mem_cons.mp h
    rw [composeAll, if_pos (combiningClass_of_lt hc), composeAfter_of_lt c hrest]

theorem composedCodes_of_lt {cs : List Nat} (h : ∀ c ∈ cs, c < 0xC0) : composedCodes cs = cs := by
  have hmarks : ∀ c ∈ cs, c < 0x300 := fun c hc => Nat.lt_trans (h c hc) (by decide)
  have horder : InOrder cs := (List.pairwise_of_forall_mem_list fun _ _ c hc =>
    .inl (combiningClass_of_lt (hmarks c hc))).isChain
  rw [composedCodes, flatMap_decompose_eq fun c hc => decompose_of_lt (h c hc),
    orderMarks_of_inOrder horder, composeAll_of_lt hmarks]

theorem composedChars_of_lt {cs : List Char} (h : ∀ c ∈ cs, c.toNat < 0xC0) :
    composedChars cs = cs := by
  rw [composedChars_eq, composedCodes_of_lt (List.forall_mem_map.mpr h), List.map_map]
  exact (List.map_congr_left fun c _ => Char.ofNat_toNat c).trans (List.map_id' cs)

/-- Trimmed text of plain characters without capitals is its own folded form. -/
theorem fold_eq_self {s : String} (htrimmed : Trimmed s.toList)
    (hplain : ∀ c ∈ s.toList, c.toNat < 0xC0 ∧ isCapital c.toNat = false) : fold s = s := by
  rw [← String.toList_inj, toList_fold,
    foldChars_eq_composedChars htrimmed fun c hc => (hplain c hc).2,
    composedChars_of_lt fun c hc => (hplain c hc).1]

/-! ### Blank text -/

/-- Text of which some character is no white space is not trimmed to nothing. -/
theorem trimChars_ne_nil {cs : List Char} {c : Char} (hc : c ∈ cs) (h : isSpace c = false) :
    trimChars cs ≠ [] := by
  intro hnil
  have hfront : cs.dropWhile isSpace = [] := by
    cases hfront : cs.dropWhile isSpace with
    | nil => rfl
    | cons d rest =>
      have hd : isSpace d = false := @isSpace_of_head?_dropWhile cs d (by rw [hfront]; rfl)
      rw [trimChars, List.reverse_eq_nil_iff, List.dropWhile_eq_nil_iff] at hnil
      cases hd.symm.trans (hnil d (by rw [hfront]; simp))
  cases h.symm.trans (List.dropWhile_eq_nil_iff.mp hfront c hc)

theorem composedChars_ne_nil {cs : List Char} (h : cs ≠ []) : composedChars cs ≠ [] := by
  intro hnil
  have hcodes := toNat_composedChars cs
  rw [hnil] at hcodes
  exact composedCodes_ne_nil (by simpa using h) hcodes.symm

theorem isBlank_fold {s : String} (h : isBlank s = false) : isBlank (fold s) = false := by
  rw [isBlank, List.all_eq_false] at h
  obtain ⟨c, hc, hsolid⟩ := h
  have hne : foldChars s.toList ≠ [] :=
    lowerAfter_ne_nil (composedChars_ne_nil (trimChars_ne_nil hc (by simpa using hsolid)))
  obtain ⟨d, hd⟩ := Option.ne_none_iff_exists'.mp (mt List.head?_eq_none_iff.mp hne)
  refine isBlank_eq_false (c := d) ?_ ((trimmed_foldChars s.toList).head d hd)
  rw [toList_fold]
  exact List.mem_of_mem_head? hd

/-- Just blank text is folded to nothing. -/
theorem fold_eq_empty_iff {s : String} : fold s = "" ↔ isBlank s = true := by
  constructor
  · intro hfold
    by_contra hgiven
    have hblank := isBlank_fold (Bool.eq_false_iff.mpr hgiven)
    rw [hfold] at hblank
    cases hblank
  · intro hblank
    rw [← String.toList_eq_nil_iff, toList_fold, foldChars, trimChars_of_isBlank hblank]
    rfl

/-- Texts that are folded alike are blank alike. -/
theorem isBlank_of_fold_eq {s t : String} (h : fold s = fold t) (hs : isBlank s = true) :
    isBlank t = true :=
  fold_eq_empty_iff.mp (h.symm.trans (fold_eq_empty_iff.mpr hs))

end RecordStore.Text

namespace RecordStore

/-- A filter that asks an attribute for equality with one text is compiled, and accepts another. -/
def Attribute.Selects (a : Attribute) (asked stored : String) : Prop :=
  ∃ t, compileTest a .equals (.str asked) = .ok t ∧ t.accepts (some (.text stored)) = true

theorem Attribute.selects_iff {a : Attribute} (hslot : a.slot = .text) {asked stored : String}
    (hblank : Text.isBlank asked = false) :
    a.Selects asked stored ↔ Text.fold stored = Text.fold asked := by
  have haccepts := @accepts_equals_iff a.id (.text (Text.fold asked)) (.text stored)
  rw [Attribute.Selects, compileTest_equals_text hslot hblank, ← Cell.equals_text_iff, ← haccepts]
  simp

theorem sameMember_str_iff {s t : String} :
    sameMember (.str s) (.str t) = true ↔ Text.fold s = Text.fold t := beq_iff_eq

/-- Folding folded text composes it, and no further folding changes it. A text and its folded form
are the same as members of a set, as keys, and for filters that ask for either, just if the folded
form is composed; it is, where lower case has changed nothing. -/
theorem alike_fold_iff (s : String) :
    Text.fold (Text.fold s) = Text.composed (Text.fold s) ∧
    Text.fold (Text.fold (Text.fold s)) = Text.fold (Text.fold s) ∧
    (Text.lower (Text.composed (Text.trim s)) = Text.composed (Text.trim s) →
      Text.composed (Text.fold s) = Text.fold s) ∧
    (sameMember (.str s) (.str (Text.fold s)) = true ↔
      Text.composed (Text.fold s) = Text.fold s) ∧
    ((Cell.text s).canonicalKey = (Cell.text (Text.fold s)).canonicalKey ↔
      Text.composed (Text.fold s) = Text.fold s) ∧
    ∀ a : Attribute, a.slot = .text → Text.isBlank s = false →
      (a.Selects s (Text.fold s) ↔ Text.composed (Text.fold s) = Text.fold s) ∧
      (a.Selects (Text.fold s) s ↔ Text.composed (Text.fold s) = Text.fold s) := by
  have hagain := Text.fold_fold s
  have hsame : Text.fold s = Text.fold (Text.fold s) ↔
      Text.composed (Text.fold s) = Text.fold s := by rw [hagain, eq_comm]
  refine ⟨hagain, Text.fold_fold_fold s, Text.composed_fold_of_lower,
    sameMember_str_iff.trans hsame, hsame, fun a hslot hblank => ⟨?_, ?_⟩⟩
  · rw [Attribute.selects_iff hslot hblank, eq_comm, hsame]
  · rw [Attribute.selects_iff hslot (Text.isBlank_fold hblank), hsame]

/-- An accent that is written on its own is composed with its letter before either has its case
changed. -/
theorem alike_fold_cafe : Text.fold " CAFE\u0301" = "caf\u00e9" ∧
    sameMember (.str " CAFE\u0301") (.str "caf\u00e9") = true ∧
      exampleAttribute.Selects " CAFE\u0301" "caf\u00e9" := by
  have hfold : Text.fold " CAFE\u0301" = "caf\u00e9" := by decide +kernel
  have hcomposed : Text.composed "caf\u00e9" = "caf\u00e9" := by decide +kernel
  obtain ⟨-, -, -, hmember, -, hselects⟩ := alike_fold_iff " CAFE\u0301"
  rw [hfold] at hmember hselects
  exact ⟨hfold, hmember.mpr hcomposed, (hselects exampleAttribute rfl (by decide)).1.mpr hcomposed⟩

/-- The capital J with a caron is no composite, but the small one is. -/
theorem not_alike_fold_caron : Text.fold "J\u030c" = "j\u030c" ∧ Text.fold "j\u030c" = "\u01f0" ∧
    sameMember (.str "J\u030c") (.str "j\u030c") = false ∧
    (Cell.text "J\u030c").canonicalKey ≠ (Cell.text "j\u030c").canonicalKey ∧
    ¬ exampleAttribute.Selects "J\u030c" "j\u030c" := by
  have hcapital : Text.fold "J\u030c" = "j\u030c" := by decide +kernel
  have hsmall : Text.fold "j\u030c" = "\u01f0" := by decide +kernel
  have hdiffer : Text.fold "J\u030c" ≠ Text.fold "j\u030c" := by
    rw [hcapital, hsmall]
    decide
  refine ⟨hcapital, hsmall, ?_, hdiffer, ?_⟩
  · rw [← Bool.not_eq_true, sameMember_str_iff]
    exact hdiffer
  · rw [Attribute.selects_iff rfl (by decide)]
    exact hdiffer.symm

end RecordStore
