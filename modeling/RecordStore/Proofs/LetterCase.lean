import RecordStore.Proofs.Rules
import RecordStore.Text.Blank
import RecordStore.Text.Lower

/-!
# Lower case of texts

The runs of capitals read as one table. Main statements: lower case holds no capitals, text without
capitals is its own lower case, text stays trimmed in lower case, and a part of a text has the same
lower case in two places just if the same sigmas of it end words there.
-/

namespace RecordStore.Text

/-! ### Capitals -/

/-- The letters whose lower case is one other letter, and that letter. -/
def lowerCases : List (Nat × Nat) :=
  lowerRuns.flatMap fun run => (List.range ((run.2.1 - run.1) / run.2.2.1 + 1)).map fun i =>
    (run.1 + i * run.2.2.1, ((run.1 + i * run.2.2.1 : Nat) + run.2.2.2 : Int).toNat)

/-- The letters that lower case changes; the dotted I is the one that becomes two characters. -/
def capitals : List Nat := 0x130 :: lowerCases.map (·.1)

def isCapital (n : Nat) : Bool := (codeSet capitals).testBit n

def spaces : List Nat :=
  [9, 10, 11, 12, 13, 0x20, 0x85, 0xA0, 0x1680, 0x2000, 0x2001, 0x2002, 0x2003, 0x2004, 0x2005,
    0x2006, 0x2007, 0x2008, 0x2009, 0x200A, 0x2028, 0x2029, 0x202F, 0x205F, 0x3000]

def isSpaceCode (n : Nat) : Bool := (codeSet spaces).testBit n

/-- Whether there is a character with this code point. -/
def isScalar (n : Nat) : Bool := n < 0xD800 || (0xDFFF < n && n < 0x110000)

theorem isScalar_iff {n : Nat} : isScalar n = true ↔ n.isValidChar := by
  simp [isScalar, Nat.isValidChar]

theorem isSpaceCode_toNat (c : Char) : isSpaceCode c.toNat = isSpace c := by
  rw [Bool.eq_iff_iff, isSpaceCode, testBit_codeSet]
  simp only [spaces, List.mem_cons, List.not_mem_nil, or_false, isSpace, Bool.or_eq_true,
    Bool.and_eq_true, decide_eq_true_eq, beq_iff_eq]
  omega

theorem isCapital_iff {n : Nat} : isCapital n = true ↔ n = 0x130 ∨ ∃ m, (n, m) ∈ lowerCases := by
  simp [isCapital, capitals]

/-! ### The table of capitals -/

/-- A character from the small letters on, but no capital and no white space. -/
def isLowered (n : Nat) : Bool := isScalar n && 0x61 ≤ n && !isCapital n && !isSpaceCode n

/-- What the table of runs must be for lower case to leave no capitals. -/
class CasesFit : Prop where
  forward : (lowerRuns.all fun run => run.1 ≤ run.2.1 && 0 < run.2.2.1) = true
  lowered : (lowerCases.all fun entry => isLowered entry.2) = true
  /-- The letters of the dotted I, and both small forms of the sigma. -/
  special : ([0x69, 0x307, 0x3C3, 0x3C2].all isLowered) = true
  sigma : isCapital 0x3A3 = true
  ascii : (capitals.all fun n => 0x80 ≤ n || (0x41 ≤ n && n ≤ 0x5A)) = true
  space : (spaces.all fun n => !isCapital n) = true

instance casesFit : CasesFit where
  forward := by decide +kernel
  lowered := by decide +kernel
  special := by decide +kernel
  sigma := by decide +kernel
  ascii := by decide +kernel
  space := by decide +kernel

theorem mem_lowerCases_iff {n m : Nat} : (n, m) ∈ lowerCases ↔ ∃ run ∈ lowerRuns,
    (run.1 ≤ n && n ≤ run.2.1 && (n - run.1) % run.2.2.1 == 0) = true ∧
      (n + run.2.2.2 : Int).toNat = m := by
  simp only [lowerCases, List.mem_flatMap, List.mem_map, List.mem_range, Prod.mk.injEq,
    Bool.and_eq_true, decide_eq_true_eq, beq_iff_eq]
  refine exists_congr fun run => and_congr_right fun hrun => ?_
  have hforward := List.all_eq_true.mp casesFit.forward run hrun
  simp only [Bool.and_eq_true, decide_eq_true_eq] at hforward
  constructor
  · rintro ⟨i, hi, rfl, rfl⟩
    have hle : i * run.2.2.1 ≤ run.2.1 - run.1 :=
      (Nat.le_div_iff_mul_le hforward.2).mp (Nat.le_of_lt_succ hi)
    refine ⟨⟨⟨Nat.le_add_right _ _, by omega⟩, ?_⟩, rfl⟩
    rw [Nat.add_sub_cancel_left, Nat.mul_mod_left]
  · rintro ⟨⟨⟨hfrom, hto⟩, hstep⟩, rfl⟩
    have hn : run.1 + (n - run.1) / run.2.2.1 * run.2.2.1 = n := by
      rw [Nat.div_mul_cancel (Nat.dvd_of_mod_eq_zero hstep)]
      exact Nat.add_sub_cancel' hfrom
    exact ⟨(n - run.1) / run.2.2.1,
      Nat.lt_succ_of_le (Nat.div_le_div_right (Nat.sub_le_sub_right hto _)), hn, by rw [hn]⟩

theorem mem_lowerCases_of_find? {n : Nat} {run : Nat × Nat × Nat × Int}
    (h : lowerRuns.find? (fun run => run.1 ≤ n && n ≤ run.2.1 && (n - run.1) % run.2.2.1 == 0) =
      some run) : (n, (n + run.2.2.2 : Int).toNat) ∈ lowerCases := by
  have hin := List.find?_some h
  exact mem_lowerCases_iff.mpr ⟨run, List.mem_of_find?_eq_some h, hin, rfl⟩

/-- The letters A to Z are in the table. -/
theorem mem_lowerCases_ascii {n : Nat} (h : (0x41 ≤ n && n ≤ 0x5A) = true) :
    (n, n + 32) ∈ lowerCases := by
  refine mem_lowerCases_iff.mpr ⟨(0x41, 0x5A, 1, 32), .head _, ?_, rfl⟩
  simpa [Nat.mod_one] using h

/-! ### Characters -/

theorem toNat_ofNat {n : Nat} (h : isScalar n = true) : (Char.ofNat n).toNat = n := by
  rw [Char.ofNat, dif_pos (isScalar_iff.mp h)]
  rfl

theorem isScalar_toNat (c : Char) : isScalar c.toNat = true := isScalar_iff.mpr c.valid

theorem isLowered_of_mem {n m : Nat} (h : (n, m) ∈ lowerCases) :
    isLowered (Char.ofNat m).toNat = true := by
  have hlowered := List.all_eq_true.mp casesFit.lowered (n, m) h
  have hscalar : isScalar m = true := by
    simp only [isLowered, Bool.and_eq_true] at hlowered
    exact hlowered.1.1.1
  rwa [toNat_ofNat hscalar]

theorem lowerChar_of_not_isCapital {c : Char} (h : isCapital c.toNat = false) :
    lowerChar c = [c] := by
  have hapart : ¬ (c.toNat = 0x130 ∨ ∃ m, (c.toNat, m) ∈ lowerCases) := by
    rw [← isCapital_iff, h]
    exact Bool.false_ne_true
  rw [not_or, not_exists] at hapart
  simp only [lowerChar]
  split
  · rw [if_neg]
    exact fun hletter => hapart.2 _ (mem_lowerCases_ascii hletter)
  · rw [if_neg hapart.1]
    split
    · exact absurd (mem_lowerCases_of_find? ‹_›) (hapart.2 _)
    · rfl

theorem lowerChar_of_isCapital {c : Char} (h : isCapital c.toNat = true) :
    lowerChar c ≠ [] ∧ ∀ d ∈ lowerChar c, isLowered d.toNat = true := by
  simp only [lowerChar]
  split
  · rename_i hascii
    have hletter := List.all_eq_true.mp casesFit.ascii _ (testBit_codeSet.mp h)
    simp only [Bool.or_eq_true, decide_eq_true_eq, Nat.not_le.mpr hascii, false_or] at hletter
    rw [if_pos hletter]
    have hlowered := isLowered_of_mem (mem_lowerCases_ascii hletter)
    exact ⟨List.cons_ne_nil _ _, List.forall_mem_singleton.mpr hlowered⟩
  split
  · refine ⟨List.cons_ne_nil _ _, fun d hd => List.all_eq_true.mp casesFit.special _ ?_⟩
    rcases List.mem_cons.mp hd with rfl | hd
    · exact .head _
    · obtain rfl := List.mem_singleton.mp hd
      exact .tail _ (.head _)
  split
  · have hlowered := isLowered_of_mem (mem_lowerCases_of_find? ‹_›)
    exact ⟨List.cons_ne_nil _ _, List.forall_mem_singleton.mpr hlowered⟩
  · rename_i hdotted _ hnone
    obtain ⟨m, hm⟩ := (isCapital_iff.mp h).resolve_left hdotted
    obtain ⟨run, hrun, hin, -⟩ := mem_lowerCases_iff.mp hm
    exact absurd hin (List.find?_eq_none.mp hnone run hrun)

/-! ### Characters between others -/

/-- Whether a sigma between two texts is the last letter of a word. The text before it is given last
character first. -/
def endsWord (before after : List Char) : Bool := meetsCased before && !meetsCased after

/-- Lower case of one character between two texts. -/
def lowerHere (before : List Char) (c : Char) (after : List Char) : List Char :=
  if c = 'Σ' then [if endsWord before after then 'ς' else 'σ'] else lowerChar c

theorem lowerHere_ne_nil (before : List Char) (c : Char) (after : List Char) :
    lowerHere before c after ≠ [] := by
  rw [lowerHere]
  split
  · exact List.cons_ne_nil _ _
  · cases hc : isCapital c.toNat with
    | false =>
      rw [lowerChar_of_not_isCapital hc]
      exact List.cons_ne_nil _ _
    | true => exact (lowerChar_of_isCapital hc).1

/-- What a character becomes: itself if it is no capital, and else small letters. -/
theorem of_mem_lowerHere {before after : List Char} {c d : Char}
    (hd : d ∈ lowerHere before c after) :
    isCapital c.toNat = false ∧ d = c ∨ isLowered d.toNat = true := by
  rw [lowerHere] at hd
  split at hd
  · refine .inr (List.all_eq_true.mp casesFit.special _ ?_)
    rw [List.mem_singleton.mp hd]
    split <;> decide
  · cases hc : isCapital c.toNat with
    | false =>
      rw [lowerChar_of_not_isCapital hc] at hd
      exact .inl ⟨rfl, List.mem_singleton.mp hd⟩
    | true => exact .inr ((lowerChar_of_isCapital hc).2 d hd)

theorem isCapital_of_isLowered {n : Nat} (h : isLowered n = true) : isCapital n = false := by
  simp only [isLowered, Bool.and_eq_true, Bool.not_eq_true'] at h
  exact h.1.2

theorem isSpace_of_isLowered {c : Char} (h : isLowered c.toNat = true) : isSpace c = false := by
  simp only [isLowered, Bool.and_eq_true, Bool.not_eq_true', isSpaceCode_toNat] at h
  exact h.2

/-! ### Texts -/

theorem lowerAfter_cons (before : List Char) (c : Char) (rest : List Char) :
    lowerAfter before (c :: rest) = lowerHere before c rest ++ lowerAfter (c :: before) rest := rfl

theorem isCapital_of_mem_lowerAfter {before cs : List Char} {d : Char}
    (hd : d ∈ lowerAfter before cs) : isCapital d.toNat = false := by
  induction cs generalizing before with
  | nil => cases hd
  | cons c rest ih =>
    rw [lowerAfter_cons] at hd
    rcases List.mem_append.mp hd with hd | hd
    · rcases of_mem_lowerHere hd with ⟨hc, rfl⟩ | hlowered
      · exact hc
      · exact isCapital_of_isLowered hlowered
    · exact ih hd

/-- Text without capitals is its own lower case. -/
theorem lowerAfter_of_not_isCapital {before cs : List Char}
    (h : ∀ c ∈ cs, isCapital c.toNat = false) : lowerAfter before cs = cs := by
  induction cs generalizing before with
  | nil => rfl
  | cons c rest ih =>
    obtain ⟨hc, hrest⟩ := List.forall_mem_cons.mp h
    have hsigma : c ≠ 'Σ' := by
      rintro rfl
      cases casesFit.sigma.symm.trans hc
    rw [lowerAfter, if_neg hsigma, lowerChar_of_not_isCapital hc, ih hrest, List.singleton_append]

theorem isCapital_of_isSpace {c : Char} (h : isSpace c = true) : isCapital c.toNat = false := by
  rw [← isSpaceCode_toNat, isSpaceCode] at h
  simpa using List.all_eq_true.mp casesFit.space _ (testBit_codeSet.mp h)

/-- Lower case of a text is blank just if the text is. -/
theorem all_isSpace_lowerAfter (before cs : List Char) :
    (lowerAfter before cs).all isSpace = cs.all isSpace := by
  rw [Bool.eq_iff_iff, List.all_eq_true, List.all_eq_true]
  constructor
  · intro h
    induction cs generalizing before with
    | nil => nofun
    | cons c rest ih =>
      rw [lowerAfter_cons, List.forall_mem_append] at h
      refine List.forall_mem_cons.mpr ⟨?_, ih _ h.2⟩
      obtain ⟨d, hd⟩ := List.exists_mem_of_ne_nil _ (lowerHere_ne_nil before c rest)
      rcases of_mem_lowerHere hd with ⟨-, rfl⟩ | hlowered
      · exact h.1 d hd
      · cases (h.1 d hd).symm.trans (isSpace_of_isLowered hlowered)
  · intro h
    rwa [lowerAfter_of_not_isCapital fun c hc => isCapital_of_isSpace (h c hc)]

/-! ### Trimmed text -/

/-- Text that neither begins nor ends with white space. -/
structure Trimmed (cs : List Char) : Prop where
  head : ∀ c ∈ cs.head?, isSpace c = false
  last : ∀ c ∈ cs.getLast?, isSpace c = false

theorem trimmed_trimChars (cs : List Char) : Trimmed (trimChars cs) :=
  ⟨fun _ => isSpace_of_head?_trimChars, fun _ => isSpace_of_getLast?_trimChars⟩

theorem Trimmed.trimChars_eq {cs : List Char} (h : Trimmed cs) : trimChars cs = cs :=
  trimChars_eq_self h.head h.last

theorem trimmed_iff {cs : List Char} : Trimmed cs ↔ trimChars cs = cs :=
  ⟨Trimmed.trimChars_eq, fun h => h ▸ trimmed_trimChars cs⟩

theorem lowerAfter_ne_nil {before cs : List Char} (h : cs ≠ []) : lowerAfter before cs ≠ [] := by
  cases cs with
  | nil => exact absurd rfl h
  | cons c rest =>
    rw [lowerAfter_cons]
    exact List.append_ne_nil_of_left_ne_nil (lowerHere_ne_nil before c rest) _

section

variable {P : Char → Prop} {before cs : List Char}

/-- What holds of small letters and of the first character of a text holds of the first one in lower
case. -/
theorem head?_lowerAfter (hlowered : ∀ d : Char, isLowered d.toNat = true → P d)
    (h : ∀ c ∈ cs.head?, P c) : ∀ d ∈ (lowerAfter before cs).head?, P d := by
  intro d hd
  cases cs with
  | nil => cases hd
  | cons c rest =>
    rw [lowerAfter_cons, List.head?_append_of_ne_nil _ (lowerHere_ne_nil before c rest)] at hd
    rcases of_mem_lowerHere (List.mem_of_mem_head? hd) with ⟨-, rfl⟩ | hd
    · exact h d rfl
    · exact hlowered d hd

theorem getLast?_lowerAfter (hlowered : ∀ d : Char, isLowered d.toNat = true → P d)
    (h : ∀ c ∈ cs.getLast?, P c) : ∀ d ∈ (lowerAfter before cs).getLast?, P d := by
  induction cs generalizing before with
  | nil => nofun
  | cons c rest ih =>
    intro d hd
    rw [lowerAfter_cons] at hd
    cases rest with
    | nil =>
      rw [lowerAfter, List.append_nil] at hd
      rcases of_mem_lowerHere (List.mem_of_getLast? hd) with ⟨-, rfl⟩ | hd
      · exact h d rfl
      · exact hlowered d hd
    | cons next more =>
      rw [List.getLast?_append_of_ne_nil _ (lowerAfter_ne_nil (List.cons_ne_nil next more))] at hd
      exact ih (fun e he => h e (by rwa [List.getLast?_cons_cons])) d hd

end

theorem Trimmed.lowerAfter {cs : List Char} (h : Trimmed cs) (before : List Char) :
    Trimmed (lowerAfter before cs) :=
  ⟨head?_lowerAfter (fun _ => isSpace_of_isLowered) h.head,
    getLast?_lowerAfter (fun _ => isSpace_of_isLowered) h.last⟩

/-! ### Parts of texts -/

/-- Lower case of what stands between two texts. -/
def lowerBetween (before after : List Char) : List Char → List Char
  | [] => []
  | c :: rest => lowerHere before c (rest ++ after) ++ lowerBetween (c :: before) after rest

theorem lowerAfter_append (before cs after : List Char) : lowerAfter before (cs ++ after) =
    lowerBetween before after cs ++ lowerAfter (cs.reverse ++ before) after := by
  induction cs generalizing before with
  | nil => rfl
  | cons c rest ih =>
    rw [List.cons_append, lowerAfter, ih, lowerBetween, List.reverse_cons, List.append_assoc,
      List.append_assoc]
    rfl

theorem lowerBetween_nil (before cs : List Char) :
    lowerBetween before [] cs = lowerAfter before cs := by
  have happend := lowerAfter_append before cs []
  rw [List.append_nil, lowerAfter, List.append_nil] at happend
  exact happend.symm

theorem length_lowerHere (before after before' after' : List Char) (c : Char) :
    (lowerHere before c after).length = (lowerHere before' c after').length := by
  rw [lowerHere, lowerHere]
  split <;> rfl

theorem lowerHere_eq_iff {before after before' after' : List Char} {c : Char} :
    lowerHere before c after = lowerHere before' c after' ↔
      (c = 'Σ' → endsWord before after = endsWord before' after') := by
  rw [lowerHere, lowerHere]
  split
  · cases endsWord before after <;> cases endsWord before' after' <;> simp_all
  · exact iff_of_true rfl fun hsigma => absurd hsigma ‹_›

/-- A part in lower case has one length, wherever it stands. -/
theorem length_lowerBetween (before after before' after' cs : List Char) :
    (lowerBetween before after cs).length = (lowerBetween before' after' cs).length := by
  induction cs generalizing before before' with
  | nil => rfl
  | cons c rest ih =>
    rw [lowerBetween, lowerBetween, List.length_append, List.length_append,
      ih (c :: before) (c :: before'),
      length_lowerHere before (rest ++ after) before' (rest ++ after')]

/-- In two places a part has one lower case just if these agree on which of its sigmas end words. -/
theorem lowerBetween_eq_iff {before after before' after' cs : List Char} :
    lowerBetween before after cs = lowerBetween before' after' cs ↔
      ∀ left right, cs = left ++ 'Σ' :: right →
        endsWord (left.reverse ++ before) (right ++ after) =
          endsWord (left.reverse ++ before') (right ++ after') := by
  induction cs generalizing before before' with
  | nil => simp [lowerBetween]
  | cons c rest ih =>
    have hparts : lowerBetween before after (c :: rest) = lowerBetween before' after' (c :: rest) ↔
        lowerHere before c (rest ++ after) = lowerHere before' c (rest ++ after') ∧
          lowerBetween (c :: before) after rest = lowerBetween (c :: before') after' rest := by
      rw [lowerBetween, lowerBetween]
      constructor
      · exact fun h => List.append_inj h (length_lowerHere _ _ _ _ c)
      · rintro ⟨hhere, hrest⟩
        rw [hhere, hrest]
    rw [hparts, lowerHere_eq_iff, ih]
    constructor
    · rintro ⟨hhere, hrest⟩ left right hsplit
      cases left with
      | nil =>
        obtain ⟨hc, rfl⟩ := List.cons.inj hsplit
        exact hhere hc
      | cons d left =>
        obtain ⟨rfl, hsplit'⟩ := List.cons.inj hsplit
        simpa using hrest left right hsplit'
    · refine fun h => ⟨fun hc => h [] rest (by rw [hc]; rfl), fun left right hrest => ?_⟩
      simpa using h (c :: left) right (by rw [hrest]; rfl)

end RecordStore.Text
