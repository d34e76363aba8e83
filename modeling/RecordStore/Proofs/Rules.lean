import RecordStore.Proofs.Lookups
import RecordStore.Text.Composed

/-!
# Rules of composition

The tables of composites read as rules: what each code point is taken apart into, and which pairs
form a composite. That the rules fit together is checked over all of them at once, with sets of
code points written as the bits of one number. Main statements: what a code point is taken apart
into cannot be taken apart further, and a composite is taken apart into what its first part is and
its second part.
-/

namespace RecordStore.Text

/-! ### Sets of code points -/

/-- The set of some code points, as a number with those bits. -/
def codeSet (cs : List Nat) : Nat := cs.foldl (fun set c => set ||| 1 <<< c) 0

theorem testBit_or_shiftLeft {set c n : Nat} :
    (set ||| 1 <<< c).testBit n = true ↔ set.testBit n = true ∨ n = c := by
  rw [Nat.testBit_or, Nat.one_shiftLeft, Nat.testBit_two_pow, Bool.or_eq_true, decide_eq_true_iff,
    @eq_comm _ c]

@[simp] theorem testBit_codeSet {cs : List Nat} {n : Nat} :
    (codeSet cs).testBit n = true ↔ n ∈ cs := by
  suffices hfold : ∀ set : Nat, (cs.foldl (fun set c => set ||| 1 <<< c) set).testBit n = true ↔
      set.testBit n = true ∨ n ∈ cs by
    simpa [codeSet] using hfold 0
  induction cs with
  | nil => simp
  | cons c rest ih =>
    intro set
    rw [List.foldl_cons, ih, testBit_or_shiftLeft, List.mem_cons, or_assoc]

theorem not_mem_of_codeSets {xs ys : List Nat} (h : codeSet xs &&& codeSet ys = 0) {n : Nat}
    (hx : n ∈ xs) : n ∉ ys := by
  intro hy
  have hbit := congrArg (Nat.testBit · n) h
  simp only [Nat.testBit_and, testBit_codeSet.mpr hx, testBit_codeSet.mpr hy, Nat.zero_testBit]
    at hbit
  cases hbit

/-- Whether no code point is in a set or occurs twice. -/
def allApart : Nat → List Nat → Bool
  | _, [] => true
  | set, c :: rest => !set.testBit c && allApart (set ||| 1 <<< c) rest

theorem nodup_of_allApart {set : Nat} {cs : List Nat} (h : allApart set cs = true) :
    cs.Nodup ∧ ∀ c ∈ cs, set.testBit c = false := by
  induction cs generalizing set with
  | nil => exact ⟨.nil, nofun⟩
  | cons c rest ih =>
    rw [allApart, Bool.and_eq_true, Bool.not_eq_true'] at h
    obtain ⟨hnodup, hapart⟩ := ih h.2
    refine ⟨List.nodup_cons.mpr ⟨fun hc => ?_, hnodup⟩,
      List.forall_mem_cons.mpr ⟨h.1, fun d hd => ?_⟩⟩
    · have hbit : (set ||| 1 <<< c).testBit c = true := testBit_or_shiftLeft.mpr (.inr rfl)
      rw [hapart c hc] at hbit
      cases hbit
    · rw [← Bool.not_eq_true]
      intro hset
      have hbit : (set ||| 1 <<< c).testBit d = true := testBit_or_shiftLeft.mpr (.inl hset)
      rw [hapart d hd] at hbit
      cases hbit

/-! ### Tables as rules -/

/-- The pairs that form a composite, and the composite. -/
def triples : List (Nat × Nat × Nat) :=
  composites.flatMap fun group => group.2.map fun entry => (entry.1, group.1, entry.2)

/-- The code points that are taken apart, and what into. -/
def rules : List (Nat × List Nat) :=
  triples.map (fun t => (t.2.2, [t.1, t.2.1])) ++
    brokenPairs.map (fun entry => (entry.1, [entry.2.1, entry.2.2])) ++
    substitutes.map (fun entry => (entry.1, [entry.2])) ++
    ideographRuns.flatMap fun run => run.2.zipIdx.map fun target => (run.1 + target.2, [target.1])

theorem find?_triples (c : Nat) :
    (composites.findSome? fun group =>
      (group.2.find? fun entry => entry.2 == c).map fun entry => [entry.1, group.1]) =
    (triples.find? fun t => t.2.2 == c).map fun t => [t.1, t.2.1] := by
  rw [triples, List.find?_flatMap, List.map_findSome?]
  refine congrArg (composites.findSome? ·) (funext fun group => ?_)
  simp [List.find?_map, Function.comp_def]

theorem mem_rules_of_decomposeOnce {c : Nat} {parts : List Nat} (h : decomposeOnce c = some parts) :
    (c, parts) ∈ rules := by
  unfold decomposeOnce at h
  split at h
  · cases h
  simp only [Option.orElse_eq_orElse, Option.orElse_eq_or, Option.or_eq_some_iff, find?_triples,
    Option.map_eq_some_iff] at h
  rw [rules, List.mem_append, List.mem_append, List.mem_append]
  rcases h with ⟨t, ht, rfl⟩ | ⟨-, ⟨entry, hentry, rfl⟩ | ⟨-, ⟨entry, hentry, rfl⟩ | ⟨-, h⟩⟩⟩
  · obtain ⟨hmem, rfl⟩ := mem_of_find?_key ht
    exact .inl (.inl (.inl (List.mem_map_of_mem hmem)))
  · obtain ⟨hmem, rfl⟩ := mem_of_find?_key hentry
    exact .inl (.inl (.inr (List.mem_map_of_mem hmem)))
  · obtain ⟨hmem, rfl⟩ := mem_of_find?_key hentry
    exact .inl (.inr (List.mem_map_of_mem hmem))
  · obtain ⟨run, hrun, h⟩ := List.exists_of_findSome?_eq_some h
    split at h
    · rename_i hle
      obtain ⟨target, htarget, rfl⟩ := Option.map_eq_some_iff.mp h
      refine .inr (List.mem_flatMap.mpr ⟨run, hrun, List.mem_map.mpr ⟨(target, c - run.1), ?_, ?_⟩⟩)
      · exact List.mem_zipIdx_iff_getElem?.mpr htarget
      · rw [Nat.add_sub_cancel' hle]
    · cases h

/-! ### The rules fit together -/

def isSyllable (c : Nat) : Bool := 0xAC00 ≤ c && c ≤ 0xD7A3

/-- A letter or a syllable of Hangul, which the tables leave to computation. -/
def isHangul (c : Nat) : Bool := (0x1100 ≤ c && c ≤ 0x11FF) || isSyllable c

/-- The code points that are taken apart more than so many times. -/
def takenApart : Nat → List Nat
  | 0 => rules.map (·.1)
  | n + 1 =>
    let set := codeSet (takenApart n)
    (rules.filter fun rule => rule.2.head?.any set.testBit).map (·.1)

/-- What the tables must be for the rules to fit together. -/
class RulesFit : Prop where
  /-- Nothing is taken apart more than three times. -/
  depth : takenApart 3 = []
  /-- Only first parts are taken apart further. -/
  tails : codeSet (rules.flatMap fun rule => rule.2.tail) &&& codeSet (takenApart 0) = 0
  hangul : (rules.all fun rule => !isHangul rule.1 && !rule.2.any isSyllable) = true
  /-- Each composite is formed by one pair. -/
  unique : allApart 0 (triples.map (·.2.2)) = true
  high : (triples.all fun t => 0xC0 ≤ t.2.2) = true

instance rulesFit : RulesFit where
  depth := by decide +kernel
  tails := by decide +kernel
  hangul := by decide +kernel
  unique := by decide +kernel
  high := by decide +kernel

theorem decomposeOnce_of_isHangul {c : Nat} (h : isHangul c = true) : decomposeOnce c = none := by
  rw [Option.eq_none_iff_forall_ne_some]
  intro parts hparts
  have hrule := List.all_eq_true.mp rulesFit.hangul _ (mem_rules_of_decomposeOnce hparts)
  simp [h] at hrule

theorem isSyllable_of_decomposeOnce {c d : Nat} {parts : List Nat}
    (h : decomposeOnce c = some parts) (hd : d ∈ parts) : isSyllable d = false := by
  have hrule := List.all_eq_true.mp rulesFit.hangul _ (mem_rules_of_decomposeOnce h)
  simp only [Bool.and_eq_true, Bool.not_eq_true', List.any_eq_false] at hrule
  simpa using hrule.2 d hd

theorem decomposeOnce_of_mem_tail {c d first : Nat} {rest : List Nat}
    (h : decomposeOnce c = some (first :: rest)) (hd : d ∈ rest) : decomposeOnce d = none := by
  rw [Option.eq_none_iff_forall_ne_some]
  intro parts hparts
  have htail : d ∈ rules.flatMap fun rule => rule.2.tail :=
    List.mem_flatMap.mpr ⟨_, mem_rules_of_decomposeOnce h, hd⟩
  exact not_mem_of_codeSets rulesFit.tails htail
    (List.mem_map_of_mem (mem_rules_of_decomposeOnce hparts))

theorem decomposeOnce_of_mem_triples {t : Nat × Nat × Nat} (ht : t ∈ triples) :
    decomposeOnce t.2.2 = some [t.1, t.2.1] := by
  have hfind : triples.find? (fun u => u.2.2 == t.2.2) = some t :=
    find?_of_pairwise_ne (List.pairwise_map.mp (nodup_of_allApart rulesFit.unique).1) ht
  have hge : 0xC0 ≤ t.2.2 := by simpa using List.all_eq_true.mp rulesFit.high t ht
  rw [decomposeOnce, if_neg (Nat.not_lt.mpr hge)]
  simp only [find?_triples, hfind]
  rfl

/-! ### Taking apart -/

theorem decomposeFrom_of_once {c : Nat} (h : decomposeOnce c = none) (n : Nat) :
    decomposeFrom n c = [c] := by
  cases n with
  | zero => rfl
  | succ n => simp [decomposeFrom, h]

theorem mem_takenApart_succ {n c first : Nat} {rest : List Nat}
    (h : decomposeOnce c = some (first :: rest)) (hfirst : first ∈ takenApart n) :
    c ∈ takenApart (n + 1) := by
  refine List.mem_map.mpr ⟨(c, first :: rest), List.mem_filter.mpr ⟨?_, ?_⟩, rfl⟩
  · exact mem_rules_of_decomposeOnce h
  · simpa using hfirst

/-- What is taken apart no more than so many times needs no further ones. -/
theorem decomposeFrom_succ {n c : Nat} (h : c ∉ takenApart n) :
    decomposeFrom (n + 1) c = decomposeFrom n c := by
  induction n generalizing c with
  | zero =>
    refine decomposeFrom_of_once ?_ 1
    rw [Option.eq_none_iff_forall_ne_some]
    exact fun parts hparts => h (List.mem_map_of_mem (mem_rules_of_decomposeOnce hparts))
  | succ n ih =>
    rw [decomposeFrom, decomposeFrom]
    split
    · rename_i first rest hparts
      rw [ih fun hfirst => h (mem_takenApart_succ hparts hfirst)]
    · rfl

theorem decomposeFrom_four (c : Nat) : decomposeFrom 4 c = decomposeFrom 3 c :=
  decomposeFrom_succ (by simp [rulesFit.depth])

theorem decompose_of_table {c : Nat} (h : isSyllable c = false) :
    decompose c = decomposeFrom 4 c := by
  have hnot : ¬ (0xAC00 ≤ c && c ≤ 0xD7A3) = true := by simpa [isSyllable] using h
  rw [decompose, if_neg hnot]

theorem decompose_of_once {c : Nat} (hc : isSyllable c = false) (h : decomposeOnce c = none) :
    decompose c = [c] := by
  rw [decompose_of_table hc, decomposeFrom_of_once h]

theorem decompose_of_letter {c : Nat} (hfrom : 0x1100 ≤ c) (hto : c ≤ 0x11FF) :
    decompose c = [c] := by
  refine decompose_of_once ?_ (decomposeOnce_of_isHangul ?_)
  · simp [isSyllable]
    omega
  · simp [isHangul, hfrom, hto]

theorem decompose_of_mem_decomposeFrom {n c d : Nat} (hc : isSyllable c = false)
    (h : c ∉ takenApart n) (hd : d ∈ decomposeFrom n c) : decompose d = [d] := by
  induction n generalizing c with
  | zero =>
    obtain rfl := List.mem_singleton.mp hd
    refine decompose_of_once hc ?_
    rw [Option.eq_none_iff_forall_ne_some]
    exact fun parts hparts => h (List.mem_map_of_mem (mem_rules_of_decomposeOnce hparts))
  | succ n ih =>
    cases honce : decomposeOnce c with
    | none =>
      rw [decomposeFrom_of_once honce] at hd
      obtain rfl := List.mem_singleton.mp hd
      exact decompose_of_once hc honce
    | some parts =>
      have hparts := fun d hd => isSyllable_of_decomposeOnce (d := d) honce hd
      cases parts with
      | nil =>
        simp only [decomposeFrom, honce, List.mem_singleton] at hd
        rw [hd, decompose_of_table hc]
        simp only [decomposeFrom, honce]
      | cons first rest =>
        simp only [decomposeFrom, honce, List.mem_append] at hd
        rcases hd with hd | hd
        · exact ih (hparts first List.mem_cons_self)
            (fun hfirst => h (mem_takenApart_succ honce hfirst)) hd
        · exact decompose_of_once (hparts d (List.mem_cons_of_mem _ hd))
            (decomposeOnce_of_mem_tail honce hd)

theorem decompose_of_syllable {index : Nat} (h : index < 11172) :
    decompose (0xAC00 + index) = (0x1100 + index / 588) :: (0x1161 + index % 588 / 28) ::
      if index % 28 = 0 then [] else [0x11A7 + index % 28] := by
  have hbounds : (0xAC00 ≤ 0xAC00 + index && 0xAC00 + index ≤ 0xD7A3) = true := by
    simp only [Bool.and_eq_true, decide_eq_true_eq]
    omega
  rw [decompose, if_pos hbounds]
  simp only [Nat.add_sub_cancel_left]
  split <;> rfl

theorem exists_index {c : Nat} (h : isSyllable c = true) :
    ∃ index, index < 11172 ∧ c = 0xAC00 + index := by
  simp only [isSyllable, Bool.and_eq_true, decide_eq_true_eq] at h
  exact ⟨c - 0xAC00, by omega, by omega⟩

/-- A syllable is taken apart into letters. -/
theorem letter_of_mem_decompose {c d : Nat} (hc : isSyllable c = true) (hd : d ∈ decompose c) :
    0x1100 ≤ d ∧ d ≤ 0x11FF := by
  obtain ⟨index, hindex, rfl⟩ := exists_index hc
  rw [decompose_of_syllable hindex, List.mem_cons, List.mem_cons] at hd
  rcases hd with rfl | rfl | hd
  · omega
  · omega
  · split at hd
    · cases hd
    · obtain rfl := List.mem_singleton.mp hd
      omega

/-- What a code point is taken apart into cannot be taken apart further. -/
theorem decompose_of_mem_decompose {c d : Nat} (hd : d ∈ decompose c) : decompose d = [d] := by
  cases hc : isSyllable c with
  | true =>
    obtain ⟨hfrom, hto⟩ := letter_of_mem_decompose hc hd
    exact decompose_of_letter hfrom hto
  | false =>
    rw [decompose_of_table hc, decomposeFrom_four] at hd
    exact decompose_of_mem_decomposeFrom hc (by simp [rulesFit.depth]) hd

/-! ### Putting together -/

/-- How two code points form a composite: a lead and a vowel, a syllable and a tail, or by the
tables. -/
theorem compose?_cases {a b c : Nat} (h : compose? a b = some c) :
    (∃ lead vowel, lead < 19 ∧ vowel < 21 ∧ a = 0x1100 + lead ∧ b = 0x1161 + vowel ∧
      c = 0xAC00 + (lead * 21 + vowel) * 28) ∨
    (∃ base tail, base < 399 ∧ 0 < tail ∧ tail < 28 ∧ a = 0xAC00 + base * 28 ∧
      b = 0x11A7 + tail ∧ c = a + tail) ∨
    (a, b, c) ∈ triples := by
  unfold compose? at h
  split at h
  · cases h
  split at h
  · rename_i hletters
    simp only [Bool.and_eq_true, decide_eq_true_eq] at hletters
    obtain rfl := Option.some.inj h
    exact .inl ⟨a - 0x1100, b - 0x1161, by omega, by omega, by omega, by omega, rfl⟩
  split at h
  · rename_i hletters
    simp only [Bool.and_eq_true, decide_eq_true_eq, beq_iff_eq] at hletters
    obtain rfl := Option.some.inj h
    refine .inr (.inl ⟨(a - 0xAC00) / 28, b - 0x11A7, ?_⟩)
    omega
  · obtain ⟨group, hgroup, h⟩ := List.exists_of_findSome?_eq_some h
    split at h
    · rename_i hsecond
      obtain ⟨entry, hentry, rfl⟩ := Option.map_eq_some_iff.mp h
      obtain ⟨hmem, rfl⟩ := mem_of_find?_key hentry
      obtain rfl := eq_of_beq hsecond
      exact .inr (.inr (List.mem_flatMap.mpr ⟨group, hgroup, List.mem_map_of_mem hmem⟩))
    · cases h

/-- A composite is taken apart into what its first part is, and its second part. -/
theorem decompose_of_compose? {a b c : Nat} (h : compose? a b = some c) :
    decompose c = decompose a ++ [b] := by
  rcases compose?_cases h with ⟨lead, vowel, hlead, hvowel, rfl, rfl, rfl⟩ |
    ⟨base, tail, hbase, htail, hlast, rfl, rfl, rfl⟩ | ht
  · have hopen : (lead * 21 + vowel) * 28 % 28 = 0 := Nat.mul_mod_left _ 28
    rw [decompose_of_syllable (by omega), decompose_of_letter (by omega) (by omega), if_pos hopen]
    simp only [List.cons_append, List.nil_append, List.cons.injEq, and_true]
    omega
  · have hopen : base * 28 % 28 = 0 := Nat.mul_mod_left _ 28
    rw [Nat.add_assoc, decompose_of_syllable (by omega), decompose_of_syllable (by omega),
      if_pos hopen, if_neg (by omega)]
    simp only [List.cons_append, List.nil_append, List.cons.injEq, and_true]
    omega
  · have honce := decomposeOnce_of_mem_triples ht
    have hc : isSyllable c = false := by
      rw [← Bool.not_eq_true]
      intro hsyllable
      have hnone := decomposeOnce_of_isHangul (c := c) (by simp [isHangul, hsyllable])
      cases hnone.symm.trans honce
    have ha := isSyllable_of_decomposeOnce honce List.mem_cons_self
    rw [decompose_of_table hc, decompose_of_table ha, decomposeFrom_four a, decomposeFrom, honce]

/-- A composite is a syllable or is in the tables. -/
theorem isHangul_or_mem_triples {a b c : Nat} (h : compose? a b = some c) :
    isHangul c = true ∨ (a, b, c) ∈ triples := by
  rcases compose?_cases h with ⟨lead, vowel, hlead, hvowel, rfl, rfl, rfl⟩ |
    ⟨base, tail, hbase, htail, hlast, rfl, rfl, rfl⟩ | ht
  · refine .inl ?_
    simp [isHangul, isSyllable]
    omega
  · refine .inl ?_
    simp [isHangul, isSyllable]
    omega
  · exact .inr ht

/-! ### What the rules keep -/

/-- What code points may have that taking apart and putting together keeps: parts have it where the
whole does, composites where their first parts do, and all of Hangul has it. -/
class Kept (ok : Nat → Bool) : Prop where
  apart : (rules.all fun rule => !ok rule.1 || rule.2.all ok) = true
  together : (triples.all fun t => !ok t.1 || ok t.2.2) = true
  hangul : ∀ c, isHangul c = true → ok c = true

namespace Kept

variable {ok : Nat → Bool}

theorem decomposeFrom (h : Kept ok) {n c : Nat} (hc : ok c = true) :
    ∀ d ∈ decomposeFrom n c, ok d = true := by
  induction n generalizing c with
  | zero => simpa [Text.decomposeFrom] using hc
  | succ n ih =>
    rw [Text.decomposeFrom]
    split
    · rename_i first rest hparts
      have hrule := List.all_eq_true.mp h.apart _ (mem_rules_of_decomposeOnce hparts)
      simp only [hc, Bool.not_true, Bool.false_or, List.all_cons, Bool.and_eq_true] at hrule
      exact List.forall_mem_append.mpr ⟨ih hrule.1, List.all_eq_true.mp hrule.2⟩
    · simpa using hc

theorem decompose (h : Kept ok) {c : Nat} (hc : ok c = true) :
    ∀ d ∈ decompose c, ok d = true := by
  intro d hd
  cases hsyllable : isSyllable c with
  | true =>
    obtain ⟨hfrom, hto⟩ := letter_of_mem_decompose hsyllable hd
    exact h.hangul d (by simp [isHangul, hfrom, hto])
  | false =>
    rw [decompose_of_table hsyllable] at hd
    exact h.decomposeFrom hc d hd

theorem compose? (h : Kept ok) {a b c : Nat} (ha : ok a = true) (hc : compose? a b = some c) :
    ok c = true := by
  rcases isHangul_or_mem_triples hc with hc | ht
  · exact h.hangul c hc
  · simpa [ha] using List.all_eq_true.mp h.together _ ht

end Kept

end RecordStore.Text
