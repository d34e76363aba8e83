import Mathlib.Data.List.Induction
import Mathlib.Data.String.Basic
import RecordStore.Id

/-!
# Texts of ids

The text of an id writes its bytes as digits, in groups with hyphens at fixed places. Main
statements: comparing two such texts is comparing the ids; and an id is read from just those texts
that write its digits in either case, in one row or in groups, and these bare, in braces or behind
`urn:uuid:`.
-/

namespace RecordStore

/-! ### Digits -/

namespace Text

theorem hexValue?_eq_some_iff {c : Char} {n : Nat} :
    hexValue? c = some n ↔ n < 16 ∧ c.toLower = hexDigit n := by
  have hascii : ∀ m : Fin 128, (∀ d ∈ hexValue? (Char.ofNat m), d < 16) ∧
      ∀ d : Fin 16, hexValue? (Char.ofNat m) = some d.val ↔
        (Char.ofNat m).toLower = hexDigit d := by decide +kernel
  by_cases hc : c.toNat < 128
  · obtain ⟨hbound, hdigit⟩ := hascii ⟨c.toNat, hc⟩
    rw [Char.ofNat_toNat] at hbound hdigit
    constructor
    · intro h
      exact ⟨hbound n h, (hdigit ⟨n, hbound n h⟩).mp h⟩
    · rintro ⟨hn, h⟩
      exact (hdigit ⟨n, hn⟩).mpr h
  · have hnone : hexValue? c = none := by
      simp only [hexValue?]
      rw [if_neg (by omega), if_neg (by omega), if_neg (by omega)]
    have hsame : c.toLower = c := by
      refine dif_neg ?_
      rintro ⟨-, hle⟩
      have hle' : c.toNat ≤ 90 := UInt32.le_iff_toNat_le.mp hle
      omega
    rw [hnone, hsame]
    refine iff_of_false (by simp) ?_
    rintro ⟨hn, rfl⟩
    have hlow : ∀ d : Fin 16, (hexDigit d).toNat < 128 := by decide
    exact hc (hlow ⟨n, hn⟩)

theorem compare_hexDigit {m n : Nat} (hm : m < 16) (hn : n < 16) :
    compare (hexDigit m) (hexDigit n) = compare m n := by
  have hall : ∀ m n : Fin 16, compare (hexDigit m) (hexDigit n) = compare m.val n.val := by
    decide +kernel
  exact hall ⟨m, hm⟩ ⟨n, hn⟩

end Text

/-! ### Order of texts -/

theorem Text.compare_eq_lt_iff_lt {xs ys : List Char} : compare xs ys = .lt ↔ xs < ys := by
  induction xs generalizing ys with
  | nil => cases ys <;> simp
  | cons x xs ih =>
    cases ys with
    | nil => simp
    | cons y ys =>
      rw [List.compare_cons_cons, List.cons_lt_cons_iff, Ordering.then_eq_lt, ih,
        compare_lt_iff_lt, Std.LawfulEqOrd.compare_eq_iff_eq]

/-- Texts are compared character by character. -/
theorem Text.compare_toList (s t : String) : compare s t = compare s.toList t.toList := by
  have hlt (s t : String) : compare s t = .lt ↔ compare s.toList t.toList = .lt := by
    rw [Text.compare_eq_lt_iff_lt, ← String.lt_iff_toList_lt]
    exact compare_lt_iff_lt
  cases h : compare s.toList t.toList with
  | lt => exact (hlt s t).mpr h
  | eq =>
    rw [String.toList_inj.mp (Std.LawfulEqOrd.eq_of_compare h)]
    exact Std.ReflOrd.compare_self
  | gt =>
    rw [Std.OrientedOrd.eq_swap, (hlt t s).mpr (Std.OrientedCmp.lt_of_gt h)]
    rfl

theorem compare_append {α : Type} [Ord α] {xs ys : List α} (h : xs.length = ys.length)
    (xs' ys' : List α) :
    compare (xs ++ xs') (ys ++ ys') = (compare xs ys).then (compare xs' ys') := by
  induction xs generalizing ys with
  | nil =>
    obtain rfl := List.length_eq_zero_iff.mp h.symm
    rw [List.compare_nil_nil]
    rfl
  | cons x xs ih =>
    cases ys with
    | nil => cases h
    | cons y ys =>
      rw [List.cons_append, List.cons_append, List.compare_cons_cons, List.compare_cons_cons,
        ih (Nat.succ.inj h), Ordering.then_assoc]

theorem compare_flatMap {α β : Type} [Ord α] [Ord β] {f : α → List β} {size : Nat}
    (hsize : ∀ a, (f a).length = size) (hf : ∀ a b, compare (f a) (f b) = compare a b)
    {xs ys : List α} (h : xs.length = ys.length) :
    compare (xs.flatMap f) (ys.flatMap f) = compare xs ys := by
  induction xs generalizing ys with
  | nil =>
    obtain rfl := List.length_eq_zero_iff.mp h.symm
    rfl
  | cons x xs ih =>
    cases ys with
    | nil => cases h
    | cons y ys =>
      rw [List.flatMap_cons, List.flatMap_cons, compare_append ((hsize x).trans (hsize y).symm),
        List.compare_cons_cons, hf, ih (Nat.succ.inj h)]

namespace Id

/-! ### Order of ids -/

/-- The first digits of two numbers decide, or else the second do. -/
theorem compare_sixteens (m n : Nat) :
    (compare (m / 16) (n / 16)).then (compare (m % 16) (n % 16)) = compare m n := by
  cases hhigh : compare (m / 16) (n / 16) with
  | lt =>
    have hlt := Nat.compare_eq_lt.mp hhigh
    exact (Nat.compare_eq_lt.mpr (by omega)).symm
  | gt =>
    have hgt := Nat.compare_eq_gt.mp hhigh
    exact (Nat.compare_eq_gt.mpr (by omega)).symm
  | eq =>
    have heq := Nat.compare_eq_eq.mp hhigh
    dsimp only [Ordering.then]
    cases hlow : compare (m % 16) (n % 16) with
    | lt =>
      have hlt := Nat.compare_eq_lt.mp hlow
      exact (Nat.compare_eq_lt.mpr (by omega)).symm
    | gt =>
      have hgt := Nat.compare_eq_gt.mp hlow
      exact (Nat.compare_eq_gt.mpr (by omega)).symm
    | eq =>
      have heq' := Nat.compare_eq_eq.mp hlow
      exact (Nat.compare_eq_eq.mpr (by omega)).symm

theorem compare_byteChars (a b : UInt8) : compare (byteChars a) (byteChars b) = compare a b := by
  have ha : a.toNat < 256 := a.toNat_lt
  have hb : b.toNat < 256 := b.toNat_lt
  rw [byteChars, byteChars, List.compare_cons_cons, List.compare_cons_cons, List.compare_nil_nil,
    Text.compare_hexDigit (by omega) (by omega), Text.compare_hexDigit (by omega) (by omega),
    Ordering.then_eq, compare_sixteens, UInt8.compare_eq_toNat_compare_toNat]

/-- The digits of an id, two for each byte. -/
def digits (id : Id) : List Char := id.bytes.flatMap byteChars

theorem length_digits (id : Id) : id.digits.length = 32 := by
  rw [digits, length_flatMap_byteChars, id.length_eq]

/-- Digits in groups of 8, 4, 4, 4 and 12. -/
def hyphenated (digits : List Char) : List Char :=
  let group (start size : Nat) := (digits.drop start).take size
  group 0 8 ++ '-' :: group 8 4 ++ '-' :: group 12 4 ++ '-' :: group 16 4 ++ '-' :: group 20 12

theorem hyphenated_digits (id : Id) : hyphenated id.digits = id.chars := rfl

/-- Hyphens stand at the same places of both texts, so their digits decide. -/
theorem compare_hyphenated {xs ys : List Char} (hx : xs.length = 32) (hy : ys.length = 32) :
    compare (hyphenated xs) (hyphenated ys) = compare xs ys := by
  have hsize (start size : Nat) : ((xs.drop start).take size).length =
      ((ys.drop start).take size).length := by simp [hx, hy]
  have hfirst : (xs.take 8).length = (ys.take 8).length := hsize 0 8
  have hcons (xs' ys' : List Char) : compare ('-' :: xs') ('-' :: ys') = compare xs' ys' := by
    rw [List.compare_cons_cons, Std.ReflOrd.compare_self]
    rfl
  conv_rhs => rw [← groups_append hx, ← groups_append hy]
  simp only [hyphenated, List.append_assoc, List.cons_append, List.drop_zero]
  simp only [compare_append hfirst, compare_append (hsize 8 4), compare_append (hsize 12 4),
    compare_append (hsize 16 4), hcons]

/-- Texts of ids are in the order of the ids. -/
theorem compare_text (a b : Id) : compare a.text b.text = compare a b := by
  have hbytes : a.bytes.length = b.bytes.length := a.length_eq.trans b.length_eq.symm
  rw [Text.compare_toList, text, text, String.toList_ofList, String.toList_ofList,
    ← hyphenated_digits, ← hyphenated_digits,
    compare_hyphenated a.length_digits b.length_digits, digits, digits,
    compare_flatMap length_byteChars compare_byteChars hbytes]
  rfl

/-! ### Forms -/

/-- The forms that ids are read from. -/
inductive Form where
  | bare | grouped | braced | urn
deriving DecidableEq

def urnHead : List Char := ['u', 'r', 'n', ':', 'u', 'u', 'i', 'd', ':']

theorem toList_urn : "urn:uuid:".toList = urnHead := by decide

def Form.write : Form → List Char → List Char
  | .bare, digits => digits
  | .grouped, digits => hyphenated digits
  | .braced, digits => '\x7b' :: (hyphenated digits ++ ['\x7d'])
  | .urn, digits => urnHead ++ hyphenated digits

/-! ### Reading digits -/

theorem byteChars_eq_iff {b : UInt8} {high low : Char} :
    byteChars b = [high.toLower, low.toLower] ↔
      ∃ h l, Text.hexValue? high = some h ∧ Text.hexValue? low = some l ∧
        UInt8.ofNat (16 * h + l) = b := by
  have hb : b.toNat < 256 := b.toNat_lt
  simp only [Text.hexValue?_eq_some_iff]
  constructor
  · intro h
    obtain ⟨hhigh, hlow⟩ : Text.hexDigit (b.toNat / 16) = high.toLower ∧
        Text.hexDigit (b.toNat % 16) = low.toLower := by simpa [byteChars] using h
    refine ⟨b.toNat / 16, b.toNat % 16, ⟨by omega, hhigh.symm⟩, ⟨by omega, hlow.symm⟩, ?_⟩
    rw [Nat.div_add_mod, UInt8.ofNat_toNat]
  · rintro ⟨h, l, ⟨hh, hhigh⟩, ⟨hl, hlow⟩, rfl⟩
    have hvalue : (UInt8.ofNat (16 * h + l)).toNat = 16 * h + l :=
      UInt8.toNat_ofNat_of_lt (by simp only [UInt8.size]; omega)
    have hdiv : (16 * h + l) / 16 = h := by omega
    have hmod : (16 * h + l) % 16 = l := by omega
    rw [byteChars, hvalue, hdiv, hmod, hhigh, hlow]

/-- What is read as bytes are their digits in either case. -/
theorem bytesOf?_eq_some_iff {cs : List Char} {bytes : List UInt8} :
    bytesOf? cs = some bytes ↔ cs.map Char.toLower = bytes.flatMap byteChars := by
  induction bytes generalizing cs with
  | nil =>
    match cs with
    | [] => simp [bytesOf?]
    | [_] => simp [bytesOf?]
    | _ :: _ :: _ => simp [bytesOf?, Option.bind_eq_some_iff]
  | cons b bytes ih =>
    match cs with
    | [] => simp [bytesOf?, byteChars]
    | [_] => simp [bytesOf?, byteChars]
    | high :: low :: rest =>
      have hcons : (high :: low :: rest).map Char.toLower = (b :: bytes).flatMap byteChars ↔
          byteChars b = [high.toLower, low.toLower] ∧
            rest.map Char.toLower = bytes.flatMap byteChars := by
        simp [byteChars, eq_comm, and_assoc]
      rw [hcons, byteChars_eq_iff, ← ih]
      simp only [bytesOf?, Option.bind_eq_bind, Option.pure_def, Option.bind_eq_some_iff,
        Option.some.injEq, List.cons.injEq]
      constructor
      · rintro ⟨h, hh, l, hl, bytes', hrest, rfl, rfl⟩
        exact ⟨⟨h, l, hh, hl, rfl⟩, hrest⟩
      · rintro ⟨⟨h, l, hh, hl, rfl⟩, hrest⟩
        exact ⟨h, hh, l, hl, bytes, hrest, rfl, rfl⟩

theorem ofDigits?_eq_some_iff {cs : List Char} {id : Id} :
    ofDigits? cs = some id ↔ cs.map Char.toLower = id.digits := by
  rw [digits, ← bytesOf?_eq_some_iff]
  simp only [ofDigits?, Option.bind_eq_bind, Option.bind_eq_some_iff, ofBytes?]
  constructor
  · rintro ⟨bytes, hbytes, h⟩
    split at h
    · cases h
      exact hbytes
    · cases h
  · intro h
    exact ⟨id.bytes, h, by rw [dif_pos id.length_eq]⟩

theorem length_of_toLower {cs : List Char} {id : Id} (h : cs.map Char.toLower = id.digits) :
    cs.length = 32 := by
  rw [← List.length_map Char.toLower, h, length_digits]

/-- Where a hyphen stands the text goes on behind it. -/
theorem drop_of_hyphen {cs : List Char} {i : Nat} (h : cs[i]? = some '-') :
    cs.drop i = '-' :: cs.drop (i + 1) := by
  obtain ⟨hi, heq⟩ := List.getElem?_eq_some_iff.mp h
  rw [List.drop_eq_getElem_cons hi, heq]

theorem hyphenated_append {a b c d e : List Char} (ha : a.length = 8) (hb : b.length = 4)
    (hc : c.length = 4) (hd : d.length = 4) (he : e.length = 12) :
    hyphenated (a ++ b ++ c ++ d ++ e) = a ++ '-' :: b ++ '-' :: c ++ '-' :: d ++ '-' :: e := by
  simp [hyphenated, List.drop_append, List.take_of_length_le, List.drop_of_length_le, ha, hb, hc,
    hd, he]

/-- Groups that are taken from between hyphens are put between hyphens again. -/
theorem hyphenated_groups {cs : List Char} (hlength : cs.length = 36) (h8 : cs[8]? = some '-')
    (h13 : cs[13]? = some '-') (h18 : cs[18]? = some '-') (h23 : cs[23]? = some '-') :
    hyphenated ((cs.drop 0).take 8 ++ (cs.drop 9).take 4 ++ (cs.drop 14).take 4 ++
      (cs.drop 19).take 4 ++ (cs.drop 24).take 12) = cs := by
  have step (start size : Nat) : (cs.drop start).take size ++ cs.drop (start + size) =
      cs.drop start := by
    rw [← List.drop_drop, List.take_append_drop]
  have hlast : (cs.drop 24).take 12 = cs.drop 24 := List.take_of_length_le (by simp [hlength])
  rw [hyphenated_append (by simp [hlength]) (by simp [hlength]) (by simp [hlength])
    (by simp [hlength]) (by simp [hlength])]
  simp only [List.append_assoc, List.cons_append]
  rw [hlast, ← drop_of_hyphen h23, step 19 4, ← drop_of_hyphen h18, step 14 4,
    ← drop_of_hyphen h13, step 9 4, ← drop_of_hyphen h8, step 0 8, List.drop_zero]

theorem ofGroups?_eq_some_iff {cs : List Char} {id : Id} :
    ofGroups? cs = some id ↔ ∃ digits, digits.map Char.toLower = id.digits ∧
      hyphenated digits = cs := by
  constructor
  · intro h
    rw [ofGroups?] at h
    split at h
    · rename_i hgroups
      obtain ⟨hlength, hhyphens⟩ := hgroups
      simp only [List.all_cons, List.all_nil, Bool.and_true, Bool.and_eq_true, beq_iff_eq]
        at hhyphens
      obtain ⟨h8, h13, h18, h23⟩ := hhyphens
      exact ⟨_, ofDigits?_eq_some_iff.mp h, hyphenated_groups hlength h8 h13 h18 h23⟩
    · cases h
  · rintro ⟨digits, hdigits, rfl⟩
    have hlength := length_of_toLower hdigits
    rw [← ofDigits?_eq_some_iff, ← groups_append hlength] at hdigits
    rw [hyphenated, ofGroups?_hyphenated]
    · exact hdigits
    all_goals simp [hlength]

theorem length_hyphenated {digits : List Char} (h : digits.length = 32) :
    (hyphenated digits).length = 36 := by
  simp [hyphenated, h]

/-- Text in braces is what stands between them, with them around it. -/
theorem eq_braced {cs : List Char} (hlength : cs.length = 38) (hhead : cs.head? = some '\x7b')
    (hlast : cs.getLast? = some '\x7d') : cs = '\x7b' :: ((cs.drop 1).take 36 ++ ['\x7d']) := by
  obtain ⟨rest, rfl⟩ := List.head?_eq_some_iff.mp hhead
  cases rest using List.reverseRecOn with
  | nil => cases hlength
  | append_singleton inner last _ =>
    have hinner : inner.length = 36 := by simpa using hlength
    have hclosed : last = '\x7d' := by simpa [List.getLast?_cons] using hlast
    rw [List.drop_one, List.tail_cons, List.take_left' hinner, hclosed]

/-- An id is read from its digits in either case, in one of the forms. -/
theorem ofChars?_eq_some_iff {cs : List Char} {id : Id} :
    ofChars? cs = some id ↔ ∃ form : Form, ∃ digits, digits.map Char.toLower = id.digits ∧
      form.write digits = cs := by
  constructor
  · intro h
    rw [ofChars?, toList_urn] at h
    by_cases hplain : cs.length = 32
    · rw [if_pos hplain] at h
      exact ⟨.bare, cs, ofDigits?_eq_some_iff.mp h, rfl⟩
    rw [if_neg hplain] at h
    by_cases hhyphenated : cs.length = 36
    · rw [if_pos hhyphenated] at h
      obtain ⟨digits, hdigits, rfl⟩ := ofGroups?_eq_some_iff.mp h
      exact ⟨.grouped, digits, hdigits, rfl⟩
    rw [if_neg hhyphenated] at h
    by_cases hbraced : cs.length = 38 ∧ cs.head? = some '\x7b' ∧ cs.getLast? = some '\x7d'
    · rw [if_pos hbraced] at h
      obtain ⟨digits, hdigits, hinner⟩ := ofGroups?_eq_some_iff.mp h
      refine ⟨.braced, digits, hdigits, ?_⟩
      rw [Form.write, hinner]
      exact (eq_braced hbraced.1 hbraced.2.1 hbraced.2.2).symm
    rw [if_neg hbraced] at h
    by_cases hurn : cs.length = 45 ∧ cs.take 9 = urnHead
    · rw [if_pos hurn] at h
      obtain ⟨digits, hdigits, hrest⟩ := ofGroups?_eq_some_iff.mp h
      refine ⟨.urn, digits, hdigits, ?_⟩
      rw [Form.write, hrest, ← hurn.2, List.take_append_drop]
    · rw [if_neg hurn] at h
      cases h
  · rintro ⟨form, digits, hdigits, rfl⟩
    have hread : ofGroups? (hyphenated digits) = some id :=
      ofGroups?_eq_some_iff.mpr ⟨digits, hdigits, rfl⟩
    have hlength := length_of_toLower hdigits
    have hlength' := length_hyphenated hlength
    cases form with
    | bare =>
      rw [Form.write, ofChars?, if_pos hlength]
      exact ofDigits?_eq_some_iff.mpr hdigits
    | grouped =>
      rw [Form.write, ofChars?, if_neg (by omega), if_pos hlength', hread]
    | braced =>
      have hinner : ((Form.braced.write digits).drop 1).take 36 = hyphenated digits := by
        rw [Form.write, List.drop_one, List.tail_cons, List.take_left' hlength']
      have hall : (Form.braced.write digits).length = 38 := by simp [Form.write, hlength']
      have hends : (Form.braced.write digits).head? = some '\x7b' ∧
          (Form.braced.write digits).getLast? = some '\x7d' := by
        simp [Form.write, List.getLast?_cons]
      rw [ofChars?, if_neg (by omega), if_neg (by omega), if_pos ⟨hall, hends⟩, hinner, hread]
    | urn =>
      have hrest : (Form.urn.write digits).drop 9 = hyphenated digits := List.drop_left' rfl
      have hhead : (Form.urn.write digits).take 9 = urnHead := List.take_left' rfl
      have hall : (Form.urn.write digits).length = 45 := by simp [Form.write, urnHead, hlength']
      rw [ofChars?, toList_urn, if_neg (by omega), if_neg (by omega), if_neg (by omega),
        if_pos ⟨hall, hhead⟩, hrest, hread]

/-- A text writes the digits of an id, in either case and in one of the forms, with any white space
around it. -/
def SpelledBy (id : Id) (s : String) : Prop :=
  ∃ form : Form, ∃ digits, digits.map Char.toLower = id.digits ∧
    form.write digits = Text.trimChars s.toList

theorem ofTrimmed?_eq_some_iff {s : String} {id : Id} :
    ofTrimmed? s = some id ↔ id.SpelledBy s := by
  rw [ofTrimmed?, ofText?, Text.toList_trim, ofChars?_eq_some_iff, SpelledBy]

end Id

end RecordStore
