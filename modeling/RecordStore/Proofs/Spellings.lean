import Mathlib
import RecordStore.Json.Printer
import RecordStore.Json.Reader

/-!
# Spellings of JSON

What spells a value, whatever blanks stand between its parts. A number is read digit by digit and a
string character by character, so each part is read from the head of what follows it, and the value
part by part. Main statement: whatever spells a value, it is the value that is read.
-/

namespace RecordStore.Json

mutual

/-- Every number in the value is an integer that fits 64 bits, with or without a sign. -/
def IsWhole : Json → Prop
  | .int n => -(Nat.pow 2 63) ≤ n ∧ n < UInt64.size
  | .float _ => False
  | .arr items => WholeItems items
  | .obj members => WholeMembers members
  | _ => True

def WholeItems : List Json → Prop
  | [] => True
  | item :: rest => IsWhole item ∧ WholeItems rest

def WholeMembers : List (String × Json) → Prop
  | [] => True
  | (_, value) :: rest => IsWhole value ∧ WholeMembers rest

end

/-! ### Strings -/

theorem readString_number {a b c d : Char} {n : Nat} (h : Text.hexNumber? [a, b, c, d] = some n)
    (hn : n < 0xD800) (rest : List Char) :
    readString ('\\' :: 'u' :: a :: b :: c :: d :: rest) =
      (readString rest).map (addChar (Char.ofNat n)) := by
  rw [readString]
  simp only [h, if_pos (Or.inl hn)]

/-- A character before the blank is escaped by a letter or by its number. -/
theorem readString_control {n : Nat} (h : n < 0x20) (rest : List Char) :
    readString (escapeChar (Char.ofNat n) ++ rest) =
      (readString rest).map (addChar (Char.ofNat n)) := by
  interval_cases n <;> first | rfl | exact readString_number rfl (by decide) rest

/-- A character is read back from what stands for it, whatever follows. -/
theorem readString_escapeChar (c : Char) (rest : List Char) :
    readString (escapeChar c ++ rest) = (readString rest).map (addChar c) := by
  by_cases hcontrol : c.toNat < 0x20
  · rw [← Char.ofNat_toNat c]
    exact readString_control hcontrol rest
  by_cases hquote : c = '"'
  · rw [hquote]
    rfl
  by_cases hbackslash : c = '\\'
  · rw [hbackslash]
    rfl
  have hne : ∀ d : Char, d.toNat < 0x20 → c ≠ d := by
    rintro d hd rfl
    exact hcontrol hd
  rw [escapeChar, if_neg hquote, if_neg hbackslash, if_neg (hne _ (by decide)),
    if_neg (hne _ (by decide)), if_neg (hne _ (by decide)), if_neg (by omega), if_neg (by omega),
    if_neg hcontrol, List.singleton_append, readString, if_neg (not_or.mpr ⟨hbackslash, hcontrol⟩)]
  all_goals simp_all

theorem readString_flatMap (cs rest : List Char) :
    readString (cs.flatMap escapeChar ++ '"' :: rest) = some (some cs, rest) := by
  induction cs with
  | nil => rfl
  | cons c cs ih =>
    rw [List.flatMap_cons, List.append_assoc, readString_escapeChar, ih]
    rfl

/-! ### Blanks -/

def Blanks (gap : List Char) : Prop := ∀ c ∈ gap, isSpacing c = true

theorem blanks_nil : Blanks [] := nofun

theorem skipSpacing_append {gap : List Char} (h : Blanks gap) (rest : List Char) :
    skipSpacing (gap ++ rest) = skipSpacing rest := List.dropWhile_append_of_pos h

theorem skipSpacing_cons {c : Char} (hc : isSpacing c = false) (rest : List Char) :
    skipSpacing (c :: rest) = c :: rest := List.dropWhile_cons_of_neg (by simp [hc])

/-- What follows a value in an array or an object, or nothing. -/
def Follows (rest : List Char) : Prop := ∀ c ∈ rest.head?, c = ',' ∨ c = ']' ∨ c = '}'

/-- Blanks may stand before what follows. -/
theorem head_of_follows {c : Char} {rest : List Char} (h : Follows (skipSpacing (c :: rest))) :
    isSpacing c = true ∨ c = ',' ∨ c = ']' ∨ c = '}' := by
  cases hc : isSpacing c with
  | true => exact .inl rfl
  | false =>
    rw [skipSpacing_cons hc] at h
    exact .inr (h c rfl)

/-! ### Integers -/

theorem isSpacing_of_isDigit {c : Char} (hc : c.isDigit = true) : isSpacing c = false := by
  rw [Bool.eq_false_iff]
  intro hspace
  simp only [isSpacing, Bool.or_eq_true, beq_iff_eq] at hspace
  rcases hspace with ((rfl | rfl) | rfl) | rfl <;> cases hc

theorem takeWhile_isDigit {digits rest : List Char} (h : ∀ c ∈ digits, c.isDigit = true)
    (hrest : Follows (skipSpacing rest)) :
    (digits ++ rest).takeWhile Char.isDigit = digits ∧
      (digits ++ rest).dropWhile Char.isDigit = rest := by
  rw [List.takeWhile_append_of_pos h, List.dropWhile_append_of_pos h]
  cases rest with
  | nil => simp
  | cons c rest =>
    have hc : c.isDigit = false := by
      rw [Bool.eq_false_iff]
      intro hdigit
      rcases head_of_follows hrest with hspace | rfl | rfl | rfl
      · cases hspace.symm.trans (isSpacing_of_isDigit hdigit)
      all_goals cases hdigit
    simp [hc]

theorem head?_toDigits_ne {n : Nat} (h : n ≠ 0) : (Nat.toDigits 10 n).head? ≠ some '0' := by
  induction n using Nat.strongRecOn with
  | ind n ih =>
    by_cases hn : n < 10
    · rw [Nat.toDigits_of_lt_base hn]
      interval_cases n <;> simp_all
    · rw [Nat.toDigits_of_base_le (by decide) (by omega),
        List.head?_append_of_ne_nil _ Nat.toDigits_ne_nil]
      exact ih (n / 10) (by omega) (by omega)

theorem le_ofDigitChars (cs : List Char) (n : Nat) : n ≤ Nat.ofDigitChars 10 cs n := by
  induction cs generalizing n with
  | nil => exact le_refl n
  | cons c cs ih =>
    rw [Nat.ofDigitChars_cons]
    have hle := ih (10 * n + (c.toNat - '0'.toNat))
    omega

/-- Digits are all taken in while their number has room. -/
theorem absorb_eq {cs : List Char} {n : Nat} (h : Nat.ofDigitChars 10 cs n < UInt64.size) :
    absorb n cs = (Nat.ofDigitChars 10 cs n, []) := by
  induction cs generalizing n with
  | nil => rfl
  | cons c cs ih =>
    rw [Nat.ofDigitChars_cons] at h ⊢
    have hroom := (le_ofDigitChars cs _).trans_lt h
    exact (if_pos hroom).trans (ih h)

/-- A number is read back from its digits. -/
theorem readNumber_toDigits (negative : Bool) {n : Nat} (h : n < UInt64.size) {rest : List Char}
    (hrest : Follows (skipSpacing rest)) :
    readNumber negative (Nat.toDigits 10 n ++ rest) = some (integerOf? negative n 0, rest) := by
  have hdigits : ∀ c ∈ Nat.toDigits 10 n, c.isDigit = true := fun c hc =>
    Nat.isDigit_of_mem_toDigits (by decide) (by decide) hc
  obtain ⟨htake, hdrop⟩ := takeWhile_isDigit hdigits hrest
  have hvalue : Nat.ofDigitChars 10 (Nat.toDigits 10 n) 0 = n :=
    Nat.ofDigitChars_toDigits (by decide) (by decide)
  have habsorb := absorb_eq (hvalue.trans_lt h)
  have hwell : ¬ ((Nat.toDigits 10 n).isEmpty = true ∨
      (Nat.toDigits 10 n).head? = some '0' ∧ (Nat.toDigits 10 n).length ≠ 1) := by
    by_cases hn : n = 0
    · rw [hn]
      decide
    · simp [head?_toDigits_ne hn, Nat.toDigits_ne_nil]
  rw [readNumber, htake, hdrop]
  simp only [if_neg hwell, habsorb, hvalue]
  -- none of the characters that go on with a number follows
  split
  case h_4 => rfl
  all_goals
    rcases head_of_follows hrest with hc | hc | hc | hc <;> cases hc

theorem exists_toDigits_eq_cons (n : Nat) :
    ∃ c digits, Nat.toDigits 10 n = c :: digits ∧ c.isDigit = true := by
  obtain ⟨c, digits, h⟩ := List.exists_cons_of_ne_nil (Nat.toDigits_ne_nil (n := n) (b := 10))
  exact ⟨c, digits, h, Nat.isDigit_of_mem_toDigits (b := 10) (n := n) (by decide) (by decide)
    (h ▸ List.mem_cons_self)⟩

theorem readValue_digit {c : Char} (hc : c.isDigit = true) (fuel : Nat) (rest : List Char) :
    readValue (fuel + 1) (c :: rest) =
      (readNumber false (c :: rest)).map fun r => (.number r.1, r.2) := by
  rw [readValue, skipSpacing_cons (isSpacing_of_isDigit hc)]
  split
  case h_8 => rfl
  all_goals
    rename_i heq
    cases heq
    cases hc

/-- An integer of 64 bits is read back from its digits and its sign. -/
theorem readValue_int {n : Int} (h : (int n).IsWhole) (fuel : Nat) {rest : List Char}
    (hrest : Follows (skipSpacing rest)) :
    readValue (fuel + 1) (intChars n ++ rest) = some (.number (some (.int n)), rest) := by
  rw [IsWhole] at h
  rw [intChars]
  split
  · have hsize : n.natAbs < UInt64.size := by simp [UInt64.size] at h ⊢; omega
    have hread := readNumber_toDigits true hsize hrest
    have hinteger : integerOf? true n.natAbs 0 = some (.int n) := by
      rw [integerOf?, if_pos rfl, if_pos ⟨rfl, by omega, by simp at h ⊢; omega⟩]
      congr 2
      omega
    have hskip : skipSpacing ('-' :: (Nat.toDigits 10 n.natAbs ++ rest)) =
      '-' :: (Nat.toDigits 10 n.natAbs ++ rest) := rfl
    rw [List.cons_append, readValue, hskip]
    simp only [hread, hinteger, Option.map_some]
  · have hsize : n.natAbs < UInt64.size := by simp [UInt64.size] at h ⊢; omega
    have hread := readNumber_toDigits false hsize hrest
    have hinteger : integerOf? false n.natAbs 0 = some (.int n) := by
      rw [integerOf?, if_neg (by decide), if_pos rfl]
      congr 2
      omega
    obtain ⟨c, digits, hdigits, hc⟩ := exists_toDigits_eq_cons n.natAbs
    rw [hdigits, List.cons_append] at hread ⊢
    rw [readValue_digit hc, hread, hinteger, Option.map_some]

/-! ### Spellings -/

mutual

/-- A value as its text spells it. -/
def written : Json → Written
  | .null => .null
  | .bool b => .bool b
  | .int n => .number (some (.int n))
  | .float d => .number (some (.float d))
  | .str s => .str (some s)
  | .arr items => .arr (writtenItems items)
  | .obj members => .obj (writtenMembers members)

def writtenItems : List Json → List Written
  | [] => []
  | item :: rest => written item :: writtenItems rest

def writtenMembers : List (String × Json) → List (Option String × Written)
  | [] => []
  | (key, value) :: rest => (some key, written value) :: writtenMembers rest

end

mutual

/-- Characters spell a value, with blanks anywhere between its parts. -/
inductive Spells : Json → List Char → Prop
  | null : Spells .null (scalarChars .null)
  | bool (b : Bool) : Spells (.bool b) (scalarChars (.bool b))
  | int {n : Int} (h : (Json.int n).IsWhole) : Spells (.int n) (intChars n)
  | str (s : String) : Spells (.str s) (quote s)
  | arrNil {gap : List Char} (hgap : Blanks gap) : Spells (.arr []) ('[' :: (gap ++ [']']))
  | arr {item : Json} {rest : List Json} {gap cs more : List Char} (hgap : Blanks gap)
      (first : Spells item cs) (others : SpellsItems rest more) :
      Spells (.arr (item :: rest)) ('[' :: (gap ++ (cs ++ more)))
  | objNil {gap : List Char} (hgap : Blanks gap) : Spells (.obj []) ('{' :: (gap ++ ['}']))
  | obj {member : String × Json} {rest : List (String × Json)} {gap cs more : List Char}
      (hgap : Blanks gap) (first : SpellsMember member cs) (others : SpellsMembers rest more) :
      Spells (.obj (member :: rest)) ('{' :: (gap ++ (cs ++ more)))

/-- What follows an item of an array: the others and the end. -/
inductive SpellsItems : List Json → List Char → Prop
  | nil {gap : List Char} (hgap : Blanks gap) : SpellsItems [] (gap ++ [']'])
  | cons {item : Json} {rest : List Json} {before gap cs more : List Char} (hbefore : Blanks before)
      (hgap : Blanks gap) (next : Spells item cs) (others : SpellsItems rest more) :
      SpellsItems (item :: rest) (before ++ ',' :: (gap ++ (cs ++ more)))

inductive SpellsMember : String × Json → List Char → Prop
  | mk {key : String} {value : Json} {before gap cs : List Char} (hbefore : Blanks before)
      (hgap : Blanks gap) (hvalue : Spells value cs) :
      SpellsMember (key, value) (quote key ++ (before ++ ':' :: (gap ++ cs)))

/-- What follows a member of an object: the others and the end. -/
inductive SpellsMembers : List (String × Json) → List Char → Prop
  | nil {gap : List Char} (hgap : Blanks gap) : SpellsMembers [] (gap ++ ['}'])
  | cons {member : String × Json} {rest : List (String × Json)} {before gap cs more : List Char}
      (hbefore : Blanks before) (hgap : Blanks gap) (next : SpellsMember member cs)
      (others : SpellsMembers rest more) :
      SpellsMembers (member :: rest) (before ++ ',' :: (gap ++ (cs ++ more)))

end

/-- No value begins with a blank or with the end of an array. -/
theorem Spells.exists_eq_cons {j : Json} {cs : List Char} (h : Spells j cs) :
    ∃ c rest, cs = c :: rest ∧ isSpacing c = false ∧ c ≠ ']' := by
  cases h with
  | null => exact ⟨'n', _, rfl, by decide, by decide⟩
  | bool b => cases b <;> exact ⟨_, _, rfl, by decide, by decide⟩
  | @int n =>
    rw [intChars]
    split
    · exact ⟨'-', _, rfl, by decide, by decide⟩
    · obtain ⟨c, digits, hdigits, hc⟩ := exists_toDigits_eq_cons n.natAbs
      refine ⟨c, digits, hdigits, isSpacing_of_isDigit hc, ?_⟩
      rintro rfl
      cases hc
  | str s => exact ⟨'"', _, rfl, by decide, by decide⟩
  | arrNil | arr => exact ⟨'[', _, rfl, by decide, by decide⟩
  | objNil | obj => exact ⟨'{', _, rfl, by decide, by decide⟩

theorem SpellsMember.exists_eq_cons {member : String × Json} {cs : List Char}
    (h : SpellsMember member cs) : ∃ rest, cs = '"' :: rest := by
  cases h with
  | mk => exact ⟨_, by rw [quote, List.cons_append]⟩

theorem follows_append {gap : List Char} (hgap : Blanks gap) {c : Char}
    (hspace : isSpacing c = false) (hc : c = ',' ∨ c = ']' ∨ c = '}') (rest : List Char) :
    Follows (skipSpacing (gap ++ c :: rest)) := by
  rw [skipSpacing_append hgap, skipSpacing_cons hspace]
  intro d hd
  cases hd
  exact hc

theorem SpellsItems.follows {items : List Json} {more : List Char} (h : SpellsItems items more)
    (rest : List Char) : Follows (skipSpacing (more ++ rest)) := by
  cases h with
  | nil hgap =>
    rw [List.append_assoc]
    exact follows_append hgap rfl (.inr (.inl rfl)) rest
  | cons hbefore =>
    rw [List.append_assoc]
    exact follows_append hbefore rfl (.inl rfl) _

theorem SpellsMembers.follows {members : List (String × Json)} {more : List Char}
    (h : SpellsMembers members more) (rest : List Char) : Follows (skipSpacing (more ++ rest)) := by
  cases h with
  | nil hgap =>
    rw [List.append_assoc]
    exact follows_append hgap rfl (.inr (.inr rfl)) rest
  | cons hbefore =>
    rw [List.append_assoc]
    exact follows_append hbefore rfl (.inl rfl) _

/-! ### Reading -/

theorem readValue_blanks {gap : List Char} (h : Blanks gap) (fuel : Nat) (rest : List Char) :
    readValue fuel (gap ++ rest) = readValue fuel rest := by
  cases fuel with
  | zero => rw [readValue, readValue]
  | succ fuel => rw [readValue, readValue, skipSpacing_append h]

theorem readItems_blanks {gap : List Char} (h : Blanks gap) (fuel : Nat) (rest : List Char) :
    readItems fuel (gap ++ rest) = readItems fuel rest := by
  cases fuel with
  | zero => rw [readItems, readItems]
  | succ fuel => rw [readItems, readItems, readValue_blanks h]

theorem readMembers_blanks {gap : List Char} (h : Blanks gap) (fuel : Nat) (rest : List Char) :
    readMembers fuel (gap ++ rest) = readMembers fuel rest := by
  cases fuel with
  | zero => rw [readMembers, readMembers]
  | succ fuel => rw [readMembers, readMembers, skipSpacing_append h]

theorem readValue_str (s : String) (fuel : Nat) (rest : List Char) :
    readValue (fuel + 1) (quote s ++ rest) = some (.str (some s), rest) := by
  have hquote : quote s ++ rest = '"' :: (s.toList.flatMap escapeChar ++ '"' :: rest) := by
    simp [quote]
  rw [hquote, readValue, skipSpacing_cons rfl]
  simp only [readString_flatMap, Option.map_some, String.ofList_toList]

theorem readValue_items {gap : List Char} (hgap : Blanks gap) {c : Char}
    (hspace : isSpacing c = false) (hc : c ≠ ']') (fuel : Nat) (cs : List Char) :
    readValue (fuel + 1) ('[' :: (gap ++ c :: cs)) =
      (readItems fuel (c :: cs)).map fun r => (.arr r.1, r.2) := by
  rw [readValue, skipSpacing_cons rfl]
  simp only [skipSpacing_append hgap, skipSpacing_cons hspace, readItems_blanks hgap]
  split
  · rename_i heq
    cases heq
    exact absurd rfl hc
  · rfl

theorem readValue_members {gap : List Char} (hgap : Blanks gap) (fuel : Nat) (cs : List Char) :
    readValue (fuel + 1) ('{' :: (gap ++ '"' :: cs)) =
      (readMembers fuel ('"' :: cs)).map fun r => (.obj r.1, r.2) := by
  rw [readValue, skipSpacing_cons rfl]
  simp only [skipSpacing_append hgap, skipSpacing_cons (c := '"') rfl, readMembers_blanks hgap]
  rfl

/-- What is read of an object after one of its members: the end or the next ones. -/
def readAfter (fuel : Nat) (member : Option String × Written) (rest : List Char) :
    Option (List (Option String × Written) × List Char) :=
  match skipSpacing rest with
  | '}' :: tail => some ([member], tail)
  | ',' :: tail => (readMembers fuel tail).map fun r => (member :: r.1, r.2)
  | _ => none

theorem readMembers_quote {before gap : List Char} (hbefore : Blanks before) (hgap : Blanks gap)
    (key : String) (fuel : Nat) (cs : List Char) :
    readMembers (fuel + 1) (quote key ++ (before ++ ':' :: (gap ++ cs))) =
      (readValue fuel cs).bind fun r => readAfter fuel (some key, r.1) r.2 := by
  have hquote : quote key ++ (before ++ ':' :: (gap ++ cs)) =
      '"' :: (key.toList.flatMap escapeChar ++ '"' :: (before ++ ':' :: (gap ++ cs))) := by
    simp [quote]
  rw [hquote, readMembers, skipSpacing_cons rfl]
  simp only [readString_flatMap, Option.map_some, String.ofList_toList, skipSpacing_append hbefore,
    skipSpacing_cons (c := ':') rfl, readValue_blanks hgap]
  cases readValue fuel cs <;> rfl

mutual

/-- A value is read from whatever spells it, whatever follows that could follow it in an array or an
object; two steps for each character are enough. -/
theorem readValue_of_spells : {j : Json} → {cs : List Char} → Spells j cs →
    ∀ {fuel : Nat} {rest : List Char}, 2 * cs.length ≤ fuel → Follows (skipSpacing rest) →
      readValue fuel (cs ++ rest) = some (written j, rest)
  | _, _, h, 0, rest, hfuel, _ => by
    obtain ⟨c, cs, rfl, -⟩ := h.exists_eq_cons
    simp at hfuel
  | _, _, .null, fuel + 1, rest, _, _ | _, _, .bool true, fuel + 1, rest, _, _
  | _, _, .bool false, fuel + 1, rest, _, _ => by
    rw [readValue, written]
    rfl
  | _, _, .int h, fuel + 1, rest, _, hrest => by rw [readValue_int h fuel hrest, written]
  | _, _, .str s, fuel + 1, rest, _, _ => by rw [readValue_str s fuel rest, written]
  | _, _, .arrNil hgap, fuel + 1, rest, _, _ => by
    rw [List.cons_append, List.append_assoc, readValue, skipSpacing_cons rfl]
    simp only [skipSpacing_append hgap]
    rw [written]
    rfl
  | _, _, .arr hgap first others, fuel + 1, rest, hfuel, _ => by
    rw [List.length_cons, List.length_append, List.length_append] at hfuel
    obtain ⟨fuel, rfl⟩ : ∃ n, fuel = n + 1 := ⟨fuel - 1, by omega⟩
    have hitems := readItems_of_spells others fuel rest
      (fun hrest => readValue_of_spells first (by omega) hrest) (by omega)
    obtain ⟨c, cs, rfl, hspace, hc⟩ := first.exists_eq_cons
    simp only [List.cons_append, List.append_assoc] at hitems ⊢
    rw [readValue_items hgap hspace hc, hitems, Option.map_some, written, writtenItems]
  | _, _, .objNil hgap, fuel + 1, rest, _, _ => by
    rw [List.cons_append, List.append_assoc, readValue, skipSpacing_cons rfl]
    simp only [skipSpacing_append hgap]
    rw [written]
    rfl
  | _, _, .obj hgap first others, fuel + 1, rest, hfuel, _ => by
    rw [List.length_cons, List.length_append, List.length_append] at hfuel
    obtain ⟨fuel, rfl⟩ : ∃ n, fuel = n + 1 := ⟨fuel - 1, by omega⟩
    have hmembers := readMembers_of_spells others fuel rest
      (fun hrest => readMember_of_spells first (by omega) hrest) (by omega)
    obtain ⟨cs, rfl⟩ := first.exists_eq_cons
    simp only [List.cons_append, List.append_assoc] at hmembers ⊢
    rw [readValue_members hgap, hmembers, Option.map_some, written, writtenMembers]

/-- After a first item the others are read. -/
theorem readItems_of_spells : {items : List Json} → {more : List Char} → SpellsItems items more →
    ∀ (fuel : Nat) (rest : List Char) {w : Written} {cs : List Char},
      (∀ {rest}, Follows (skipSpacing rest) → readValue fuel (cs ++ rest) = some (w, rest)) →
        2 * more.length ≤ fuel →
          readItems (fuel + 1) (cs ++ (more ++ rest)) = some (w :: writtenItems items, rest)
  | _, _, .nil hgap, fuel, rest, w, cs, hfirst, _ => by
    rw [readItems, hfirst ((SpellsItems.nil hgap).follows rest), List.append_assoc]
    simp only [skipSpacing_append hgap]
    rfl
  | _, _, .cons hbefore hgap next others, fuel, rest, w, cs, hfirst, hfuel => by
    rw [readItems, hfirst ((SpellsItems.cons hbefore hgap next others).follows rest)]
    rw [List.length_append, List.length_cons, List.length_append, List.length_append] at hfuel
    obtain ⟨fuel, rfl⟩ : ∃ n, fuel = n + 1 := ⟨fuel - 1, by omega⟩
    have hitems := readItems_of_spells others fuel rest
      (fun hrest => readValue_of_spells next (by omega) hrest) (by omega)
    simp only [List.append_assoc, List.cons_append, skipSpacing_append hbefore,
      skipSpacing_cons (c := ',') rfl, readItems_blanks hgap, hitems, Option.map_some]
    rw [writtenItems]

theorem readMember_of_spells : {member : String × Json} → {cs : List Char} →
    SpellsMember member cs → ∀ {fuel : Nat} {rest : List Char}, 2 * cs.length ≤ fuel →
      Follows (skipSpacing rest) → readMembers (fuel + 1) (cs ++ rest) =
        readAfter fuel (some member.1, written member.2) rest
  | _, _, .mk hbefore hgap hvalue, fuel, rest, hfuel, hrest => by
    rw [List.length_append, List.length_append, List.length_cons, List.length_append] at hfuel
    simp only [List.append_assoc, List.cons_append]
    rw [readMembers_quote hbefore hgap, readValue_of_spells hvalue (by omega) hrest]
    rfl

/-- After a first member the others are read. -/
theorem readMembers_of_spells : {members : List (String × Json)} → {more : List Char} →
    SpellsMembers members more →
      ∀ (fuel : Nat) (rest : List Char) {member : Option String × Written} {cs : List Char},
        (∀ {rest}, Follows (skipSpacing rest) →
          readMembers (fuel + 1) (cs ++ rest) = readAfter fuel member rest) →
            2 * more.length ≤ fuel → readMembers (fuel + 1) (cs ++ (more ++ rest)) =
              some (member :: writtenMembers members, rest)
  | _, _, .nil hgap, fuel, rest, member, cs, hfirst, _ => by
    rw [hfirst ((SpellsMembers.nil hgap).follows rest), List.append_assoc, readAfter,
      skipSpacing_append hgap]
    rfl
  | _, _, .cons hbefore hgap next others, fuel, rest, member, cs, hfirst, hfuel => by
    rw [hfirst ((SpellsMembers.cons hbefore hgap next others).follows rest)]
    rw [List.length_append, List.length_cons, List.length_append, List.length_append] at hfuel
    obtain ⟨fuel, rfl⟩ : ∃ n, fuel = n + 1 := ⟨fuel - 1, by omega⟩
    have hmembers := readMembers_of_spells others fuel rest
      (fun hrest => readMember_of_spells next (by omega) hrest) (by omega)
    simp only [List.append_assoc, List.cons_append, readAfter, skipSpacing_append hbefore,
      skipSpacing_cons (c := ',') rfl, readMembers_blanks hgap, hmembers, Option.map_some]
    rw [writtenMembers]

end

/-- Whatever spells a value is read as it is written. -/
theorem Written.parse?_of_spells {j : Json} {cs : List Char} (h : Spells j cs) :
    Written.parse? (String.ofList cs) = some (written j) := by
  have hread : readValue (2 * cs.length + 2) (cs ++ []) = some (written j, []) :=
    readValue_of_spells h (by omega) nofun
  rw [List.append_nil] at hread
  rw [Written.parse?, String.toList_ofList, hread]
  rfl

end RecordStore.Json
