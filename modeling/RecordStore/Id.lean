import RecordStore.Text.Blank
import RecordStore.Text.Hex

/-!
# Ids

An id is sixteen bytes. It is written as 32 lower-case hexadecimal digits in groups of 8, 4, 4, 4
and 12; it is read from that form in either case, bare, in braces or behind `urn:uuid:`, and also
without the hyphens.
-/

namespace RecordStore

structure Id where
  bytes : List UInt8
  length_eq : bytes.length = 16
deriving DecidableEq

namespace Id

def ofBytes? (bytes : List UInt8) : Option Id :=
  if h : bytes.length = 16 then some ⟨bytes, h⟩ else none

instance : Inhabited Id := ⟨⟨List.replicate 16 0, rfl⟩⟩

/-! ### Order -/

/-- Ids are ordered by their bytes, the first byte first. -/
instance : Ord Id := ⟨fun a b => compare a.bytes b.bytes⟩

/-! ### Writing -/

def byteChars (b : UInt8) : List Char :=
  [Text.hexDigit (b.toNat / 16), Text.hexDigit (b.toNat % 16)]

def chars (id : Id) : List Char :=
  let digits := id.bytes.flatMap byteChars
  let group (start size : Nat) := (digits.drop start).take size
  group 0 8 ++ '-' :: group 8 4 ++ '-' :: group 12 4 ++ '-' :: group 16 4 ++ '-' :: group 20 12

def text (id : Id) : String := String.ofList id.chars

instance : ToString Id := ⟨text⟩

/-! ### Reading -/

def bytesOf? : List Char → Option (List UInt8)
  | [] => some []
  | [_] => none
  | high :: low :: rest => do
    let h ← Text.hexValue? high
    let l ← Text.hexValue? low
    return UInt8.ofNat (16 * h + l) :: (← bytesOf? rest)

def ofDigits? (digits : List Char) : Option Id := do ofBytes? (← bytesOf? digits)

def ofGroups? (cs : List Char) : Option Id :=
  if cs.length = 36 ∧ [8, 13, 18, 23].all (fun i => cs[i]? == some '-') then
    let group (start size : Nat) := (cs.drop start).take size
    ofDigits? (group 0 8 ++ group 9 4 ++ group 14 4 ++ group 19 4 ++ group 24 12)
  else none

def ofChars? (cs : List Char) : Option Id :=
  if cs.length = 32 then ofDigits? cs
  else if cs.length = 36 then ofGroups? cs
  else if cs.length = 38 ∧ cs.head? = some '\x7b' ∧ cs.getLast? = some '\x7d' then
    ofGroups? ((cs.drop 1).take 36)
  else if cs.length = 45 ∧ cs.take 9 = "urn:uuid:".toList then ofGroups? (cs.drop 9)
  else none

def ofText? (s : String) : Option Id := ofChars? s.toList

def ofTrimmed? (s : String) : Option Id := ofText? (Text.trim s)

theorem length_byteChars (b : UInt8) : (byteChars b).length = 2 := rfl

theorem length_flatMap_byteChars (bytes : List UInt8) :
    (bytes.flatMap byteChars).length = 2 * bytes.length := by
  induction bytes with
  | nil => rfl
  | cons b rest ih =>
    simp only [List.flatMap_cons, List.length_append, length_byteChars, ih, List.length_cons]
    omega

theorem length_chars (id : Id) : id.chars.length = 36 := by
  have h := length_flatMap_byteChars id.bytes
  rw [id.length_eq] at h
  simp [chars, h]

/-! ### Reading what was written -/

theorem bytesOf?_flatMap_byteChars (bytes : List UInt8) :
    bytesOf? (bytes.flatMap byteChars) = some bytes := by
  induction bytes with
  | nil => rfl
  | cons b rest ih =>
    have hb : b.toNat < 256 := b.toNat_lt
    have hhigh := Text.hexValue?_hexDigit (n := b.toNat / 16) (by omega)
    have hlow := Text.hexValue?_hexDigit (n := b.toNat % 16) (by omega)
    have hbyte : UInt8.ofNat (16 * (b.toNat / 16) + b.toNat % 16) = b := by
      rw [Nat.div_add_mod, UInt8.ofNat_toNat]
    simp only [List.flatMap_cons, byteChars, List.cons_append, List.nil_append, bytesOf?, ih,
      hhigh, hlow, Option.bind_eq_bind, Option.bind_some, Option.pure_def, hbyte]

theorem ofDigits?_flatMap_byteChars (id : Id) :
    ofDigits? (id.bytes.flatMap byteChars) = some id := by
  simp only [ofDigits?, bytesOf?_flatMap_byteChars, Option.bind_eq_bind, Option.bind_some, ofBytes?,
    id.length_eq, dif_pos]

/-- Groups of digits with hyphens between them are read as the digits of all groups. -/
theorem ofGroups?_hyphenated {a b c d e : List Char} (ha : a.length = 8) (hb : b.length = 4)
    (hc : c.length = 4) (hd : d.length = 4) (he : e.length = 12) :
    ofGroups? (a ++ '-' :: b ++ '-' :: c ++ '-' :: d ++ '-' :: e) =
      ofDigits? (a ++ b ++ c ++ d ++ e) := by
  rw [ofGroups?, if_pos]
  · simp [List.drop_append, List.take_of_length_le, List.drop_of_length_le, ha, hb, hc, hd, he]
  · simp [List.getElem?_append, ha, hb, hc, hd, he]

theorem groups_append {digits : List Char} (h : digits.length = 32) :
    digits.take 8 ++ (digits.drop 8).take 4 ++ (digits.drop 12).take 4 ++
      (digits.drop 16).take 4 ++ (digits.drop 20).take 12 = digits := by
  have hlast : (digits.drop 20).take 12 = digits.drop 20 := List.take_of_length_le (by simp [h])
  have step (start size : Nat) : (digits.drop start).take size ++ digits.drop (start + size) =
      digits.drop start := by
    rw [← List.drop_drop, List.take_append_drop]
  simp only [List.append_assoc]
  rw [hlast, step 16 4, step 12 4, step 8 4, List.take_append_drop]

theorem ofGroups?_chars (id : Id) : ofGroups? id.chars = some id := by
  have hlength : (id.bytes.flatMap byteChars).length = 32 := by
    rw [length_flatMap_byteChars, id.length_eq]
  refine (ofGroups?_hyphenated ?_ ?_ ?_ ?_ ?_).trans ?_
  case refine_6 =>
    simp only [List.drop_zero]
    rw [groups_append hlength, ofDigits?_flatMap_byteChars]
  all_goals simp [hlength]

theorem isSpace_hexDigit {n : Nat} (h : n < 16) : Text.isSpace (Text.hexDigit n) = false := by
  have hall : ∀ m : Fin 16, Text.isSpace (Text.hexDigit m) = false := by decide
  exact hall ⟨n, h⟩

/-- What is so of hyphens and of digits is so of every character of an id. -/
theorem forall_mem_chars {P : Char → Prop} (hhyphen : P '-')
    (hdigit : ∀ n < 16, P (Text.hexDigit n)) (id : Id) : ∀ c ∈ id.chars, P c := by
  have hgroup : ∀ start size, ∀ c ∈ ((id.bytes.flatMap byteChars).drop start).take size, P c := by
    intro start size c hc
    obtain ⟨b, -, hc⟩ := List.mem_flatMap.mp (List.mem_of_mem_drop (List.mem_of_mem_take hc))
    have hb : b.toNat < 256 := b.toNat_lt
    simp only [byteChars, List.mem_cons, List.not_mem_nil, or_false] at hc
    rcases hc with rfl | rfl
    · exact hdigit _ (by omega)
    · exact hdigit _ (by omega)
  intro c hc
  simp only [chars, List.mem_append, List.mem_cons, or_assoc] at hc
  rcases hc with hc | rfl | hc | rfl | hc | rfl | hc | rfl | hc
  all_goals first | exact hhyphen | exact hgroup _ _ c hc

theorem isSpace_of_mem_chars {id : Id} {c : Char} (h : c ∈ id.chars) : Text.isSpace c = false :=
  id.forall_mem_chars (P := fun c => Text.isSpace c = false) (by decide)
    (fun _ => isSpace_hexDigit) c h

theorem isBlank_text (id : Id) : Text.isBlank id.text = false := by
  refine Text.isBlank_eq_false (c := '-') ?_ (by decide)
  rw [text, String.toList_ofList]
  simp [chars]

/-- An id is read back from its text. -/
theorem ofText?_text (id : Id) : ofText? id.text = some id := by
  rw [ofText?, text, String.toList_ofList, ofChars?]
  rw [if_neg (by rw [length_chars]; decide), if_pos (length_chars id), ofGroups?_chars]

theorem trim_text (id : Id) : Text.trim id.text = id.text := by
  rw [Text.trim, text, String.toList_ofList, Text.trimChars_of_forall]
  exact fun c hc => isSpace_of_mem_chars hc

theorem ofTrimmed?_text (id : Id) : ofTrimmed? id.text = some id := by
  rw [ofTrimmed?, trim_text, ofText?_text]

/-- Different ids have different texts. -/
theorem text_injective : Function.Injective text := by
  intro id other h
  have hread := id.ofTrimmed?_text
  rw [h, ofTrimmed?_text] at hread
  exact (Option.some.inj hread).symm

end Id

end RecordStore
