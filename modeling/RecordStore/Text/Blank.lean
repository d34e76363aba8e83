/-!
# Blank text

White space is the property White_Space. The zero-width space and the byte order mark do not have
it, so text made of them is not blank.
-/

namespace RecordStore.Text

def isSpace (c : Char) : Bool :=
  let n := c.toNat
  (9 ≤ n && n ≤ 13) || n == 0x20 || n == 0x85 || n == 0xA0 || n == 0x1680 ||
    (0x2000 ≤ n && n ≤ 0x200A) || n == 0x2028 || n == 0x2029 || n == 0x202F || n == 0x205F ||
    n == 0x3000

def trimChars (cs : List Char) : List Char :=
  ((cs.dropWhile isSpace).reverse.dropWhile isSpace).reverse

def trim (s : String) : String := String.ofList (trimChars s.toList)

def isBlank (s : String) : Bool := s.toList.all isSpace

/-! ### Trimmed text -/

theorem dropWhile_isSpace {cs : List Char} (h : ∀ c ∈ cs.head?, isSpace c = false) :
    cs.dropWhile isSpace = cs := by
  cases cs with
  | nil => rfl
  | cons c rest => rw [List.dropWhile_cons_of_neg (by simp [h c rfl])]

theorem trimChars_eq_self {cs : List Char} (head : ∀ c ∈ cs.head?, isSpace c = false)
    (last : ∀ c ∈ cs.getLast?, isSpace c = false) : trimChars cs = cs := by
  rw [← List.head?_reverse] at last
  rw [trimChars, dropWhile_isSpace head, dropWhile_isSpace last, List.reverse_reverse]

theorem trimChars_of_forall {cs : List Char} (h : ∀ c ∈ cs, isSpace c = false) :
    trimChars cs = cs :=
  trimChars_eq_self (fun c hc => h c (List.mem_of_mem_head? hc))
    fun c hc => h c (List.mem_of_getLast? hc)

theorem isSpace_of_head?_dropWhile {cs : List Char} {c : Char}
    (h : c ∈ (cs.dropWhile isSpace).head?) : isSpace c = false := by
  have hnot := List.head?_dropWhile_not isSpace cs
  rw [Option.mem_def.mp h] at hnot
  exact hnot

theorem isSpace_of_getLast?_trimChars {cs : List Char} {c : Char}
    (h : c ∈ (trimChars cs).getLast?) : isSpace c = false := by
  rw [trimChars, List.getLast?_reverse] at h
  exact isSpace_of_head?_dropWhile h

theorem isSpace_of_head?_trimChars {cs : List Char} {c : Char}
    (h : c ∈ (trimChars cs).head?) : isSpace c = false := by
  have hprefix : trimChars cs <+: cs.dropWhile isSpace := by
    rw [← List.reverse_suffix, trimChars, List.reverse_reverse]
    exact List.dropWhile_suffix isSpace
  obtain ⟨rest, hrest⟩ := hprefix
  have hhead : c ∈ (cs.dropWhile isSpace).head? := by
    rw [← hrest, List.head?_append, Option.mem_def.mp h]
    rfl
  exact isSpace_of_head?_dropWhile hhead

@[simp] theorem trimChars_trimChars (cs : List Char) : trimChars (trimChars cs) = trimChars cs :=
  trimChars_eq_self (fun _ => isSpace_of_head?_trimChars) fun _ => isSpace_of_getLast?_trimChars

@[simp] theorem toList_trim (s : String) : (trim s).toList = trimChars s.toList :=
  String.toList_ofList

@[simp] theorem trim_trim (s : String) : trim (trim s) = trim s := by
  rw [trim, toList_trim, trimChars_trimChars, trim]

/-- Text of which some character is no white space is not blank. -/
theorem isBlank_eq_false {s : String} {c : Char} (hc : c ∈ s.toList) (h : isSpace c = false) :
    isBlank s = false := by
  rw [isBlank, List.all_eq_false]
  exact ⟨c, hc, by simp [h]⟩

/-- What is left of blank text is nothing. -/
theorem trimChars_of_isBlank {s : String} (h : isBlank s = true) : trimChars s.toList = [] := by
  have hfront : s.toList.dropWhile isSpace = [] := by
    cases hcs : s.toList.dropWhile isSpace with
    | nil => rfl
    | cons c rest =>
      have hmem : c ∈ s.toList := (List.dropWhile_suffix isSpace).subset (by simp [hcs])
      have hsolid : isSpace c = false := @isSpace_of_head?_dropWhile s.toList c (by simp [hcs])
      cases hsolid.symm.trans (List.all_eq_true.mp h c hmem)
  rw [trimChars, hfront]
  rfl

/-- Trimmed text of which something is left is not blank. -/
theorem isBlank_trim_eq_false {s : String} (h : trim s ≠ "") : isBlank (trim s) = false := by
  rw [isBlank, toList_trim, List.all_eq_false]
  cases hcs : trimChars s.toList with
  | nil => exact absurd (by rw [trim, hcs, String.ofList_nil]) h
  | cons c rest =>
    have hhead : c ∈ (trimChars s.toList).head? := by rw [hcs]; rfl
    exact ⟨c, .head _, by simp [isSpace_of_head?_trimChars hhead]⟩

end RecordStore.Text
