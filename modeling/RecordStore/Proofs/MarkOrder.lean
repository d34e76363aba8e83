import Mathlib.Data.List.Chain
import RecordStore.Text.Composed

/-!
# Canonical order

Marks behind a starter are sorted by their class, and marks of one class keep their order. Main
statements: what is in canonical order stays as it is, sorting leads to canonical order, and marks
of different classes may be exchanged before it.
-/

namespace RecordStore.Text

/-! ### Order -/

/-- The second code point may stand right behind the first: it is a starter, or its class is not
lower. -/
def Follows (a b : Nat) : Prop := combiningClass b = 0 ∨ combiningClass a ≤ combiningClass b

def InOrder (cs : List Nat) : Prop := cs.IsChain Follows

/-- Code points put one by one behind a sequence that is given last first. -/
def insertMarks (done cs : List Nat) : List Nat := cs.foldl (fun done c => insertMark c done) done

theorem insertMarks_append (done xs ys : List Nat) :
    insertMarks done (xs ++ ys) = insertMarks (insertMarks done xs) ys :=
  List.foldl_append

theorem orderMarks_eq (cs : List Nat) : orderMarks cs = (insertMarks [] cs).reverse := rfl

theorem insertMark_perm (c : Nat) (done : List Nat) : (insertMark c done).Perm (c :: done) := by
  induction done with
  | nil => exact .refl _
  | cons last earlier ih =>
    rw [insertMark]
    split
    · exact (ih.cons last).trans (.swap c last earlier)
    · exact .refl _

theorem insertMarks_perm (done cs : List Nat) : (insertMarks done cs).Perm (cs ++ done) := by
  induction cs generalizing done with
  | nil => exact .refl _
  | cons c rest ih =>
    exact (ih (insertMark c done)).trans
      (((insertMark_perm c done).append_left rest).trans List.perm_middle)

theorem orderMarks_perm (cs : List Nat) : (orderMarks cs).Perm cs := by
  have h := insertMarks_perm [] cs
  rw [List.append_nil] at h
  exact (List.reverse_perm _).trans h

/-! ### What is in order -/

theorem insertMark_of_follows {c last : Nat} (h : Follows last c) (earlier : List Nat) :
    insertMark c (last :: earlier) = c :: last :: earlier := by
  rw [insertMark, if_neg]
  rintro ⟨hmark, hlower⟩
  exact h.elim hmark (Nat.not_le_of_lt hlower)

theorem insertMarks_of_inOrder {done cs : List Nat} (h : InOrder (done.reverse ++ cs)) :
    insertMarks done cs = cs.reverse ++ done := by
  induction cs generalizing done with
  | nil => rfl
  | cons c rest ih =>
    have hinsert : insertMark c done = c :: done := by
      cases done with
      | nil => rfl
      | cons last earlier =>
        refine insertMark_of_follows ?_ earlier
        rw [List.reverse_cons, List.append_assoc] at h
        exact (List.isChain_append.mp h).2.1.rel
    have hnext : InOrder ((c :: done).reverse ++ rest) := by simpa using h
    change insertMarks (insertMark c done) rest = _
    rw [hinsert, ih hnext, List.reverse_cons, List.append_assoc, List.singleton_append]

/-- What is in canonical order stays as it is. -/
theorem orderMarks_of_inOrder {cs : List Nat} (h : InOrder cs) : orderMarks cs = cs := by
  have hdone : insertMarks [] cs = cs.reverse ++ [] := insertMarks_of_inOrder h
  rw [orderMarks_eq, hdone, List.append_nil, List.reverse_reverse]

/-- The last code point is the new one, or a mark before which that has been put. -/
theorem head?_insertMark {c d : Nat} {done : List Nat} (h : d ∈ (insertMark c done).head?) :
    d = c ∨ d ∈ done.head? ∧ combiningClass d ≠ 0 := by
  cases done with
  | nil => exact .inl (Option.some.inj h).symm
  | cons last earlier =>
    rw [insertMark] at h
    split at h
    · rename_i hlower
      obtain rfl : last = d := Option.some.inj h
      exact .inr ⟨rfl, by omega⟩
    · exact .inl (Option.some.inj h).symm

theorem inOrder_insertMark {done : List Nat} (h : InOrder done.reverse) (c : Nat) :
    InOrder (insertMark c done).reverse := by
  rw [InOrder, List.isChain_reverse] at h ⊢
  induction done with
  | nil => exact .singleton c
  | cons last earlier ih =>
    obtain ⟨hlast, hearlier⟩ := List.isChain_cons.mp h
    rw [insertMark]
    split
    · rename_i hlower
      refine List.isChain_cons.mpr ⟨fun d hd => ?_, ih hearlier⟩
      rcases head?_insertMark hd with rfl | ⟨hd, -⟩
      · exact .inr (Nat.le_of_lt hlower.2)
      · exact hlast d hd
    · rename_i hnot
      have hfollows : combiningClass c = 0 ∨ combiningClass last ≤ combiningClass c := by omega
      exact List.isChain_cons_cons.mpr ⟨hfollows, h⟩

/-- Sorting leads to canonical order. -/
theorem inOrder_orderMarks (cs : List Nat) : InOrder (orderMarks cs) := by
  suffices hfold : ∀ done : List Nat, InOrder done.reverse → InOrder (insertMarks done cs).reverse
    from hfold [] .nil
  induction cs with
  | nil => exact fun _ h => h
  | cons c rest ih => exact fun done h => ih _ (inOrder_insertMark h c)

/-! ### Exchanges -/

/-- Two sequences come out alike, whatever they are put behind. -/
def SortAlike (xs ys : List Nat) : Prop := ∀ done, insertMarks done xs = insertMarks done ys

namespace SortAlike

variable {xs ys zs ws : List Nat}

theorem refl (xs : List Nat) : SortAlike xs xs := fun _ => rfl

theorem trans (h : SortAlike xs ys) (h' : SortAlike ys zs) : SortAlike xs zs :=
  fun done => (h done).trans (h' done)

theorem append (h : SortAlike xs ys) (h' : SortAlike zs ws) :
    SortAlike (xs ++ zs) (ys ++ ws) := by
  intro done
  rw [insertMarks_append, insertMarks_append, h done, h' _]

theorem orderMarks_eq (h : SortAlike xs ys) : orderMarks xs = orderMarks ys :=
  congrArg List.reverse (h [])

end SortAlike

/-- Marks of different classes may be put in either way round. -/
theorem insertMark_comm {a b : Nat} (ha : combiningClass a ≠ 0) (hb : combiningClass b ≠ 0)
    (hab : combiningClass a < combiningClass b) (done : List Nat) :
    insertMark a (insertMark b done) = insertMark b (insertMark a done) := by
  induction done with
  | nil => simp [insertMark, ha, hab, Nat.not_lt_of_lt hab]
  | cons last earlier ih =>
    by_cases hbl : combiningClass b < combiningClass last
    · have hal := Nat.lt_trans hab hbl
      simp [insertMark, ha, hb, hal, hbl, ih]
    · by_cases hal : combiningClass a < combiningClass last
      · simp [insertMark, ha, hal, hbl, hab]
      · simp [insertMark, ha, hal, hbl, hab, Nat.not_lt_of_lt hab]

/-- A mark may be taken from behind marks of lower classes to before them. -/
theorem sortAlike_cons {c : Nat} {ms : List Nat}
    (h : ∀ m ∈ ms, combiningClass m ≠ 0 ∧ combiningClass m < combiningClass c) :
    SortAlike (c :: ms) (ms ++ [c]) := by
  induction ms with
  | nil => exact .refl [c]
  | cons m rest ih =>
    obtain ⟨⟨hmark, hlower⟩, hrest⟩ := List.forall_mem_cons.mp h
    intro done
    have hc : combiningClass c ≠ 0 := by omega
    calc insertMarks done (c :: m :: rest)
        = insertMarks (insertMark m (insertMark c done)) rest := rfl
      _ = insertMarks (insertMark c (insertMark m done)) rest := by
          rw [insertMark_comm hmark hc hlower]
      _ = insertMarks (insertMark m done) (rest ++ [c]) := ih hrest _

/-! ### Ends -/

theorem insertMark_ne_nil (c : Nat) (done : List Nat) : insertMark c done ≠ [] := by
  intro hnil
  have hlength := (insertMark_perm c done).length_eq
  simp [hnil] at hlength

/-- What comes to stand first stood first, or is a mark. -/
theorem getLast?_insertMark {c d : Nat} {done : List Nat} (h : d ∈ (insertMark c done).getLast?) :
    d ∈ (c :: done).getLast? ∨ combiningClass d ≠ 0 := by
  induction done with
  | nil => exact .inl h
  | cons last earlier ih =>
    rw [insertMark] at h
    split at h
    · rename_i hlower
      rw [List.getLast?_cons_of_ne_nil (insertMark_ne_nil c earlier)] at h
      cases earlier with
      | nil =>
        obtain rfl : c = d := Option.some.inj h
        exact .inr hlower.1
      | cons e more =>
        refine (ih h).imp_left fun h => ?_
        rwa [List.getLast?_cons_cons] at h ⊢
    · exact .inl h

theorem getLast?_insertMarks {d : Nat} {done cs : List Nat}
    (h : d ∈ (insertMarks done cs).getLast?) :
    d ∈ (cs.reverse ++ done).getLast? ∨ combiningClass d ≠ 0 := by
  induction cs generalizing done with
  | nil => exact .inl h
  | cons c rest ih =>
    rcases ih h with h | h
    · rw [List.getLast?_append_of_ne_nil _ (insertMark_ne_nil c done)] at h
      refine (getLast?_insertMark h).imp_left fun h => ?_
      rwa [List.reverse_cons, List.append_assoc, List.singleton_append,
        List.getLast?_append_of_ne_nil _ (List.cons_ne_nil c done)]
    · exact .inr h

/-- The first code point stays the first, or a mark does. -/
theorem head?_orderMarks {cs : List Nat} {d : Nat} (h : d ∈ (orderMarks cs).head?) :
    d ∈ cs.head? ∨ combiningClass d ≠ 0 := by
  rw [orderMarks_eq, List.head?_reverse] at h
  have hends := getLast?_insertMarks h
  rwa [List.append_nil, List.getLast?_reverse] at hends

/-- The last code point stays the last, or a mark does. -/
theorem getLast?_orderMarks {cs : List Nat} {d : Nat} (h : d ∈ (orderMarks cs).getLast?) :
    d ∈ cs.getLast? ∨ combiningClass d ≠ 0 := by
  rw [orderMarks_eq, List.getLast?_reverse] at h
  rcases List.eq_nil_or_concat cs with rfl | ⟨front, c, rfl⟩
  · cases h
  · rw [List.concat_eq_append] at h ⊢
    rw [insertMarks_append] at h
    rcases head?_insertMark h with rfl | ⟨-, hmark⟩
    · exact .inl (by simp)
    · exact .inr hmark

end RecordStore.Text
