import RecordStore.Proofs.MarkOrder
import RecordStore.Proofs.Rules

/-!
# Composed text is a normal form

Putting together undoes nothing: what it leaves is taken apart and sorted into the same sequence
again. Main statement: text that is composed stays as it is when it is composed once more.
-/

namespace RecordStore.Text

/-! ### Putting together -/

/-- How marks are held back behind a starter while the rest is in canonical order: they are sorted
by class, and what comes next may stand behind the last of them, which is the first of the list. -/
structure Awaits (held rest : List Nat) : Prop where
  marks : ∀ m ∈ held, combiningClass m ≠ 0
  sorted : held.Pairwise fun later earlier => combiningClass earlier ≤ combiningClass later
  next : ∀ last ∈ held.head?, ∀ c ∈ rest.head?, Follows last c
  order : InOrder rest

namespace Awaits

variable {held rest : List Nat} {c : Nat}

theorem start (h : InOrder rest) : Awaits [] rest := ⟨nofun, .nil, nofun, h⟩

/-- What is not blocked is of a higher class than all that is held back. -/
theorem lower (h : Awaits held (c :: rest))
    (hfree : (held.head?.all fun last => combiningClass last < combiningClass c) = true) :
    ∀ m ∈ held, combiningClass m ≠ 0 ∧ combiningClass m < combiningClass c := by
  intro m hm
  cases held with
  | nil => cases hm
  | cons last earlier =>
    have hlast : combiningClass last < combiningClass c := by simpa using hfree
    rcases List.mem_cons.mp hm with rfl | hearlier
    · exact ⟨h.marks m hm, hlast⟩
    · have hle := (List.pairwise_cons.mp h.sorted).1 m hearlier
      exact ⟨h.marks m hm, Nat.lt_of_le_of_lt hle hlast⟩

theorem drop (h : Awaits held (c :: rest))
    (hfree : (held.head?.all fun last => combiningClass last < combiningClass c) = true) :
    Awaits held rest := by
  refine ⟨h.marks, h.sorted, fun last hlast d hd => ?_, h.order.tail⟩
  have hlower := (h.lower hfree last (List.mem_of_mem_head? hlast)).2
  have hfollows := (List.isChain_cons.mp h.order).1 d hd
  exact hfollows.imp_right (Nat.le_trans (Nat.le_of_lt hlower))

theorem keep (h : Awaits held (c :: rest)) (hc : combiningClass c ≠ 0) :
    Awaits (c :: held) rest := by
  refine ⟨List.forall_mem_cons.mpr ⟨hc, h.marks⟩, List.pairwise_cons.mpr ⟨fun m hm => ?_, h.sorted⟩,
    fun last hlast d hd => ?_, h.order.tail⟩
  · cases held with
    | nil => cases hm
    | cons last earlier =>
      have hlast : combiningClass last ≤ combiningClass c := (h.next last rfl c rfl).resolve_left hc
      rcases List.mem_cons.mp hm with rfl | hearlier
      · exact hlast
      · exact Nat.le_trans ((List.pairwise_cons.mp h.sorted).1 m hearlier) hlast
  · obtain rfl : c = last := Option.some.inj hlast
    exact (List.isChain_cons.mp h.order).1 d hd

end Awaits

/-- The next code point forms a composite with the starter, is the next starter, or is held. -/
theorem composeAfter_cases (starter : Nat) (held : List Nat) (c : Nat) (rest : List Nat) :
    (∃ composite, (held.head?.all fun last => combiningClass last < combiningClass c) = true ∧
      compose? starter c = some composite ∧
      composeAfter starter held (c :: rest) = composeAfter composite held rest) ∨
    (combiningClass c = 0 ∧ composeAfter starter held (c :: rest) =
      starter :: held.reverse ++ composeAfter c [] rest) ∨
    (combiningClass c ≠ 0 ∧ composeAfter starter held (c :: rest) =
      composeAfter starter (c :: held) rest) := by
  rw [composeAfter]
  split
  · rename_i composite hmade
    split at hmade
    · exact .inl ⟨composite, ‹_›, hmade, rfl⟩
    · cases hmade
  · split
    · exact .inr (.inl ⟨‹_›, rfl⟩)
    · exact .inr (.inr ⟨‹_›, rfl⟩)

theorem flatMap_decompose_eq {cs : List Nat} (h : ∀ c ∈ cs, decompose c = [c]) :
    cs.flatMap decompose = cs := by
  induction cs with
  | nil => rfl
  | cons c rest ih =>
    obtain ⟨hc, hrest⟩ := List.forall_mem_cons.mp h
    rw [List.flatMap_cons, hc, ih hrest, List.singleton_append]

/-- What is put together behind a starter comes apart into what there was. -/
theorem sortAlike_composeAfter {starter : Nat} {held rest : List Nat} (h : Awaits held rest)
    (hheld : ∀ m ∈ held, decompose m = [m]) (hrest : ∀ c ∈ rest, decompose c = [c]) :
    SortAlike ((composeAfter starter held rest).flatMap decompose)
      (decompose starter ++ (held.reverse ++ rest)) := by
  have hreverse : held.reverse.flatMap decompose = held.reverse :=
    flatMap_decompose_eq fun m hm => hheld m (List.mem_reverse.mp hm)
  induction rest generalizing starter held with
  | nil =>
    rw [composeAfter, List.flatMap_cons, hreverse, List.append_nil]
    exact .refl _
  | cons c rest ih =>
    obtain ⟨hc, hrest⟩ := List.forall_mem_cons.mp hrest
    rcases composeAfter_cases starter held c rest with ⟨composite, hfree, hmade, heq⟩ |
      ⟨hstarter, heq⟩ | ⟨hmark, heq⟩ <;> rw [heq]
    · -- the composite contains what has to move back behind the marks it has passed
      refine (ih (h.drop hfree) hheld hrest hreverse).trans ?_
      have hmove : SortAlike (c :: held.reverse) (held.reverse ++ [c]) :=
        sortAlike_cons fun m hm => h.lower hfree m (List.mem_reverse.mp hm)
      have hswap := ((SortAlike.refl (decompose starter)).append hmove).append (.refl rest)
      rw [decompose_of_compose? hmade]
      simpa using hswap
    · rw [List.cons_append, List.flatMap_cons, List.flatMap_append, hreverse]
      have hnext := @ih c [] (.start h.order.tail) nofun hrest rfl
      rw [hc] at hnext
      exact (SortAlike.refl _).append ((SortAlike.refl _).append hnext)
    · have hheld' : ∀ m ∈ c :: held, decompose m = [m] := List.forall_mem_cons.mpr ⟨hc, hheld⟩
      have hkept := @ih starter _ (h.keep hmark) hheld' hrest
        (flatMap_decompose_eq fun m hm => hheld' m (List.mem_reverse.mp hm))
      simpa using hkept

theorem sortAlike_composeAll {cs : List Nat} (horder : InOrder cs)
    (h : ∀ c ∈ cs, decompose c = [c]) : SortAlike ((composeAll cs).flatMap decompose) cs := by
  induction cs with
  | nil => exact .refl []
  | cons c rest ih =>
    obtain ⟨hc, hrest⟩ := List.forall_mem_cons.mp h
    rw [composeAll]
    split
    · have hall := @sortAlike_composeAfter c [] rest (.start horder.tail) nofun hrest
      rw [hc] at hall
      exact hall
    · rw [List.flatMap_cons, hc]
      exact (SortAlike.refl [c]).append (ih horder.tail hrest)

/-! ### Composing -/

/-- Composing on code points. -/
def composedCodes (cs : List Nat) : List Nat := composeAll (orderMarks (cs.flatMap decompose))

theorem composedChars_eq (cs : List Char) :
    composedChars cs = (composedCodes (cs.map Char.toNat)).map Char.ofNat := by
  rw [composedChars, composedCodes, List.flatMap_map]

/-- What is composed comes apart and is sorted into what it was composed of. -/
theorem orderMarks_composedCodes (cs : List Nat) :
    orderMarks ((composedCodes cs).flatMap decompose) = orderMarks (cs.flatMap decompose) := by
  have hplain : ∀ d ∈ orderMarks (cs.flatMap decompose), decompose d = [d] := by
    intro d hd
    obtain ⟨c, -, hd⟩ := List.mem_flatMap.mp ((orderMarks_perm _).mem_iff.mp hd)
    exact decompose_of_mem_decompose hd
  have horder := inOrder_orderMarks (cs.flatMap decompose)
  exact (sortAlike_composeAll horder hplain).orderMarks_eq.trans (orderMarks_of_inOrder horder)

theorem composedCodes_composedCodes (cs : List Nat) :
    composedCodes (composedCodes cs) = composedCodes cs :=
  congrArg composeAll (orderMarks_composedCodes cs)

/-! ### What composing keeps -/

theorem Kept.composeAfter {ok : Nat → Bool} (h : Kept ok) {starter : Nat} {held rest : List Nat}
    (hstarter : ok starter = true) (hheld : ∀ m ∈ held, ok m = true)
    (hrest : ∀ c ∈ rest, ok c = true) : ∀ d ∈ composeAfter starter held rest, ok d = true := by
  have hreverse : ∀ m ∈ held.reverse, ok m = true := fun m hm => hheld m (List.mem_reverse.mp hm)
  induction rest generalizing starter held with
  | nil => exact List.forall_mem_cons.mpr ⟨hstarter, hreverse⟩
  | cons c rest ih =>
    obtain ⟨hc, hrest⟩ := List.forall_mem_cons.mp hrest
    rcases composeAfter_cases starter held c rest with ⟨composite, -, hmade, heq⟩ |
      ⟨-, heq⟩ | ⟨-, heq⟩ <;> rw [heq]
    · exact ih (h.compose? hstarter hmade) hheld hrest hreverse
    · exact List.forall_mem_append.mpr
        ⟨List.forall_mem_cons.mpr ⟨hstarter, hreverse⟩, ih hc nofun hrest nofun⟩
    · have hheld' : ∀ m ∈ c :: held, ok m = true := List.forall_mem_cons.mpr ⟨hc, hheld⟩
      exact ih hstarter hheld' hrest fun m hm => hheld' m (List.mem_reverse.mp hm)

theorem Kept.composeAll {ok : Nat → Bool} (h : Kept ok) {cs : List Nat}
    (hcs : ∀ c ∈ cs, ok c = true) : ∀ d ∈ composeAll cs, ok d = true := by
  induction cs with
  | nil => nofun
  | cons c rest ih =>
    obtain ⟨hc, hrest⟩ := List.forall_mem_cons.mp hcs
    rw [Text.composeAll]
    split
    · exact h.composeAfter hc nofun hrest
    · exact List.forall_mem_cons.mpr ⟨hc, ih hrest⟩

theorem Kept.composedCodes {ok : Nat → Bool} (h : Kept ok) {cs : List Nat}
    (hcs : ∀ c ∈ cs, ok c = true) : ∀ d ∈ composedCodes cs, ok d = true := by
  refine h.composeAll fun d hd => ?_
  obtain ⟨c, hc, hd⟩ := List.mem_flatMap.mp ((orderMarks_perm _).mem_iff.mp hd)
  exact h.decompose (hcs c hc) d hd

/-! ### Ends -/

def IsComposite (c : Nat) : Prop := ∃ a b, compose? a b = some c

theorem head?_composeAfter {starter d : Nat} {held rest : List Nat}
    (hd : d ∈ (composeAfter starter held rest).head?) : d = starter ∨ IsComposite d := by
  induction rest generalizing starter held with
  | nil => exact .inl (Option.some.inj hd).symm
  | cons c rest ih =>
    rcases composeAfter_cases starter held c rest with ⟨composite, -, hmade, heq⟩ |
      ⟨-, heq⟩ | ⟨-, heq⟩ <;> rw [heq] at hd
    · rcases ih hd with rfl | hmade
      · exact .inr ⟨starter, c, hmade⟩
      · exact .inr hmade
    · exact .inl (Option.some.inj hd).symm
    · exact ih hd

theorem composeAfter_ne_nil (starter : Nat) (held rest : List Nat) :
    composeAfter starter held rest ≠ [] := by
  induction rest generalizing starter held with
  | nil => exact List.cons_ne_nil _ _
  | cons c rest ih =>
    rcases composeAfter_cases starter held c rest with ⟨composite, -, -, heq⟩ |
      ⟨-, heq⟩ | ⟨-, heq⟩ <;> rw [heq]
    · exact ih composite held
    · exact List.cons_ne_nil _ _
    · exact ih starter (c :: held)

theorem getLast?_composeAfter {starter d : Nat} {held rest : List Nat}
    (hheld : ∀ m ∈ held, combiningClass m ≠ 0)
    (hd : d ∈ (composeAfter starter held rest).getLast?) :
    d ∈ (starter :: (held.reverse ++ rest)).getLast? ∨ combiningClass d ≠ 0 ∨ IsComposite d := by
  induction rest generalizing starter held with
  | nil =>
    rw [List.append_nil]
    exact .inl hd
  | cons c rest ih =>
    have hlast : (starter :: (held.reverse ++ c :: rest)).getLast? = (c :: rest).getLast? := by
      rw [← List.cons_append, List.getLast?_append_of_ne_nil _ (List.cons_ne_nil c rest)]
    rw [hlast]
    rcases composeAfter_cases starter held c rest with ⟨composite, -, hmade, heq⟩ |
      ⟨-, heq⟩ | ⟨hmark, heq⟩ <;> rw [heq] at hd
    · rcases ih hheld hd with hd | hd
      · cases rest with
        | nil =>
          rw [List.append_nil] at hd
          rcases List.mem_cons.mp (List.mem_of_getLast? hd) with rfl | hd
          · exact .inr (.inr ⟨starter, c, hmade⟩)
          · exact .inr (.inl (hheld d (List.mem_reverse.mp hd)))
        | cons e more =>
          rw [← List.cons_append, List.getLast?_append_of_ne_nil _ (List.cons_ne_nil e more)] at hd
          exact .inl (by rwa [List.getLast?_cons_cons])
      · exact .inr hd
    · rw [List.getLast?_append_of_ne_nil _ (composeAfter_ne_nil c [] rest)] at hd
      exact ih (List.forall_mem_nil _) hd
    · have hkept := ih (List.forall_mem_cons.mpr ⟨hmark, hheld⟩) hd
      rwa [List.reverse_cons, List.append_assoc, List.singleton_append, hlast] at hkept

theorem head?_composeAll {cs : List Nat} {d : Nat} (hd : d ∈ (composeAll cs).head?) :
    d ∈ cs.head? ∨ IsComposite d := by
  cases cs with
  | nil => cases hd
  | cons c rest =>
    rw [composeAll] at hd
    split at hd
    · exact (head?_composeAfter hd).imp_left (congrArg some ·.symm)
    · exact .inl hd

theorem getLast?_composeAll {cs : List Nat} {d : Nat} (hd : d ∈ (composeAll cs).getLast?) :
    d ∈ cs.getLast? ∨ combiningClass d ≠ 0 ∨ IsComposite d := by
  induction cs with
  | nil => cases hd
  | cons c rest ih =>
    rw [composeAll] at hd
    split at hd
    · exact getLast?_composeAfter (List.forall_mem_nil _) hd
    · rename_i hmark
      cases hall : composeAll rest with
      | nil =>
        rw [hall] at hd
        obtain rfl : c = d := Option.some.inj hd
        exact .inr (.inl hmark)
      | cons e more =>
        rw [hall, List.getLast?_cons_cons, ← hall] at hd
        refine (ih hd).imp_left fun hd => ?_
        cases rest with
        | nil => cases hd
        | cons e more => rwa [List.getLast?_cons_cons]

theorem decomposeFrom_ne_nil (n c : Nat) : decomposeFrom n c ≠ [] := by
  induction n generalizing c with
  | zero => exact List.cons_ne_nil c []
  | succ n ih =>
    rw [decomposeFrom]
    split
    · exact List.append_ne_nil_of_left_ne_nil (ih _) _
    · exact List.cons_ne_nil c []

theorem decompose_ne_nil (c : Nat) : decompose c ≠ [] := by
  cases hc : isSyllable c with
  | true =>
    obtain ⟨index, hindex, rfl⟩ := exists_index hc
    rw [decompose_of_syllable hindex]
    exact List.cons_ne_nil _ _
  | false =>
    rw [decompose_of_table hc]
    exact decomposeFrom_ne_nil 4 c

theorem composedCodes_ne_nil {cs : List Nat} (h : cs ≠ []) : composedCodes cs ≠ [] := by
  intro hnil
  have hparts := orderMarks_composedCodes cs
  rw [hnil, List.flatMap_nil] at hparts
  have hperm := orderMarks_perm (cs.flatMap decompose)
  rw [← hparts] at hperm
  obtain ⟨c, hc⟩ := List.exists_mem_of_ne_nil cs h
  exact decompose_ne_nil c (List.flatMap_eq_nil_iff.mp hperm.nil_eq.symm c hc)

/-- What composed text begins with is the first part of its first character, or a mark, or a
composite. -/
theorem head?_composedCodes {cs : List Nat} {d : Nat} (hd : d ∈ (composedCodes cs).head?) :
    (∃ c ∈ cs.head?, d ∈ decompose c) ∨ combiningClass d ≠ 0 ∨ IsComposite d := by
  rcases head?_composeAll hd with hd | hd
  · rcases head?_orderMarks hd with hd | hd
    · cases cs with
      | nil => cases hd
      | cons c rest =>
        refine .inl ⟨c, rfl, ?_⟩
        rw [List.flatMap_cons, List.head?_append_of_ne_nil _ (decompose_ne_nil c)] at hd
        exact List.mem_of_mem_head? hd
    · exact .inr (.inl hd)
  · exact .inr (.inr hd)

/-- What composed text ends with is the last part of its last character, or a mark, or a
composite. -/
theorem getLast?_composedCodes {cs : List Nat} {d : Nat}
    (hd : d ∈ (composedCodes cs).getLast?) :
    (∃ c ∈ cs.getLast?, d ∈ decompose c) ∨ combiningClass d ≠ 0 ∨ IsComposite d := by
  rcases getLast?_composeAll hd with hd | hd
  · rcases getLast?_orderMarks hd with hd | hd
    · rcases List.eq_nil_or_concat cs with rfl | ⟨front, c, rfl⟩
      · cases hd
      · refine .inl ⟨c, by simp, ?_⟩
        rw [List.concat_eq_append, List.flatMap_append, List.flatMap_singleton,
          List.getLast?_append_of_ne_nil _ (decompose_ne_nil c)] at hd
        exact List.mem_of_getLast? hd
    · exact .inr (.inl hd)
  · exact .inr hd

end RecordStore.Text
