import RecordStore.Proofs.Normalization

/-!
# Parts of composed text

Composed text is what a sequence in canonical order is put together into, and so is the text
without its first or its last character. Main statement: what stands in a row in composed text is
composed itself.
-/

namespace RecordStore.Text

/-! ### What is put together -/

/-- A sequence that is put together from another one, which is in canonical order and cannot be
taken apart. -/
def Assembled (cs : List Nat) : Prop :=
  ∃ parts, InOrder parts ∧ (∀ d ∈ parts, decompose d = [d]) ∧ composeAll parts = cs

theorem assembled_iff {cs : List Nat} : Assembled cs ↔ composedCodes cs = cs := by
  constructor
  · rintro ⟨parts, horder, hplain, rfl⟩
    have hparts := (sortAlike_composeAll horder hplain).orderMarks_eq
    rw [composedCodes, hparts, orderMarks_of_inOrder horder]
  · intro h
    refine ⟨orderMarks (cs.flatMap decompose), inOrder_orderMarks _, fun d hd => ?_, h⟩
    obtain ⟨c, -, hd⟩ := List.mem_flatMap.mp ((orderMarks_perm _).mem_iff.mp hd)
    exact decompose_of_mem_decompose hd

theorem composeAll_marks {marks : List Nat} (h : ∀ m ∈ marks, combiningClass m ≠ 0)
    (rest : List Nat) : composeAll (marks ++ rest) = marks ++ composeAll rest := by
  induction marks with
  | nil => rfl
  | cons m marks ih =>
    obtain ⟨hm, hmarks⟩ := List.forall_mem_cons.mp h
    rw [List.cons_append, composeAll, if_neg hm, ih hmarks, List.cons_append]

/-- Held marks and what is still to come are in canonical order. -/
theorem Awaits.inOrder {held rest : List Nat} (h : Awaits held rest) :
    InOrder (held.reverse ++ rest) := by
  refine List.isChain_append.mpr ⟨?_, h.order, fun last hlast c hc => h.next last ?_ c hc⟩
  · rw [List.isChain_reverse]
    exact (h.sorted.imp fun hle => .inr hle).isChain
  · rwa [List.getLast?_reverse] at hlast

theorem composeAll_awaited {held rest : List Nat} (h : Awaits held rest) :
    composeAll (held.reverse ++ rest) = held.reverse ++ composeAll rest :=
  composeAll_marks (fun m hm => h.marks m (List.mem_reverse.mp hm)) rest

theorem InOrder.of_cons {c : Nat} {rest : List Nat} (h : InOrder (c :: rest)) : InOrder rest :=
  (List.isChain_cons.mp h).2

/-! ### One step -/

theorem composeAfter_of_free {starter c composite : Nat} {held : List Nat}
    (hfree : (held.head?.all fun last => combiningClass last < combiningClass c) = true)
    (hmade : compose? starter c = some composite) (rest : List Nat) :
    composeAfter starter held (c :: rest) = composeAfter composite held rest := by
  rw [composeAfter, if_pos hfree, hmade]

/-- What becomes of the next code point does not depend on what follows it. -/
theorem composeAfter_step (starter : Nat) (held : List Nat) (c : Nat) :
    (∃ composite, (held.head?.all fun last => combiningClass last < combiningClass c) = true ∧
      compose? starter c = some composite) ∨
    (combiningClass c = 0 ∧ ∀ rest, composeAfter starter held (c :: rest) =
      starter :: (held.reverse ++ composeAfter c [] rest)) ∨
    (combiningClass c ≠ 0 ∧ ∀ rest, composeAfter starter held (c :: rest) =
      composeAfter starter (c :: held) rest) := by
  cases hmade : (if held.head?.all fun last => combiningClass last < combiningClass c then
      compose? starter c else none) with
  | some composite =>
    split at hmade
    · exact .inl ⟨composite, ‹_›, hmade⟩
    · cases hmade
  | none =>
    refine .inr ?_
    by_cases hc : combiningClass c = 0
    · refine .inl ⟨hc, fun rest => ?_⟩
      rw [composeAfter, hmade, if_pos hc, List.cons_append]
    · refine .inr ⟨hc, fun rest => ?_⟩
      rw [composeAfter, hmade, if_neg hc]

/-! ### Without the first character -/

/-- Behind its first character, what is put together after a starter is put together as well. -/
theorem composeAfter_eq_cons (starter : Nat) {held rest : List Nat} (h : Awaits held rest) :
    ∃ c parts, composeAfter starter held rest = c :: composeAll parts ∧ InOrder parts ∧
      ∀ d ∈ parts, d ∈ held ∨ d ∈ rest := by
  induction rest generalizing starter held with
  | nil =>
    refine ⟨starter, held.reverse ++ [], ?_, h.inOrder, fun d hd => by simpa using hd⟩
    rw [composeAll_awaited h, composeAll, List.append_nil, composeAfter]
  | cons c rest ih =>
    rcases composeAfter_step starter held c with ⟨composite, hfree, hmade⟩ | ⟨hstarter, hstep⟩ |
      ⟨hmark, hstep⟩
    · rw [composeAfter_of_free hfree hmade]
      obtain ⟨first, parts, heq, horder, hmem⟩ := ih composite (h.drop hfree)
      exact ⟨first, parts, heq, horder, fun d hd => (hmem d hd).imp_right (.tail c)⟩
    · refine ⟨starter, held.reverse ++ c :: rest, ?_, h.inOrder, fun d hd => by simpa using hd⟩
      rw [composeAll_awaited h, composeAll, if_pos hstarter, hstep]
    · rw [hstep]
      obtain ⟨first, parts, heq, horder, hmem⟩ := ih starter (h.keep hmark)
      refine ⟨first, parts, heq, horder, fun d hd => ?_⟩
      rcases hmem d hd with hheld | hrest
      · rcases List.mem_cons.mp hheld with rfl | hheld
        · exact .inr (.head rest)
        · exact .inl hheld
      · exact .inr (.tail c hrest)

theorem Assembled.tail {cs : List Nat} (h : Assembled cs) : Assembled cs.tail := by
  obtain ⟨parts, horder, hplain, rfl⟩ := h
  cases parts with
  | nil => exact ⟨[], horder, hplain, rfl⟩
  | cons d rest =>
    obtain ⟨hd, hrest⟩ := List.forall_mem_cons.mp hplain
    rw [composeAll]
    split
    · obtain ⟨c, parts, heq, hparts, hmem⟩ :=
        composeAfter_eq_cons d (.start horder.of_cons)
      rw [heq]
      exact ⟨parts, hparts, fun e he => hrest e ((hmem e he).resolve_left List.not_mem_nil), rfl⟩
    · exact ⟨rest, horder.of_cons, hrest, rfl⟩

/-! ### Without the last character -/

/-- A shorter sequence in canonical order that may stand wherever the longer one may. -/
structure Shortens (shorter longer : List Nat) : Prop where
  order : InOrder shorter
  next : ∀ z, (∀ c ∈ longer.head?, Follows z c) → ∀ c ∈ shorter.head?, Follows z c
  subset : shorter ⊆ longer

theorem shortens_nil (longer : List Nat) : Shortens [] longer where
  order := .nil
  next := by simp
  subset := List.nil_subset longer

theorem Shortens.cons {shorter longer : List Nat} (h : Shortens shorter longer) {c : Nat}
    (horder : InOrder (c :: longer)) : Shortens (c :: shorter) (c :: longer) where
  order := List.isChain_cons.mpr ⟨h.next c (List.isChain_cons.mp horder).1, h.order⟩
  next _ hz := hz
  subset := List.cons_subset_cons c h.subset

/-- A mark may be left out, since its class lies between those of its neighbours. -/
theorem shortens_of_mark {c : Nat} {rest : List Nat} (hc : combiningClass c ≠ 0)
    (horder : InOrder (c :: rest)) : Shortens rest (c :: rest) where
  order := horder.of_cons
  next z hz d hd := by
    have hle : combiningClass z ≤ combiningClass c := (hz c rfl).resolve_left hc
    exact ((List.isChain_cons.mp horder).1 d hd).imp_right (Nat.le_trans hle)
  subset := List.subset_cons_self c rest

/-- Without its last character, what is put together after a starter is nothing, or is put together
without the mark that was held last, or from a shorter sequence. -/
theorem dropLast_composeAfter (starter : Nat) {held rest : List Nat} (h : Awaits held rest) :
    (held = [] ∧ ∃ c, composeAfter starter held rest = [c]) ∨
    (∃ last earlier, held = last :: earlier ∧
      (composeAfter starter held rest).dropLast = composeAfter starter earlier rest) ∨
    ∃ shorter, Shortens shorter rest ∧
      (composeAfter starter held rest).dropLast = composeAfter starter held shorter := by
  induction rest generalizing starter held with
  | nil =>
    cases held with
    | nil => exact .inl ⟨rfl, starter, rfl⟩
    | cons last earlier =>
      refine .inr (.inl ⟨last, earlier, rfl, ?_⟩)
      rw [composeAfter, composeAfter, List.reverse_cons, ← List.cons_append, List.dropLast_concat]
  | cons c rest ih =>
    rcases composeAfter_step starter held c with ⟨composite, hfree, hmade⟩ | ⟨hstarter, hstep⟩ |
      ⟨hmark, hstep⟩
    · rw [composeAfter_of_free hfree hmade]
      rcases ih composite (h.drop hfree) with hone | ⟨last, earlier, rfl, heq⟩ |
        ⟨shorter, hshorter, heq⟩
      · exact .inl hone
      · -- what passes the mark that is held last passes those before it
        have hfree' : (earlier.head?.all
            fun last => combiningClass last < combiningClass c) = true := by
          simp only [Option.all_eq_true, decide_eq_true_eq]
          exact fun m hm => (h.lower hfree m (.tail last (List.mem_of_mem_head? hm))).2
        exact .inr (.inl ⟨last, earlier, rfl,
          heq.trans (composeAfter_of_free hfree' hmade rest).symm⟩)
      · exact .inr (.inr ⟨c :: shorter, hshorter.cons h.order,
          heq.trans (composeAfter_of_free hfree hmade shorter).symm⟩)
    · rw [hstep, ← List.cons_append, List.dropLast_append_of_ne_nil (composeAfter_ne_nil c [] rest)]
      refine .inr (.inr ?_)
      rcases ih c (.start h.order.of_cons) with ⟨-, d, heq⟩ |
        ⟨_, _, hheld, -⟩ | ⟨shorter, hshorter, heq⟩
      · refine ⟨[], shortens_nil _, ?_⟩
        rw [heq, composeAfter, List.dropLast_singleton, List.append_nil]
      · cases hheld
      · exact ⟨c :: shorter, hshorter.cons h.order, by rw [heq, hstep, List.cons_append]⟩
    · rw [hstep]
      refine .inr (.inr ?_)
      rcases ih starter (h.keep hmark) with ⟨hheld, -⟩ | ⟨last, earlier, hheld, heq⟩ |
        ⟨shorter, hshorter, heq⟩
      · cases hheld
      · cases hheld
        exact ⟨rest, shortens_of_mark hmark h.order, heq⟩
      · exact ⟨c :: shorter, hshorter.cons h.order, heq.trans (hstep shorter).symm⟩

theorem dropLast_composeAll {parts : List Nat} (h : InOrder parts) :
    ∃ shorter, Shortens shorter parts ∧ (composeAll parts).dropLast = composeAll shorter := by
  induction parts with
  | nil => exact ⟨[], shortens_nil [], rfl⟩
  | cons c rest ih =>
    rw [composeAll]
    split
    · rename_i hstarter
      rcases dropLast_composeAfter c (.start h.of_cons) with
        ⟨-, d, heq⟩ | ⟨_, _, hheld, -⟩ | ⟨shorter, hshorter, heq⟩
      · exact ⟨[], shortens_nil _, by rw [heq]; rfl⟩
      · cases hheld
      · exact ⟨c :: shorter, hshorter.cons h, by rw [heq, composeAll, if_pos hstarter]⟩
    · rename_i hmark
      obtain ⟨shorter, hshorter, heq⟩ := ih h.of_cons
      cases hrest : composeAll rest with
      | nil => exact ⟨[], shortens_nil _, rfl⟩
      | cons d more =>
        refine ⟨c :: shorter, hshorter.cons h, ?_⟩
        rw [composeAll, if_neg hmark, ← heq, hrest, List.dropLast_cons_cons]

theorem Assembled.dropLast {cs : List Nat} (h : Assembled cs) : Assembled cs.dropLast := by
  obtain ⟨parts, horder, hplain, rfl⟩ := h
  obtain ⟨shorter, hshorter, heq⟩ := dropLast_composeAll horder
  exact ⟨shorter, hshorter.order, fun d hd => hplain d (hshorter.subset hd), heq.symm⟩

/-! ### Parts -/

theorem Assembled.right {before cs : List Nat} (h : Assembled (before ++ cs)) :
    Assembled cs := by
  induction before with
  | nil => exact h
  | cons c before ih => exact ih h.tail

theorem Assembled.left {cs after : List Nat} (h : Assembled (cs ++ after)) :
    Assembled cs := by
  induction after using List.reverseRecOn with
  | nil => rwa [List.append_nil] at h
  | append_singleton after c ih =>
    rw [← List.append_assoc] at h
    have hshorter := h.dropLast
    rw [List.dropLast_concat] at hshorter
    exact ih hshorter

/-- What stands in a row in a composed sequence is composed. -/
theorem composedCodes_of_part {part whole : List Nat} (h : part <:+: whole)
    (hwhole : composedCodes whole = whole) : composedCodes part = part := by
  obtain ⟨before, after, rfl⟩ := h
  exact assembled_iff.mp (assembled_iff.mpr hwhole).left.right

end RecordStore.Text
