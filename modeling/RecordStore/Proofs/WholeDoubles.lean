import RecordStore.Number.Rounding

/-!
# Whole doubles

A double that is a whole number is written as an integer. Main statement: the double nearest to
that integer is the one it was written of, but for the sign of a zero.
-/

namespace RecordStore

theorem roundQuotient_mul (a b : Nat) (h : 0 < b) : roundQuotient (a * b) b = a := by
  simp [roundQuotient, Nat.mul_mod_left, Nat.mul_div_cancel a h, h]

namespace Double

/-! ### Exact values -/

theorem stretch_of_lt {rank : Nat} (h : rank < 2 * Nat.pow 2 52) : stretch rank = 0 := by
  have hdiv : rank / Nat.pow 2 52 < 2 := Nat.div_lt_of_lt_mul (by rwa [Nat.mul_comm])
  rw [stretch]
  omega

theorem unitsAt_of_lt {rank : Nat} (h : rank < 2 * Nat.pow 2 52) : unitsAt rank = rank := by
  rw [unitsAt, stretch_of_lt h, Nat.zero_mul, Nat.sub_zero]
  exact Nat.mul_one rank

/-- From the third span of ranks on, the units at a rank are its place in the span, put behind a
leading bit and stretched. -/
theorem exists_span {rank : Nat} (h : 2 * Nat.pow 2 52 ≤ rank) :
    ∃ r < Nat.pow 2 52, rank = Nat.pow 2 52 + r + stretch rank * Nat.pow 2 52 ∧
      unitsAt rank = (Nat.pow 2 52 + r) * Nat.pow 2 (stretch rank) := by
  have hdiv : 2 ≤ rank / Nat.pow 2 52 := (Nat.le_div_iff_mul_le (Nat.two_pow_pos 52)).mpr h
  obtain ⟨s, hs⟩ : ∃ s, rank / Nat.pow 2 52 = s + 1 := ⟨rank / Nat.pow 2 52 - 1, by omega⟩
  have hstretch : stretch rank = s := by rw [stretch, hs, Nat.add_sub_cancel]
  have hrank : rank = Nat.pow 2 52 + rank % Nat.pow 2 52 + s * Nat.pow 2 52 := by
    have hsplit := Nat.div_add_mod rank (Nat.pow 2 52)
    rw [hs, Nat.mul_succ, Nat.mul_comm] at hsplit
    omega
  refine ⟨rank % Nat.pow 2 52, Nat.mod_lt _ (Nat.two_pow_pos 52), hstretch ▸ hrank, ?_⟩
  rw [unitsAt, hstretch]
  congr 1
  omega

theorem log2_mul_two_pow {r s : Nat} (h : r < Nat.pow 2 52) :
    ((Nat.pow 2 52 + r) * Nat.pow 2 s).log2 = 52 + s := by
  have hpos : 0 < Nat.pow 2 s := Nat.two_pow_pos s
  have hne : (Nat.pow 2 52 + r) * Nat.pow 2 s ≠ 0 :=
    Nat.mul_ne_zero (Nat.ne_of_gt (Nat.add_pos_left (Nat.two_pow_pos 52) r)) (Nat.ne_of_gt hpos)
  refine (Nat.log2_eq_iff hne).mpr ⟨?_, ?_⟩
  · rw [Nat.pow_add]
    exact Nat.mul_le_mul_right _ (Nat.le_add_right _ r)
  · rw [Nat.add_right_comm, Nat.pow_add]
    refine Nat.mul_lt_mul_of_pos_right ?_ hpos
    rw [Nat.pow_succ, Nat.mul_two]
    exact Nat.add_lt_add_left h _

/-- A number that is a double goes to that double. -/
theorem nearestRank_eq {num rank : Nat} (h : num * Nat.pow 2 1074 = unitsAt rank) :
    nearestRank num 1 = rank := by
  rw [nearestRank, h, Nat.div_one, Nat.one_mul]
  rcases Nat.lt_or_ge rank (2 * Nat.pow 2 52) with hlow | hhigh
  · have hk : rank.log2 - 52 = 0 := by
      rcases Nat.eq_zero_or_pos rank with rfl | hpos
      · rfl
      · have hlog : rank.log2 < 53 := by
          rw [Nat.log2_lt (Nat.ne_of_gt hpos), Nat.pow_succ, Nat.mul_comm]
          exact hlow
        omega
    rw [unitsAt_of_lt hlow, hk, Nat.zero_mul, Nat.add_zero]
    have hround := roundQuotient_mul rank 1 Nat.one_pos
    rwa [Nat.mul_one] at hround
  · obtain ⟨r, hr, hrank, hunits⟩ := exists_span hhigh
    have hk : (unitsAt rank).log2 - 52 = stretch rank := by
      rw [hunits, log2_mul_two_pow hr, Nat.add_sub_cancel_left]
    rw [hk, hunits]
    exact (congrArg (· + _) (roundQuotient_mul _ _ (Nat.two_pow_pos _))).trans hrank.symm

/-! ### Whole doubles -/

theorem same_of_rank {d e : Double} (hrank : e.rank = d.rank)
    (hsign : d.rank ≠ 0 → e.negative = d.negative) : d.same e = true := by
  rw [same, place, place, hrank]
  rcases Nat.eq_zero_or_pos d.rank with hzero | hpos
  · simp [hzero]
  · simp [hsign (Nat.ne_of_gt hpos)]

theorem rank_eq_zero_of_units {d : Double} (h : d.units = 0) : d.rank = 0 := by
  rw [units] at h
  rcases Nat.lt_or_ge d.rank (2 * Nat.pow 2 52) with hlow | hhigh
  · rwa [unitsAt_of_lt hlow] at h
  · obtain ⟨r, -, -, hunits⟩ := exists_span hhigh
    rw [hunits] at h
    rcases Nat.mul_eq_zero.mp h with hbase | hpow
    · exact absurd hbase (Nat.ne_of_gt (Nat.add_pos_left (Nat.two_pow_pos 52) r))
    · exact absurd hpow (Nat.ne_of_gt (Nat.two_pow_pos _))

/-- A whole double is what is read of it as an integer, but for the sign of a zero. -/
theorem exists_ofInt?_eq_some {d : Double} {n : Int} (h : d.whole? = some n) :
    ∃ e, ofInt? n = some e ∧ e.rank = d.rank ∧ (d.rank ≠ 0 → e.negative = d.negative) := by
  rw [whole?] at h
  split at h
  · rename_i hwhole
    have hunits : d.units / Nat.pow 2 1074 * Nat.pow 2 1074 = d.units :=
      Nat.div_mul_cancel (Nat.dvd_of_mod_eq_zero hwhole)
    generalize hq : d.units / Nat.pow 2 1074 = q at h hunits
    rw [Option.some.injEq] at h
    have hq0 : d.rank ≠ 0 → q ≠ 0 := by
      intro hrank hzero
      have hnone : d.units = 0 := hunits ▸ Nat.mul_eq_zero.mpr (.inl hzero)
      exact hrank (rank_eq_zero_of_units hnone)
    have habs : n.natAbs = q := by
      rw [← h]
      split
      · rw [Int.natAbs_neg, Int.natAbs_natCast]
      · exact Int.natAbs_natCast q
    have hrank : nearestRank n.natAbs 1 = d.rank := by
      rw [habs]
      exact nearestRank_eq hunits
    refine ⟨⟨decide (n < 0), nearestRank n.natAbs 1, hrank ▸ d.rank_lt⟩, ?_, hrank, ?_⟩
    · rw [ofInt?, nearest?, dif_pos]
    · intro hne
      have hpos := hq0 hne
      change decide (n < 0) = d.negative
      clear hq hunits hwhole hrank
      cases hnegative : d.negative
      · simp [← h, hnegative]
      · simp [← h, hnegative]
        omega
  · cases h

end Double
end RecordStore
