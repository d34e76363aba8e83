/-!
# Finite doubles

A finite IEEE 754 double is a sign and the rank of its magnitude among the magnitudes of all
finite doubles: rank 0 is zero, rank 1 the least positive double, and the rank grows with the
magnitude. The rank is the 64-bit pattern without its sign bit, so comparing doubles is comparing
integers, and no operation here leaves exact arithmetic.
-/

namespace RecordStore

structure Double where
  negative : Bool
  rank : Nat
  rank_lt : rank < 2047 * Nat.pow 2 52
deriving DecidableEq

namespace Double

/-! ### Value -/

/-- How often the spacing of the doubles has doubled below the given rank. -/
def stretch (rank : Nat) : Nat := rank / Nat.pow 2 52 - 1

/-- The magnitude at a rank, counted in least positive doubles (units of `2 ^ -1074`). -/
def unitsAt (rank : Nat) : Nat :=
  (rank - stretch rank * Nat.pow 2 52) * Nat.pow 2 (stretch rank)

def units (d : Double) : Nat := unitsAt d.rank

def bits (d : Double) : Nat := if d.negative then Nat.pow 2 63 + d.rank else d.rank

def zero : Double := ⟨false, 0, by decide⟩

instance : Inhabited Double := ⟨zero⟩

/-! ### Order -/

/-- The place of a double in numeric order; the two zeros share place 0. -/
def place (d : Double) : Int := if d.negative then -(d.rank : Int) else d.rank

/-- The place of a double in the total order, which puts `-0` right before `0`. -/
def totalPlace (d : Double) : Int := if d.negative then -(d.rank : Int) - 1 else d.rank

/-- Numeric equality: the two zeros are equal. -/
def same (a b : Double) : Bool := a.place == b.place

def withoutZeroSign (d : Double) : Double := if d.rank = 0 then zero else d

theorem eq_of_totalPlace_eq {a b : Double} (h : a.totalPlace = b.totalPlace) : a = b := by
  obtain ⟨m, i, hi⟩ := a
  obtain ⟨n, j, hj⟩ := b
  cases m <;> cases n <;> simp [totalPlace] at h <;> simp only [mk.injEq, true_and] <;> omega

theorem bits_lt (d : Double) : d.bits < UInt64.size := by
  have h := d.rank_lt
  simp only [Nat.pow_eq, Nat.reducePow] at h
  rw [bits, UInt64.size]
  split
  · simp only [Nat.pow_eq, Nat.reducePow]
    omega
  · omega

/-! ### Whole numbers -/

def whole? (d : Double) : Option Int :=
  if d.units % Nat.pow 2 1074 = 0 then
    let n : Int := (d.units / Nat.pow 2 1074 : Nat)
    some (if d.negative then -n else n)
  else none

def int64? (d : Double) : Option Int :=
  d.whole?.filter fun n => Int64.minValue.toInt ≤ n ∧ n ≤ Int64.maxValue.toInt

end Double

end RecordStore
