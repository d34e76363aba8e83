import RecordStore.Number.Double

/-!
# Rounding to the nearest double

A quotient of naturals goes to the nearest double, a half to the even neighbour. Arithmetic on
doubles is the exact result rounded once.
-/

namespace RecordStore

/-- The quotient of two naturals rounded to the nearest natural; a half goes to the even one. -/
def roundQuotient (a b : Nat) : Nat :=
  let q := a / b
  let twice := 2 * (a % b)
  if twice < b then q else if b < twice then q + 1 else q + q % 2

theorem roundQuotient_mul_le (a b : Nat) (h : 0 < b) :
    2 * (roundQuotient a b * b) ≤ 2 * a + b := by
  have split := Nat.div_add_mod a b
  have small := Nat.mod_lt a h
  have parity : a / b % 2 ≤ 1 := by omega
  simp only [roundQuotient]
  split
  · rw [Nat.mul_comm (a / b) b]
    omega
  · split
    · rw [Nat.add_mul, Nat.mul_comm (a / b) b]
      omega
    · have step := Nat.mul_le_mul_right b parity
      rw [Nat.add_mul, Nat.mul_comm (a / b) b]
      omega

theorem le_roundQuotient_mul (a b : Nat) (h : 0 < b) :
    2 * a ≤ 2 * (roundQuotient a b * b) + b := by
  have split := Nat.div_add_mod a b
  have small := Nat.mod_lt a h
  simp only [roundQuotient]
  split
  · rw [Nat.mul_comm (a / b) b]
    omega
  · split
    · rw [Nat.add_mul, Nat.mul_comm (a / b) b]
      omega
    · rw [Nat.add_mul, Nat.mul_comm (a / b) b]
      omega

theorem roundQuotient_even_of_half (a b : Nat) (h : 2 * (a % b) = b) :
    roundQuotient a b % 2 = 0 := by
  simp only [roundQuotient, h, Nat.lt_irrefl, if_false]
  omega

namespace Double

/-- The rank of the double nearest to `num / den`. The grid that the quotient falls on keeps its
53 leading bits; rounding up to the next power of two lands on the next grid by itself. -/
def nearestRank (num den : Nat) : Nat :=
  let scaled := num * Nat.pow 2 1074
  let k := (scaled / den).log2 - 52
  roundQuotient scaled (den * Nat.pow 2 k) + k * Nat.pow 2 52

/-- The double nearest to `num / den` with the given sign; none when it would be infinite. -/
def nearest? (negative : Bool) (num den : Nat) : Option Double :=
  if h : nearestRank num den < 2047 * Nat.pow 2 52 then
    some ⟨negative, nearestRank num den, h⟩
  else none

def ofInt? (n : Int) : Option Double := nearest? (decide (n < 0)) n.natAbs 1

def mul? (a b : Double) : Option Double :=
  nearest? false (a.units * b.units) (Nat.pow 2 2148)

def div? (a b : Double) : Option Double := nearest? false a.units b.units

def withSign (d : Double) (negative : Bool) : Double := { d with negative }

end Double

end RecordStore
