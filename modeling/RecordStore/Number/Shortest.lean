import RecordStore.Number.Rounding

/-!
# Shortest decimal digits

The digits of a double are the fewest that read back as it: on the decimal grids of 1, 2, … 17
significant digits the first that has a point in the interval of reals rounding to the double. Of
two such points the nearer one is taken; an exact tie is the format's decision.
-/

namespace RecordStore

/-- How an exact tie between two shortest decimals is settled. -/
inductive TieRule where
  | even
  | up
deriving DecidableEq

/-- Significant decimal digits without trailing zeros, and the power of ten of the first digit. -/
structure Digits where
  chars : List Char
  lead : Int
deriving DecidableEq

namespace Digits

def ofCoefficient (coefficient : Nat) (exponent : Int) : Digits :=
  let all := Nat.toDigits 10 coefficient
  { chars := (all.reverse.dropWhile (· == '0')).reverse
    lead := exponent + all.length - 1 }

/-- Whether `c` grid steps lie in the interval of reals that round to the given rank. The step is
`step / (2 ^ 1074 · 10 ^ 341)`; the interval has its ends exactly when the rank is even. -/
def readsBack (rank c step : Nat) : Bool :=
  let low := (Double.unitsAt (rank - 1) + Double.unitsAt rank) * Nat.pow 10 341
  let high := (Double.unitsAt rank + Double.unitsAt (rank + 1)) * Nat.pow 10 341
  let point := 2 * c * step
  if rank % 2 = 0 then low ≤ point && point ≤ high else low < point && point < high

def candidate? (tie : TieRule) (rank step : Nat) : Option Nat :=
  let scaled := Double.unitsAt rank * Nat.pow 10 341
  let below := scaled / step
  let twice := 2 * (scaled % step)
  match readsBack rank below step, readsBack rank (below + 1) step with
  | true, true =>
    if twice < step then some below
    else if step < twice then some (below + 1)
    else match tie with
      | .even => some (below + below % 2)
      | .up => some (below + 1)
  | true, false => some below
  | false, true => some (below + 1)
  | false, false => none

def shortest (tie : TieRule) (rank : Nat) : Digits :=
  let lead :=
    (Nat.toDigits 10 (Double.unitsAt rank * Nat.pow 10 324 / Nat.pow 2 1074)).length - 1
  let grid (n : Nat) : Option Digits :=
    (candidate? tie rank (Nat.pow 2 1074 * Nat.pow 10 (lead + 18 - n))).map
      (ofCoefficient · ((lead : Int) - 324 - n + 1))
  ((List.range 17).findSome? fun n => grid (n + 1)).getD ⟨['0'], 0⟩

end Digits

end RecordStore
