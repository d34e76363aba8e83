import RecordStore.Number.Rounding

/-!
# Reading numbers from text

A decimal text has an optional sign, digits with an optional point, and an optional exponent. It
is read exactly: the double nearest to the decimal it spells. A JSON literal is read in two
roundings instead: its digits first, then their product with a power of ten.
-/

namespace RecordStore

namespace Double

/-! ### Exact reading -/

/-- The double nearest to `coefficient · 10 ^ exponent`. Outside `10 ^ -330 … 10 ^ 310` the answer
is known without forming the power. -/
def ofDecimal? (negative : Bool) (coefficient : Nat) (exponent : Int) : Option Double :=
  let top := (Nat.toDigits 10 coefficient).length + exponent
  if coefficient = 0 ∨ top < -330 then some { zero with negative }
  else if 310 < top then none
  else if exponent < 0 then nearest? negative coefficient (Nat.pow 10 exponent.natAbs)
  else nearest? negative (coefficient * Nat.pow 10 exponent.natAbs) 1

def digitsValue (cs : List Char) : Nat := Nat.ofDigitChars 10 cs 0

def exponent? : List Char → Option Int
  | [] => some 0
  | c :: rest =>
    if c ≠ 'e' ∧ c ≠ 'E' then none else
      let (negative, digits) := match rest with
        | '-' :: r => (true, r)
        | '+' :: r => (false, r)
        | r => (false, r)
      if digits.isEmpty ∨ ¬ digits.all Char.isDigit then none
      else
        let n : Int := digitsValue digits
        some (if negative then -n else n)

/-- The double that a decimal text spells; none when it is malformed or not finite. -/
def ofText? (cs : List Char) : Option Double :=
  let (negative, body) := match cs with
    | '-' :: r => (true, r)
    | '+' :: r => (false, r)
    | r => (false, r)
  let before := body.takeWhile Char.isDigit
  let (after, tail) := match body.dropWhile Char.isDigit with
    | '.' :: r => (r.takeWhile Char.isDigit, r.dropWhile Char.isDigit)
    | r => ([], r)
  if before.isEmpty ∧ after.isEmpty then none
  else do
    let exponent ← exponent? tail
    ofDecimal? negative (digitsValue (before ++ after)) (exponent - after.length)

/-! ### JSON literals -/

def powerOfTen? (n : Nat) : Option Double := nearest? false (Nat.pow 10 n) 1

/-- A magnitude divided by `10 ^ n`, by steps of `10 ^ 308`, each rounded. -/
def scaleDown? (d : Double) (n : Nat) : Option Double :=
  if n ≤ 308 then do d.div? (← powerOfTen? n)
  else if d.rank = 0 then some d
  else do
    let next ← d.div? (← powerOfTen? 308)
    next.scaleDown? (n - 308)
termination_by n

/-- The double that a JSON literal with the given significant digits and exponent denotes; none
when it overflows. -/
def ofLiteral? (negative : Bool) (significand : Nat) (exponent : Int) : Option Double := do
  let d ← nearest? false significand 1
  let scaled ←
    if exponent < 0 then d.scaleDown? exponent.natAbs
    else if exponent ≤ 308 then do d.mul? (← powerOfTen? exponent.natAbs)
    else if d.rank = 0 then some d
    else none
  return scaled.withSign negative

end Double

end RecordStore
