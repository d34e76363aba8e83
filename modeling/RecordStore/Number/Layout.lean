import RecordStore.Number.Shortest

/-!
# Number texts

Two texts of a double, both from its shortest digits. The plain text never has an exponent and no
point when the number is whole; the JSON text always shows that it is a float, and goes over to an
exponent outside `10 ^ -5 … 10 ^ 15`.
-/

namespace RecordStore

namespace Digits

/-- Positional digits: zeros on either side as far as the point. A whole number ends in
`wholeTail`. -/
def positional (d : Digits) (wholeTail : List Char) : List Char :=
  if d.lead < 0 then
    '0' :: '.' :: (List.replicate ((-d.lead).toNat - 1) '0' ++ d.chars)
  else
    let before := d.lead.toNat + 1
    if d.chars.length ≤ before then
      d.chars ++ List.replicate (before - d.chars.length) '0' ++ wholeTail
    else d.chars.take before ++ '.' :: d.chars.drop before

def scientific (d : Digits) : List Char :=
  let mantissa := match d.chars with
    | c :: rest@(_ :: _) => c :: '.' :: rest
    | short => short
  mantissa ++ 'e' :: (if d.lead < 0 then '-' else '+') :: Nat.toDigits 10 d.lead.natAbs

end Digits

namespace Double

def signChars (d : Double) : List Char := if d.negative then ['-'] else []

/-- The plain text: shortest digits, a tie upwards, never an exponent. -/
def plainChars (d : Double) : List Char :=
  d.signChars ++
    if d.rank = 0 then ['0'] else (Digits.shortest .up d.rank).positional []

/-- The JSON text: shortest digits, a tie to the even digit, `.0` on whole numbers. -/
def jsonChars (d : Double) : List Char :=
  d.signChars ++
    if d.rank = 0 then ['0', '.', '0'] else
      let digits := Digits.shortest .even d.rank
      if -5 ≤ digits.lead ∧ digits.lead ≤ 15 then digits.positional ['.', '0']
      else digits.scientific

def plain (d : Double) : String := String.ofList d.plainChars

end Double

end RecordStore
