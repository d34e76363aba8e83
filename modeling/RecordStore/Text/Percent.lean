import RecordStore.Text.Hex

/-!
# Percent signs

Text in which bytes are written as a percent sign and two hexadecimal digits. A percent sign that no
two digits follow stands for itself.
-/

namespace RecordStore.Text

def spelledByte? (high low : UInt8) : Option UInt8 := do
  let h ← hexValue? (Char.ofNat high.toNat)
  let l ← hexValue? (Char.ofNat low.toNat)
  return UInt8.ofNat (16 * h + l)

/-- Bytes with each spelled byte in place of its spelling. -/
def percentDecoded : List UInt8 → List UInt8
  | [] => []
  | 0x25 :: high :: low :: rest =>
    match spelledByte? high low with
    | some b => b :: percentDecoded rest
    | none => 0x25 :: percentDecoded (high :: low :: rest)
  | b :: rest => b :: percentDecoded rest

def unpercented? (s : String) : Option String :=
  String.fromUTF8? ⟨(percentDecoded s.toUTF8.toList).toArray⟩

end RecordStore.Text
