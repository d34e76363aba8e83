import RecordStore.Json.Written
import RecordStore.Number.Reading
import RecordStore.Text.Hex

/-!
# Reading JSON text

One value with blanks around it and nothing else. An integer that does not fit 64 bits is a float,
and so is `-0`. Each step gives what it read and the characters left over; what is written correctly
but has no value is read all the same.
-/

namespace RecordStore.Json

/-! ### Strings -/

def unescape? : Char → Option Char
  | '"' => some '"'
  | '\\' => some '\\'
  | '/' => some '/'
  | 'b' => some (Char.ofNat 8)
  | 'f' => some (Char.ofNat 12)
  | 'n' => some '\n'
  | 'r' => some '\r'
  | 't' => some '\t'
  | _ => none

def joinSurrogates (high low : Nat) : Char :=
  Char.ofNat (0x10000 + (high - 0xD800) * 0x400 + (low - 0xDC00))

def addChar (c : Char) (r : Option (List Char) × List Char) : Option (List Char) × List Char :=
  (r.1.map (c :: ·), r.2)

def dropText (r : Option (List Char) × List Char) : Option (List Char) × List Char := (none, r.2)

/-- The rest of a string after its opening quote. It has no value if a high surrogate is not
followed by a low one or a low one stands alone. -/
def readString : List Char → Option (Option (List Char) × List Char)
  | [] => none
  | '"' :: rest => some (some [], rest)
  | '\\' :: 'u' :: a :: b :: c :: d :: rest =>
    match Text.hexNumber? [a, b, c, d] with
    | none => none
    | some n =>
      if n < 0xD800 ∨ 0xDFFF < n then (readString rest).map (addChar (Char.ofNat n))
      else if 0xDC00 ≤ n then (readString rest).map dropText
      else
        match rest with
        | '\\' :: 'u' :: e :: f :: g :: h :: tail =>
          match Text.hexNumber? [e, f, g, h] with
          | none => none
          | some low =>
            if 0xDC00 ≤ low ∧ low ≤ 0xDFFF then
              (readString tail).map (addChar (joinSurrogates n low))
            else (readString ('\\' :: 'u' :: e :: f :: g :: h :: tail)).map dropText
        | other => (readString other).map dropText
  | '\\' :: e :: rest =>
    match unescape? e with
    | none => none
    | some c => (readString rest).map (addChar c)
  | c :: rest =>
    if c = '\\' ∨ c.toNat < 0x20 then none else (readString rest).map (addChar c)

/-! ### Numbers -/

/-- Appends decimal digits to a significand while it stays below `2 ^ 64`; gives the digits that
found no room. -/
def absorb (significand : Nat) : List Char → Nat × List Char
  | [] => (significand, [])
  | c :: rest =>
    let next := 10 * significand + (c.toNat - 48)
    if next < UInt64.size then absorb next rest else (significand, c :: rest)

def readExponent (cs : List Char) : Option (Int × List Char) :=
  let (negative, body) := match cs with
    | '-' :: r => (true, r)
    | '+' :: r => (false, r)
    | r => (false, r)
  let digits := body.takeWhile Char.isDigit
  if digits.isEmpty then none
  else
    let n : Int := Double.digitsValue digits
    some (if negative then -n else n, body.dropWhile Char.isDigit)

def readScaled (negative : Bool) (significand : Nat) (exponent : Int) (cs : List Char) :
    Option (Option Json × List Char) :=
  match cs with
  | 'e' :: rest | 'E' :: rest =>
    (readExponent rest).map fun r =>
      ((Double.ofLiteral? negative significand (exponent + r.1)).map .float, r.2)
  | rest => some ((Double.ofLiteral? negative significand exponent).map .float, rest)

def integerOf? (negative : Bool) (significand : Nat) (spare : Nat) : Option Json :=
  if negative then
    if spare = 0 ∧ significand ≠ 0 ∧ significand ≤ Nat.pow 2 63 then
      some (.int (-(significand : Int)))
    else (Double.ofLiteral? true significand spare).map .float
  else if spare = 0 then some (.int significand)
  else (Double.ofLiteral? false significand spare).map .float

def readNumber (negative : Bool) (cs : List Char) : Option (Option Json × List Char) :=
  let whole := cs.takeWhile Char.isDigit
  let rest := cs.dropWhile Char.isDigit
  if whole.isEmpty ∨ (whole.head? = some '0' ∧ whole.length ≠ 1) then none
  else
    let (significand, spare) := absorb 0 whole
    match rest with
    | '.' :: r =>
      let fraction := r.takeWhile Char.isDigit
      if fraction.isEmpty then none
      else
        let (longer, left) := absorb significand fraction
        let exponent : Int := (spare.length : Int) - (fraction.length - left.length : Nat)
        readScaled negative longer exponent (r.dropWhile Char.isDigit)
    | 'e' :: _ | 'E' :: _ => readScaled negative significand spare.length rest
    | _ => some (integerOf? negative significand spare.length, rest)

/-! ### Values -/

def isSpacing (c : Char) : Bool := c == ' ' || c == '\n' || c == '\t' || c == '\r'

def skipSpacing (cs : List Char) : List Char := cs.dropWhile isSpacing

mutual

/-- A value at the head of the characters; the fuel bounds the number of nested steps. -/
def readValue : Nat → List Char → Option (Written × List Char)
  | 0, _ => none
  | fuel + 1, cs =>
    match skipSpacing cs with
    | 'n' :: 'u' :: 'l' :: 'l' :: rest => some (.null, rest)
    | 't' :: 'r' :: 'u' :: 'e' :: rest => some (.bool true, rest)
    | 'f' :: 'a' :: 'l' :: 's' :: 'e' :: rest => some (.bool false, rest)
    | '"' :: rest => (readString rest).map fun r => (.str (r.1.map String.ofList), r.2)
    | '-' :: rest => (readNumber true rest).map fun r => (.number r.1, r.2)
    | '[' :: rest =>
      match skipSpacing rest with
      | ']' :: tail => some (.arr [], tail)
      | _ => (readItems fuel rest).map fun r => (.arr r.1, r.2)
    | '{' :: rest =>
      match skipSpacing rest with
      | '}' :: tail => some (.obj [], tail)
      | _ => (readMembers fuel rest).map fun r => (.obj r.1, r.2)
    | rest => (readNumber false rest).map fun r => (.number r.1, r.2)

def readItems : Nat → List Char → Option (List Written × List Char)
  | 0, _ => none
  | fuel + 1, cs =>
    match readValue fuel cs with
    | none => none
    | some (item, rest) =>
      match skipSpacing rest with
      | ']' :: tail => some ([item], tail)
      | ',' :: tail => (readItems fuel tail).map fun r => (item :: r.1, r.2)
      | _ => none

def readMembers : Nat → List Char → Option (List (Option String × Written) × List Char)
  | 0, _ => none
  | fuel + 1, cs =>
    match skipSpacing cs with
    | '"' :: start =>
      match readString start with
      | none => none
      | some (text, afterKey) =>
        let key := text.map String.ofList
        match skipSpacing afterKey with
        | ':' :: afterColon =>
          match readValue fuel afterColon with
          | none => none
          | some (value, rest) =>
            match skipSpacing rest with
            | '}' :: tail => some ([(key, value)], tail)
            | ',' :: tail => (readMembers fuel tail).map fun r => ((key, value) :: r.1, r.2)
            | _ => none
        | _ => none
    | _ => none

end

/-- What a text spells, if it is JSON. Two steps for each character are enough. -/
def Written.parse? (s : String) : Option Written :=
  let cs := s.toList
  match readValue (2 * cs.length + 2) cs with
  | some (w, rest) => if (skipSpacing rest).isEmpty then some w else none
  | none => none

/-- The value that a text spells. It is nested no deeper than the text is long, and no limit is set
to that here: what is stored was within the limit when it came in (see `Json.kept`). -/
def parse? (s : String) : Option Json := (Written.parse? s).bind (Written.value? s.length)

end RecordStore.Json
