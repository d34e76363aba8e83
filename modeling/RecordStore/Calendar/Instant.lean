import RecordStore.Calendar.Date
import RecordStore.Error

/-!
# Dates and timestamps

Instants are microseconds since the start of 1970, universal time. A date stands for the first
instant of its day. Both are read from a bare date or from an RFC 3339 timestamp; what is written
covers the years -9999 to 9999 for dates and 0 to 9999 for timestamps.
-/

namespace RecordStore.Calendar

/-! ### Units -/

def microsPerDay : Int := 86400000000

def nanosPerDay : Int := 86400000000000

def firstInstant : Int := -377705116800000000

def lastInstant : Int := 253402300799999999

/-! ### Reading -/

/-- Exactly `n` decimal digits at the head, as a number, and what follows them. -/
def digits? (n : Nat) (cs : List Char) : Option (Nat × List Char) :=
  let head := cs.take n
  if head.length = n ∧ head.all Char.isDigit then some (Nat.ofDigitChars 10 head 0, cs.drop n)
  else none

def after? (c : Char) : List Char → Option (List Char)
  | d :: rest => if c = d then some rest else none
  | [] => none

def monthAndDay? (year : Int) (cs : List Char) : Option (Date × List Char) := do
  let (month, cs) ← digits? 2 (← after? '-' cs)
  let (day, cs) ← digits? 2 (← after? '-' cs)
  let date : Date := ⟨year, month, day⟩
  if date.isValid then some (date, cs) else none

/-- The day number of a bare date: an optional sign, four digits of year, month and day. -/
def bareDate? (cs : List Char) : Option Int := do
  let (negative, cs) := match cs with
    | '-' :: r => (true, r)
    | '+' :: r => (false, r)
    | r => (false, r)
  let (year, cs) ← digits? 4 cs
  let (date, cs) ← monthAndDay? (if negative then -(year : Int) else year) cs
  if cs.isEmpty then some date.toDays else none

/-- Nanoseconds of a fraction of a second, from its digits; digits after the ninth do not count. -/
def fractionNanos (digits : List Char) : Nat :=
  Nat.ofDigitChars 10 ((digits ++ List.replicate 9 '0').take 9) 0

/-- The fraction of a second in nanoseconds, if there is one, and what follows it. -/
def fraction? : List Char → Option (Nat × List Char)
  | '.' :: rest =>
    let digits := rest.takeWhile Char.isDigit
    if digits.isEmpty then none else some (fractionNanos digits, rest.dropWhile Char.isDigit)
  | rest => some (0, rest)

/-- The distance from universal time in seconds: `Z`, or a sign, hours and minutes. -/
def offset? (cs : List Char) : Option (Int × List Char) :=
  match cs with
  | 'Z' :: rest | 'z' :: rest => some (0, rest)
  | sign :: rest => do
    if sign ≠ '+' ∧ sign ≠ '-' then none
    else
      let (hours, rest) ← digits? 2 rest
      let (minutes, rest) ← digits? 2 (← after? ':' rest)
      if 23 < hours ∨ 59 < minutes then none
      else
        let seconds : Int := (hours * 3600 + minutes * 60 : Nat)
        some (if sign = '-' then -seconds else seconds, rest)
  | [] => none

def endsMonth (nanos : Int) : Bool :=
  let date := Date.ofDays (nanos / nanosPerDay)
  nanos % nanosPerDay / 1000000000 == 86399 && date.day == daysInMonth date.year date.month

/-- What follows the one ASCII character at the head. -/
def separated? : List Char → Option (List Char)
  | separator :: rest => if separator.toNat < 0x80 then some rest else none
  | [] => none

/-- The instant of an RFC 3339 timestamp in nanoseconds. Any ASCII character may stand between date
and time. A leap second is the last nanosecond before it, and only the end of a month has one. -/
def rfc3339? (cs : List Char) : Option Int := do
  let (year, cs) ← digits? 4 cs
  let (date, cs) ← monthAndDay? year cs
  let (hour, cs) ← digits? 2 (← separated? cs)
  let (minute, cs) ← digits? 2 (← after? ':' cs)
  let (second, cs) ← digits? 2 (← after? ':' cs)
  let (fraction, cs) ← fraction? cs
  let (offset, cs) ← offset? cs
  if ¬ cs.isEmpty ∨ 23 < hour ∨ 59 < minute ∨ 60 < second then none
  else
    let leap := second == 60
    let clock : Int := (hour * 3600 + minute * 60 + (if leap then 59 else second) : Nat)
    let nanos := date.toDays * nanosPerDay + (clock - offset) * 1000000000 +
      (if leap then 999999999 else (fraction : Int))
    if leap && !endsMonth nanos then none else some nanos

/-- The first instant of the day that a text names: a bare date, or the day in universal time of a
timestamp. -/
def parseDate (s : String) : Except Error Int :=
  let text := Text.trim s
  match bareDate? text.toList with
  | some day => .ok (day * microsPerDay)
  | none =>
    match rfc3339? text.toList with
    | none => .error (.invalid (.malformedDate text))
    | some nanos =>
      let start := nanos / nanosPerDay * microsPerDay
      if firstInstant ≤ start ∧ start ≤ lastInstant then .ok start else .error .calendarOverflow

/-- The instant that a text names: a timestamp, its nanoseconds cut towards zero, or the start of a
bare date. -/
def parseTimestamp (s : String) : Except Error Int :=
  let text := Text.trim s
  match rfc3339? text.toList with
  | some nanos => .ok (nanos.tdiv 1000)
  | none =>
    match bareDate? text.toList with
    | some day => .ok (day * microsPerDay)
    | none => .error (.invalid (.malformedTimestamp text))

/-! ### Writing -/

def padded (width n : Nat) : List Char :=
  let digits := Nat.toDigits 10 n
  List.replicate (width - digits.length) '0' ++ digits

def dateChars (d : Date) : List Char :=
  (if d.year < 0 then ['-'] else []) ++ padded 4 d.year.natAbs ++ '-' :: padded 2 d.month ++
    '-' :: padded 2 d.day

def fractionChars (micros : Nat) : List Char :=
  if micros = 0 then []
  else '.' :: ((padded 6 micros).reverse.dropWhile (· == '0')).reverse

def clockChars (micros : Nat) : List Char :=
  let seconds := micros / 1000000
  padded 2 (seconds / 3600) ++ ':' :: padded 2 (seconds / 60 % 60) ++ ':' :: padded 2 (seconds % 60)
    ++ fractionChars (micros % 1000000)

def inCalendar (micros : Int) : Bool := firstInstant ≤ micros && micros ≤ lastInstant

def formatDate (micros : Int) : Except Error String :=
  if inCalendar micros then .ok (String.ofList (dateChars (Date.ofDays (micros / microsPerDay))))
  else .error (.storage .outOfCalendar)

/-- The timestamp of an instant; it has no form before year 0. -/
def formatTimestamp (micros : Int) : Except Error String :=
  if inCalendar micros then
    let date := Date.ofDays (micros / microsPerDay)
    if date.year < 0 then .error (.storage .unwritableInstant)
    else .ok (String.ofList
      (dateChars date ++ 'T' :: clockChars (micros % microsPerDay).toNat ++ ['Z']))
  else .error (.storage .outOfCalendar)

end RecordStore.Calendar

namespace RecordStore

/-- An instant in microseconds since the start of 1970. -/
structure Timestamp where
  micros : Int
deriving DecidableEq

namespace Timestamp

def text (t : Timestamp) : String :=
  match Calendar.formatTimestamp t.micros with
  | .ok s => s
  | .error _ => String.ofList (Json.intChars t.micros)

def ofText? (s : String) : Option Timestamp := (Calendar.parseTimestamp s).toOption.map (⟨·⟩)

end Timestamp

end RecordStore
