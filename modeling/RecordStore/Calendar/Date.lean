/-!
# Calendar dates

Days of the proleptic Gregorian calendar and their numbers, counted from 1 January 1970. Years may
be negative; year 0 is a leap year.
-/

namespace RecordStore.Calendar

structure Date where
  year : Int
  month : Nat
  day : Nat
deriving DecidableEq

/-! ### Lengths -/

def isLeap (year : Int) : Bool := year % 4 == 0 && (year % 100 != 0 || year % 400 == 0)

def daysInMonth (year : Int) : Nat → Nat
  | 2 => if isLeap year then 29 else 28
  | 4 | 6 | 9 | 11 => 30
  | _ => 31

def daysBeforeYear (year : Int) : Int :=
  365 * year + (year + 3) / 4 - (year + 99) / 100 + (year + 399) / 400

def daysBeforeMonth (year : Int) (month : Nat) : Nat :=
  (List.range (month - 1)).foldl (fun days m => days + daysInMonth year (m + 1)) 0

/-- The day number of 1 January 1970 counted from year 0. -/
def epochDays : Int := 719528

/-! ### Day numbers -/

namespace Date

def isValid (d : Date) : Bool :=
  1 ≤ d.month && d.month ≤ 12 && 1 ≤ d.day && d.day ≤ daysInMonth d.year d.month

def toDays (d : Date) : Int :=
  daysBeforeYear d.year + daysBeforeMonth d.year d.month + (d.day - 1) - epochDays

end Date

/-- The year in which a day lies that is counted from year 0. The mean length of a year gives it up
to one. -/
def yearOf (days : Int) : Int :=
  let guess := 400 * days / 146097
  if days < daysBeforeYear guess then guess - 1
  else if daysBeforeYear (guess + 1) ≤ days then guess + 1
  else guess

/-- The month and the day of the month, from the months still ahead and the days left. -/
def splitMonths (year : Int) (left : Nat) : List Nat → Nat × Nat
  | [] => (12, left + 1)
  | m :: rest =>
    if left < daysInMonth year m then (m, left + 1)
    else splitMonths year (left - daysInMonth year m) rest

namespace Date

def ofDays (days : Int) : Date :=
  let fromZero := days + epochDays
  let year := yearOf fromZero
  let left := (fromZero - daysBeforeYear year).toNat
  let (month, day) := splitMonths year left [1, 2, 3, 4, 5, 6, 7, 8, 9, 10, 11, 12]
  ⟨year, month, day⟩

end Date

end RecordStore.Calendar
