import RecordStore.Query.Filter

/-!
# The context of a call

What a store was opened with, and what a call takes from outside: the time, and ids that are new.
A reproducible supply of both numbers the calls of a run.
-/

namespace RecordStore

/-! ### Failpoints -/

/-- A place inside a change at which it can be made to fail. -/
inductive Failpoint where
  | attributeInserted | optionInserted | valuesDeleted | entriesDeleted
deriving DecidableEq

def Failpoint.key : Failpoint → String
  | .attributeInserted => "after_attribute_insert"
  | .optionInserted => "after_option_insert"
  | .valuesDeleted => "after_value_delete"
  | .entriesDeleted => "after_entry_delete"

structure Setup where
  defaultPageSize : Nat
  maxPageSize : Nat
  unknown : UnknownPolicy
  failpoints : List String

namespace Setup

def pass (setup : Setup) (point : Failpoint) : Except Error Unit :=
  if setup.failpoints.contains point.key then .error (.storage (.failpoint point.key)) else .ok ()

end Setup

/-! ### Time and ids -/

/-- The time of a call and the ids that it may give out, in turn. -/
structure Stamp where
  now : Timestamp
  fresh : Nat → Id

namespace Stamp

def bytesOf (count n : Nat) : List UInt8 :=
  (List.range count).map fun i => UInt8.ofNat (n / Nat.pow 256 (count - 1 - i))

/-- The bytes of an id that names a step and a place in it; a multiplier spreads the first four, so
that the order of ids is not that of creation. -/
def spreadBytes (step place : Nat) : List UInt8 :=
  bytesOf 4 ((step * 64 + place + 1) * 0x9E3779B1) ++ [0, 0, 0x40, 0, 0x80, 0] ++
    bytesOf 4 step ++ bytesOf 2 place

/-- The stamp of a step of a reproducible run: seconds from the start of 2026, and ids that name
step and place. -/
def ofStep (step : Nat) : Stamp where
  now := ⟨1767225600000000 + step * 1000000⟩
  fresh place := (Id.ofBytes? (spreadBytes step place)).getD default

end Stamp

end RecordStore
