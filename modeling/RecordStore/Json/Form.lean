import RecordStore.Json

/-!
# Record forms

A record is written as an object of its fields or as an array of them in declaration order. What
may be left out depends on the field: an optional field of an object may be missing, the tail of an
array only where the field has a default. Unknown members are ignored; superfluous items are not.
-/

namespace RecordStore.Json

inductive Offer where
  /-- A value is there. -/
  | value (j : Json)
  /-- The object has no such member. -/
  | missing
  /-- The array ends before the field. -/
  | beyond

namespace Offer

def required {α : Type} (read : Json → Option α) : Offer → Option α
  | .value j => read j
  | _ => none

def orElse {α : Type} (default : α) (read : Json → Option α) : Offer → Option α
  | .value j => read j
  | _ => some default

/-- An optional field that an array must spell out; null stands for absence. -/
def optional {α : Type} (read : Json → Option α) : Offer → Option (Option α)
  | .value .null => some none
  | .value j => (read j).map some
  | .missing => some none
  | .beyond => none

/-- An optional field that may also be left off the end of an array. -/
def optionalTail {α : Type} (read : Json → Option α) : Offer → Option (Option α)
  | .value .null => some none
  | .value j => (read j).map some
  | _ => some none

end Offer

/-- The offers of a record form for the fields of the given names; none if it is no record form. -/
def form? (fields : List String) : Json → Option (String → Offer)
  | .obj members => some fun name => ((members.lookup name).map .value).getD .missing
  | .arr items =>
    if fields.length < items.length then none
    else some fun name => ((items[fields.idxOf name]?).map .value).getD .beyond
  | _ => none

def list? {α : Type} (read : Json → Option α) : Json → Option (List α)
  | .arr items => items.mapM read
  | _ => none

def any? (j : Json) : Option Json := some j

def bool? : Json → Option Bool
  | .bool b => some b
  | _ => none

/-- A choice among names: the name itself, or an object that gives it the value null. -/
def choice? {α : Type} (table : List (String × α)) : Json → Option α
  | .str name => table.lookup name
  | .obj [(name, .null)] => table.lookup name
  | _ => none

def orNull {α : Type} (write : α → Json) : Option α → Json
  | some a => write a
  | none => .null

end RecordStore.Json
