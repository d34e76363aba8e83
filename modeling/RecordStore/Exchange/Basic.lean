import RecordStore.Json.Form
import RecordStore.Query.Basic
import RecordStore.Store.Tables

/-!
# Exchanged scalars

How ids, instants, bounded integers and the names of choices stand in the JSON that a store
exchanges with its callers.
-/

namespace RecordStore

/-! ### Scalars -/

namespace Json

def id? (j : Json) : Option Id := j.str?.bind Id.ofText?

def timestamp? (j : Json) : Option Timestamp := j.str?.bind Timestamp.ofText?

def int32? (j : Json) : Option Int32 :=
  (j.intBetween? Int32.minValue.toInt Int32.maxValue.toInt).map Int32.ofInt

def nat32? (j : Json) : Option Nat := j.natBelow? UInt32.size

def nat64? (j : Json) : Option Nat := j.natBelow? UInt64.size

def word32? (j : Json) : Option UInt32 := j.nat32?.map UInt32.ofNat

def word64? (j : Json) : Option UInt64 := j.nat64?.map UInt64.ofNat

def nat (n : Nat) : Json := .int n

def int32 (n : Int32) : Json := .int n.toInt

def word32 (w : UInt32) : Json := nat w.toNat

def word64 (w : UInt64) : Json := nat w.toNat

def list {α : Type} (write : α → Json) (items : List α) : Json := .arr (items.map write)

end Json

def Id.toJson (id : Id) : Json := .str id.text

def Timestamp.toJson (t : Timestamp) : Json := .str t.text

/-! ### Names -/

def ValueType.toJson (t : ValueType) : Json := .str t.name

def Slot.toJson (s : Slot) : Json := .str s.name

def Operator.toJson (o : Operator) : Json := .str o.name

namespace Combinator

def name : Combinator → String
  | .and => "and"
  | .or => "or"

def names : List (String × Combinator) := [("and", .and), ("or", .or)]

def toJson (c : Combinator) : Json := .str c.name

end Combinator

namespace Direction

def name : Direction → String
  | .ascending => "asc"
  | .descending => "desc"

def names : List (String × Direction) := [("asc", .ascending), ("desc", .descending)]

def toJson (d : Direction) : Json := .str d.name

end Direction

namespace UnknownPolicy

def name : UnknownPolicy → String
  | .ignore => "ignore"
  | .reject => "reject"

def names : List (String × UnknownPolicy) := [("ignore", .ignore), ("reject", .reject)]

def toJson (p : UnknownPolicy) : Json := .str p.name

end UnknownPolicy

end RecordStore
