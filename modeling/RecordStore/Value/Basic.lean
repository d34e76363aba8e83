import RecordStore.Attribute.Basic
import RecordStore.Json.Form
import RecordStore.Text.Folded

/-!
# Stored and public values

A cell is the content of one stored value, in one of six slots. A value is the public shape of the
same, as views show it. The canonical key of a cell is the text by which unique values and natural
keys are compared.
-/

namespace RecordStore

inductive Cell where
  | text (s : String)
  /-- A number; an amount of money has its currency code as unit. -/
  | number (value : Double) (unit : Option String)
  | boolean (b : Bool)
  /-- Microseconds since the start of 1970. -/
  | date (micros : Int)
  | structured (j : Json)
  | reference (id : Id)

structure PersonalName where
  first : Option String
  last : Option String
  full : Option String
deriving DecidableEq

structure Location where
  line1 : Option String
  line2 : Option String
  city : Option String
  state : Option String
  postcode : Option String
  country : Option String
  latitude : Option Double
  longitude : Option Double
deriving DecidableEq

inductive Value where
  | text (s : String)
  | number (value : Double)
  | currency (amount : Double) (code : String)
  | boolean (b : Bool)
  | date (s : String)
  | reference (id : Id)
  | personalName (name : PersonalName)
  | location (place : Location)
  | json (j : Json)
  | set (members : List Json)

/-! ### Cells -/

namespace Cell

def slot : Cell → Slot
  | .text _ => .text
  | .number _ _ => .number
  | .boolean _ => .boolean
  | .date _ => .date
  | .structured _ => .structured
  | .reference _ => .reference

/-- The text by which stored values are compared for uniqueness. -/
def canonicalKey : Cell → String
  | .text s => Text.fold s
  | .number value none => value.plain
  | .number value (some unit) => s!"{value.plain}:{unit}"
  | .boolean true => "true"
  | .boolean false => "false"
  | .date micros => String.ofList (Json.intChars micros)
  | .structured j => j.text
  | .reference id => id.text

end Cell

/-! ### Names and locations -/

namespace Json

def presentMembers (members : List (String × Option Json)) : Json :=
  .obj (members.filterMap fun m => m.2.map fun j => (m.1, j))

end Json

/-- Text without surrounding white space, if there is anything else to it. -/
def nonBlank (s : Option String) : Option String :=
  (s.map Text.trim).filter fun t => t ≠ ""

namespace PersonalName

def isEmpty (n : PersonalName) : Bool := n.first.isNone && n.last.isNone && n.full.isNone

/-- The parts without blanks; a missing full name is put together from the others. -/
def normalized (n : PersonalName) : PersonalName :=
  let first := nonBlank n.first
  let last := nonBlank n.last
  let joined := match first, last with
    | some f, some l => some (f ++ " " ++ l)
    | some f, none => some f
    | none, l => l
  { first, last, full := (nonBlank n.full).or joined }

def toJson (n : PersonalName) : Json :=
  .presentMembers [("firstName", n.first.map .str), ("fullName", n.full.map .str),
    ("lastName", n.last.map .str)]

def ofJson? (j : Json) : Option PersonalName := do
  let field ← j.form? ["firstName", "lastName", "fullName"]
  return {
    first := ← (field "firstName").optionalTail Json.str?
    last := ← (field "lastName").optionalTail Json.str?
    full := ← (field "fullName").optionalTail Json.str? }

end PersonalName

namespace Location

def isEmpty (l : Location) : Bool := l == ⟨none, none, none, none, none, none, none, none⟩

def normalized (l : Location) : Location :=
  { l with
    line1 := nonBlank l.line1
    line2 := nonBlank l.line2
    city := nonBlank l.city
    state := nonBlank l.state
    postcode := nonBlank l.postcode
    country := nonBlank l.country }

def toJson (l : Location) : Json :=
  .presentMembers [("city", l.city.map .str), ("country", l.country.map .str),
    ("latitude", l.latitude.map .float), ("line1", l.line1.map .str),
    ("line2", l.line2.map .str), ("longitude", l.longitude.map .float),
    ("postcode", l.postcode.map .str), ("state", l.state.map .str)]

def ofJson? (j : Json) : Option Location := do
  let field ← j.form? ["line1", "line2", "city", "state", "postcode", "country", "latitude",
    "longitude"]
  return {
    line1 := ← (field "line1").optionalTail Json.str?
    line2 := ← (field "line2").optionalTail Json.str?
    city := ← (field "city").optionalTail Json.str?
    state := ← (field "state").optionalTail Json.str?
    postcode := ← (field "postcode").optionalTail Json.str?
    country := ← (field "country").optionalTail Json.str?
    latitude := ← (field "latitude").optionalTail Json.number?
    longitude := ← (field "longitude").optionalTail Json.number? }

end Location

/-! ### Public values -/

namespace Double

def toJson (d : Double) : Json := (d.int64?.map Json.int).getD (.float d)

end Double

namespace Value

def toJson : Value → Json
  | .text s => .str s
  | .number value => value.toJson
  | .currency amount code => .obj [("amount", amount.toJson), ("currency", .str code)]
  | .boolean b => .bool b
  | .date s => .str s
  | .reference id => .str id.text
  | .personalName name => name.toJson
  | .location place => place.toJson
  | .json j => j
  | .set members => .arr members

def number? : Value → Option Double
  | .number value => some value
  | .currency amount _ => some amount
  | _ => none

def text? : Value → Option String
  | .text s | .date s => some s
  | _ => none

def reference? : Value → Option Id
  | .reference id => some id
  | _ => none

end Value

end RecordStore
