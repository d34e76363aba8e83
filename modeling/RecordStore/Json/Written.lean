import RecordStore.Json

/-!
# JSON as it is written

What a text spells before anything is made of it. Members stand in the order of the text and a key
may come twice. A number beyond the doubles and a string with half a surrogate pair are written
correctly but have no value, so a part that nobody asks for may hold them.
-/

namespace RecordStore.Json

inductive Written where
  | null
  | bool (b : Bool)
  | number (value : Option Json)
  | str (value : Option String)
  | arr (items : List Written)
  | obj (members : List (Option String × Written))

namespace Written

instance : Inhabited Written := ⟨.null⟩

/-! ### Values -/

mutual

/-- The value that is written, if arrays and objects are nested no deeper than the given number of
levels and each part has a value. Of two members with one key the later counts. -/
def value? : Nat → Written → Option Json
  | _, .null => some .null
  | _, .bool b => some (.bool b)
  | _, .number value => value
  | _, .str value => value.map .str
  | 0, .arr _ => none
  | 0, .obj _ => none
  | depth + 1, .arr items => (itemValues? depth items).map .arr
  | depth + 1, .obj members =>
    (memberValues? depth members).map fun values => .obj (orderKeys values)

def itemValues? : Nat → List Written → Option (List Json)
  | _, [] => some []
  | depth, item :: rest => do
    let value ← value? depth item
    return value :: (← itemValues? depth rest)

def memberValues? : Nat → List (Option String × Written) → Option (List (String × Json))
  | _, [] => some []
  | depth, (key, item) :: rest => do
    let name ← key
    let value ← value? depth item
    return (name, value) :: (← memberValues? depth rest)

end

def plain? : Written → Option Json := value? 0

/-! ### Records -/

abbrev Field := String × (Written → Option Json)

/-- The members that belong to one of the fields, as these are read; the others are passed over. -/
def knownMembers? (fields : List Field) :
    List (Option String × Written) → Option (List (String × Json))
  | [] => some []
  | (none, _) :: _ => none
  | (some key, item) :: rest =>
    match fields.lookup key with
    | none => knownMembers? fields rest
    | some read => do
      let value ← read item
      return (key, value) :: (← knownMembers? fields rest)

/-- A record with the given fields: an object that has none of them twice, or an array of them in
their order. What else an object holds is not looked at. -/
def record? (fields : List Field) : Written → Option Json
  | .obj members => do
    let known ← knownMembers? fields members
    if (known.map Prod.fst).Nodup then some (.obj (orderKeys known)) else none
  | .arr items =>
    if fields.length < items.length then none
    else ((fields.zip items).mapM fun (pair : Field × Written) => pair.1.2 pair.2).map .arr
  | other => other.plain?

def plainItems? : Written → Option Json
  | .arr items => value? 1 (.arr items)
  | other => other.plain?

def choice? : Written → Option Json
  | .obj [member] => value? 1 (.obj [member])
  | other => other.plain?

end Written

end RecordStore.Json
