import RecordStore.Keyed
import RecordStore.Number.Rounding
import RecordStore.Text.Blank

/-!
# JSON values

Numbers are integers or floats, and the two never compare equal: `1` and `1.0` are different
values. Objects hold their members in the order of their keys, each key once.
-/

namespace RecordStore

inductive Json where
  | null
  | bool (b : Bool)
  | int (n : Int)
  | float (d : Double)
  | str (s : String)
  | arr (items : List Json)
  | obj (members : List (String × Json))

namespace Json

instance : Inhabited Json := ⟨.null⟩

/-! ### Equality -/

mutual

/-- Equality of values: floats compare as numbers, so the two zeros are equal. -/
def same : Json → Json → Bool
  | .null, .null => true
  | .bool a, .bool b => a == b
  | .int a, .int b => a == b
  | .float a, .float b => a.same b
  | .str a, .str b => a == b
  | .arr a, .arr b => sameItems a b
  | .obj a, .obj b => sameMembers a b
  | _, _ => false

def sameItems : List Json → List Json → Bool
  | [], [] => true
  | a :: as, b :: bs => same a b && sameItems as bs
  | _, _ => false

def sameMembers : List (String × Json) → List (String × Json) → Bool
  | [], [] => true
  | (k, a) :: as, (l, b) :: bs => k == l && same a b && sameMembers as bs
  | _, _ => false

end

/-! ### Blank values -/

mutual

/-- Null, blank text, and arrays and objects of nothing else mean that there is no value. -/
def isBlank : Json → Bool
  | .null => true
  | .str s => Text.isBlank s
  | .arr items => blankItems items
  | .obj members => blankMembers members
  | _ => false

def blankItems : List Json → Bool
  | [] => true
  | item :: rest => isBlank item && blankItems rest

def blankMembers : List (String × Json) → Bool
  | [] => true
  | (_, value) :: rest => isBlank value && blankMembers rest

end

theorem isBlank_str (s : String) : (str s).isBlank = Text.isBlank s := by rw [isBlank]

theorem isBlank_arr_cons {item : Json} (h : item.isBlank = false) (rest : List Json) :
    (arr (item :: rest)).isBlank = false := by
  rw [isBlank, blankItems, h, Bool.false_and]

/-! ### Parts -/

def str? : Json → Option String
  | .str s => some s
  | _ => none

def members? : Json → Option (List (String × Json))
  | .obj members => some members
  | _ => none

def member? (key : String) (j : Json) : Option Json := j.members?.bind (·.lookup key)

def isObject (j : Json) : Bool := j.members?.isSome

def number? : Json → Option Double
  | .int n => Double.ofInt? n
  | .float d => some d
  | _ => none

def intBetween? (low high : Int) : Json → Option Int
  | .int n => if low ≤ n ∧ n ≤ high then some n else none
  | _ => none

def natBelow? (bound : Nat) (j : Json) : Option Nat := (j.intBetween? 0 (bound - 1)).map Int.toNat

/-! ### Members in key order -/

mutual

def ordered : Json → Json
  | .arr items => .arr (orderedItems items)
  | .obj members => .obj (orderKeys (orderedMembers members))
  | other => other

def orderedItems : List Json → List Json
  | [] => []
  | item :: rest => ordered item :: orderedItems rest

def orderedMembers : List (String × Json) → List (String × Json)
  | [] => []
  | (key, value) :: rest => (key, ordered value) :: orderedMembers rest

end

end Json

end RecordStore
