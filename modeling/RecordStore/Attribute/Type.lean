/-!
# Value types

Every value type is stored in exactly one slot, and the slot decides which filter operators a
condition may use. A multiselect attribute stores a set in the structured slot and has the
membership operators, whatever its type.
-/

namespace RecordStore

inductive ValueType where
  | text | number | currency | rating | checkbox | date | timestamp | email | phone | domain
  | select | status | personalName | location | recordReference | actorReference | interaction
deriving DecidableEq

inductive Slot where
  | text | number | boolean | date | structured | reference
deriving DecidableEq

inductive Operator where
  | equals | notEquals | contains | notContains | startsWith | endsWith
  | greater | greaterOrEqual | less | lessOrEqual | isIn | isNotIn | isEmpty | isNotEmpty
deriving DecidableEq

namespace ValueType

def names : List (String × ValueType) := [
  ("text", .text), ("number", .number), ("currency", .currency), ("rating", .rating),
  ("checkbox", .checkbox), ("date", .date), ("timestamp", .timestamp), ("email_address", .email),
  ("phone_number", .phone), ("domain", .domain), ("select", .select), ("status", .status),
  ("personal_name", .personalName), ("location", .location),
  ("record_reference", .recordReference), ("actor_reference", .actorReference),
  ("interaction", .interaction)]

def name : ValueType → String
  | .text => "text"
  | .number => "number"
  | .currency => "currency"
  | .rating => "rating"
  | .checkbox => "checkbox"
  | .date => "date"
  | .timestamp => "timestamp"
  | .email => "email_address"
  | .phone => "phone_number"
  | .domain => "domain"
  | .select => "select"
  | .status => "status"
  | .personalName => "personal_name"
  | .location => "location"
  | .recordReference => "record_reference"
  | .actorReference => "actor_reference"
  | .interaction => "interaction"

theorem lookup_names (t : ValueType) : names.lookup t.name = some t := by cases t <;> decide

def slot : ValueType → Slot
  | .text | .email | .phone | .domain => .text
  | .number | .currency | .rating => .number
  | .checkbox => .boolean
  | .date | .timestamp => .date
  | .personalName | .location | .interaction => .structured
  | .select | .status | .recordReference | .actorReference => .reference

def allowsSets : ValueType → Bool
  | .select | .recordReference | .actorReference | .email | .phone | .domain => true
  | _ => false

theorem slot_of_allowsSets {t : ValueType} (h : t.allowsSets = true) :
    t.slot = .text ∨ t.slot = .reference := by
  revert h
  cases t <;> decide

def isSortable (t : ValueType) : Bool := t.slot != .structured

def isSearchable (t : ValueType) : Bool :=
  t.slot == .text || t == .personalName || t == .location

end ValueType

namespace Slot

def name : Slot → String
  | .text => "text"
  | .number => "number"
  | .boolean => "boolean"
  | .date => "date"
  | .structured => "structured"
  | .reference => "reference"

def names : List (String × Slot) :=
  [Slot.text, .number, .boolean, .date, .structured, .reference].map fun s => (s.name, s)

def label : Slot → String
  | .text => "Text"
  | .number => "Number"
  | .boolean => "Boolean"
  | .date => "Date"
  | .structured => "Structured"
  | .reference => "Reference"

def operators : Slot → List Operator
  | .text => [.equals, .notEquals, .contains, .notContains, .startsWith, .endsWith, .isIn,
      .isNotIn, .isEmpty, .isNotEmpty]
  | .number => [.equals, .notEquals, .greater, .greaterOrEqual, .less, .lessOrEqual, .isIn,
      .isNotIn, .isEmpty, .isNotEmpty]
  | .boolean => [.equals, .notEquals, .isEmpty, .isNotEmpty]
  | .date => [.equals, .notEquals, .greater, .greaterOrEqual, .less, .lessOrEqual, .isEmpty,
      .isNotEmpty]
  | .reference => [.equals, .notEquals, .isIn, .isNotIn, .isEmpty, .isNotEmpty]
  | .structured => [.isEmpty, .isNotEmpty]

end Slot

namespace Operator

def name : Operator → String
  | .equals => "equals"
  | .notEquals => "not_equals"
  | .contains => "contains"
  | .notContains => "not_contains"
  | .startsWith => "starts_with"
  | .endsWith => "ends_with"
  | .greater => "greater_than"
  | .greaterOrEqual => "greater_than_or_equals"
  | .less => "less_than"
  | .lessOrEqual => "less_than_or_equals"
  | .isIn => "in"
  | .isNotIn => "not_in"
  | .isEmpty => "is_empty"
  | .isNotEmpty => "is_not_empty"

def names : List (String × Operator) :=
  [Operator.equals, .notEquals, .contains, .notContains, .startsWith, .endsWith, .greater,
    .greaterOrEqual, .less, .lessOrEqual, .isIn, .isNotIn, .isEmpty, .isNotEmpty].map
    fun o => (o.name, o)

theorem lookup_names (o : Operator) : names.lookup o.name = some o := by cases o <;> decide

def onSets : List Operator :=
  [.contains, .notContains, .isIn, .isNotIn, .isEmpty, .isNotEmpty]

/-- Whether the operator holds exactly when its positive counterpart does not. -/
def isNegated : Operator → Bool
  | .notEquals | .notContains | .isNotIn => true
  | _ => false

def positive : Operator → Operator
  | .notEquals => .equals
  | .notContains => .contains
  | .isNotIn => .isIn
  | other => other

def takesOperand : Operator → Bool
  | .isEmpty | .isNotEmpty => false
  | _ => true

end Operator

end RecordStore
