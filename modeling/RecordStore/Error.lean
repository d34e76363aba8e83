import RecordStore.Attribute.Type
import RecordStore.Id
import RecordStore.Json.Printer

/-!
# Errors

What can go wrong, by kind: a fault of the storage, something that does not exist, an input that is
not valid, a conflict with what is stored, and a step that a policy forbids. One outcome belongs to
no kind: a date whose day in universal time lies outside the calendar.
-/

namespace RecordStore

inductive Entity where
  | object | list | record | entry | attribute | parent | option | status
deriving DecidableEq

namespace Entity

def label : Entity → String
  | .object => "object"
  | .list => "list"
  | .record => "record"
  | .entry => "list entry"
  | .attribute => "attribute"
  | .parent => "attribute parent"
  | .option => "select option"
  | .status => "status"

end Entity

inductive NameField where
  | singularName | pluralName | listName | attributeTitle | optionTitle | statusTitle
deriving DecidableEq

namespace NameField

def label : NameField → String
  | .singularName => "singular name"
  | .pluralName => "plural name"
  | .listName => "list name"
  | .attributeTitle => "attribute title"
  | .optionTitle => "option title"
  | .statusTitle => "status title"

end NameField

inductive QueryPart where
  | filter | sort
deriving DecidableEq

namespace QueryPart

def label : QueryPart → String
  | .filter => "filter"
  | .sort => "sort"

end QueryPart

inductive Fault where
  | wrongSlot (type : ValueType) (slot : Slot)
  | notASet (slug : String)
  | malformed
  | outOfCalendar
  | unwritableInstant
  /-- No place of 32 bits is left. -/
  | placeOverflow
  | failpoint (key : String)
  /-- No data file can be made at a path. -/
  | cannotOpen
  /-- A path leads to a file of another kind. -/
  | notADatabase
  | nulInPath
  | malformedPath
  | unknownSetting (name : String)
  | unknownSettingValue (name value : String)
  | unknownFileSystem (name : String)

/-- Inputs that are not valid. A `slug` is that of the attribute concerned. -/
inductive Invalid where
  | slugEmpty
  | slugTooLong (slug : String)
  | slugShape (slug : String)
  | nameBlank (field : NameField)
  | setsNotAllowed (type : ValueType)
  | optionsNotAllowed
  | statusesNotAllowed
  | settingsNotObject
  | unknownType (name : String)
  | malformedId (text : String)
  | malformedDate (text : String)
  | malformedTimestamp (text : String)
  | stringExpected (slug : String) (given : Json)
  | numberExpected (slug : String) (given : Json)
  | booleanExpected (slug : String) (given : Json)
  | notAnId (slug text : String)
  | notACurrencyCode (slug code : String)
  | notAnEmail (slug email : String)
  | ratingOutOfRange (slug : String) (max : Double)
  | amountMissing (slug : String)
  | notAnOption (slug : String) (id : Id)
  | notAStatus (slug : String) (id : Id)
  | malformedName (slug : String)
  | malformedLocation (slug : String)
  | interactionNotObject (slug : String)
  | unknownInQuery (part : QueryPart) (slug : String)
  | operatorNotSupported (operator : Operator) (slug : String) (type : ValueType)
  | operandMissing (slug : String) (operator : Operator)
  | singleOperandOnly (slug : String) (operator : Operator)
  | emptyMember (slug : String)
  | unknownAttribute (slug : String)
  | requiredMissing (slug : String)
  | requiredCleared (slug : String)
  | uniqueTooLong (slug : String)
  | unknownMatching (slug : String)
  | matchingMissing (slug : String)
  | storageFixed (slug : String)
  | notChoices (slug : String) (expected : ValueType)
  | foreignRecord (record : Id) (list : String)
  | foreignList (list : String) (object : Id)
  | reorderRepeats
  | reorderUnknown (object : Id)
  | malformedConfig
  | notAFile

inductive Conflict where
  | objectSlug (slug : String)
  | attributeSlug (slug : String)
  | listSlug (slug : String)
  | alreadyListed (record : Id) (list : String)
  | valueInUse (slug : String)
  | repeatedValues (slug : String)
  | uniqueIndex

inductive Forbidden where
  | deleteObject (slug : String)
  | deleteAttribute (slug : String)
  | retypeAttribute (slug : String)

inductive Error where
  | storage (cause : Fault)
  | notFound (entity : Entity) (id : Id)
  | invalid (cause : Invalid)
  | conflict (cause : Conflict)
  | policy (cause : Forbidden)
  /-- The day in universal time lies outside the years -9999 to 9999. -/
  | calendarOverflow

def require (condition : Prop) [Decidable condition] (e : Error) : Except Error Unit :=
  if condition then .ok () else .error e

theorem require_eq_ok_iff {condition : Prop} [Decidable condition] {e : Error} :
    require condition e = .ok () ↔ condition := by
  by_cases h : condition <;> simp [require, h]

theorem require_eq_error_iff {condition : Prop} [Decidable condition] {e e' : Error} :
    require condition e = .error e' ↔ ¬ condition ∧ e = e' := by
  by_cases h : condition <;> simp [require, h]

theorem bind_eq_ok_iff {α β : Type} {x : Except Error α} {f : α → Except Error β} {b : β} :
    x >>= f = .ok b ↔ ∃ a, x = .ok a ∧ f a = .ok b := by
  cases x with
  | ok a =>
    constructor
    · exact fun h => ⟨a, rfl, h⟩
    · rintro ⟨a', h, hf⟩
      cases h
      exact hf
  | error e =>
    constructor
    · exact fun h => nomatch h
    · rintro ⟨a, h, -⟩
      cases h

theorem bind_eq_error_iff {α β : Type} {x : Except Error α} {f : α → Except Error β} {e : Error} :
    x >>= f = .error e ↔ x = .error e ∨ ∃ a, x = .ok a ∧ f a = .error e := by
  cases x <;> simp [bind, Except.bind]

theorem map_eq_ok_iff {α β : Type} {x : Except Error α} {f : α → β} {b : β} :
    x.map f = .ok b ↔ ∃ a, x = .ok a ∧ f a = b := by
  cases x <;> simp [Except.map]

theorem bind_pure_eq_ok_iff {α β : Type} {x : Except Error α} {f : α → β} {b : β} :
    (x >>= fun v => .ok (f v)) = .ok b ↔ x.toOption.map f = some b := by
  cases x with
  | error e => simp [bind, Except.bind, Except.toOption]
  | ok v => simp [bind, Except.bind, Except.toOption]

theorem exists_eq_error_iff {α : Type} {x : Except Error α} :
    (∃ e, x = .error e) ↔ ¬ ∃ v, x = .ok v := by
  cases x <;> simp

theorem ok_bind {α β : Type} (v : α) (f : α → Except Error β) : (.ok v >>= f) = f v := rfl

def Fault.message : Fault → String
  | .wrongSlot type slot => s!"{type.name} value stored in {slot.label} slot"
  | .notASet slug => s!"{slug}: multiselect row is not a set"
  | .malformed => "json"
  | .outOfCalendar => "timestamp out of range"
  | .unwritableInstant => "format timestamp"
  | .placeOverflow => "attempt to add with overflow"
  | .failpoint key => s!"failpoint {key}"
  | .cannotOpen =>
    "Connection Error: error returned from database: (code: 14) unable to open database file"
  | .notADatabase =>
    "Execution Error: error returned from database: (code: 26) file is not a database"
  | .nulInPath =>
    "Connection Error: error communicating with database: " ++
      "filename passed to SQLite must not contain nul bytes"
  | .malformedPath => "Connection Error: error with configuration: invalid utf-8 sequence"
  | .unknownSetting name =>
    "Connection Error: error with configuration: " ++
      "unknown query parameter `" ++ name ++ "` while parsing connection URL"
  | .unknownSettingValue name value =>
    "Connection Error: error with configuration: unknown value " ++ (Json.str value).text ++
      " for `" ++ name ++ "`"
  | .unknownFileSystem name =>
    "Connection Error: error returned from database: (code: 1) no such vfs: " ++ name

def Invalid.message : Invalid → String
  | .slugEmpty => "slug is required"
  | .slugTooLong slug => s!"slug '{slug}' is longer than 64 characters"
  | .slugShape slug => s!"slug '{slug}' must match [a-z][a-z0-9_]*"
  | .nameBlank field => s!"{field.label} is required"
  | .setsNotAllowed type => s!"{type.name} attributes cannot be multiselect"
  | .optionsNotAllowed => "options are only allowed on select attributes"
  | .statusesNotAllowed => "statuses are only allowed on status attributes"
  | .settingsNotObject => "attribute config must be an object"
  | .unknownType name => s!"unknown attribute type '{name}'"
  | .malformedId text => s!"invalid id '{text}'"
  | .malformedDate text => s!"invalid date '{text}'"
  | .malformedTimestamp text => s!"invalid timestamp '{text}'"
  | .stringExpected slug given => s!"{slug}: expected a string, got {given.text}"
  | .numberExpected slug given => s!"{slug}: expected a number, got {given.text}"
  | .booleanExpected slug given => s!"{slug}: expected a boolean, got {given.text}"
  | .notAnId slug text => s!"{slug}: '{text}' is not an id"
  | .notACurrencyCode slug code => s!"{slug}: '{code}' is not a currency code"
  | .notAnEmail slug email => s!"{slug}: '{email}' is not an email address"
  | .ratingOutOfRange slug max =>
    s!"{slug}: rating must be a whole number between 0 and {max.plain}"
  | .amountMissing slug => s!"{slug}: amount is required"
  | .notAnOption slug id => s!"{slug}: {id} is not an option of this attribute"
  | .notAStatus slug id => s!"{slug}: {id} is not a status of this attribute"
  | .malformedName slug => s!"{slug}: invalid personal name"
  | .malformedLocation slug => s!"{slug}: invalid location"
  | .interactionNotObject slug => s!"{slug}: interaction must be an object"
  | .unknownInQuery part slug => s!"{part.label}: unknown attribute '{slug}'"
  | .operatorNotSupported operator slug type =>
    s!"operator {operator.name} is not supported on {slug} ({type.name})"
  | .operandMissing slug operator => s!"{slug}: operator {operator.name} requires a value"
  | .singleOperandOnly slug operator => s!"{slug}: operator {operator.name} takes a single value"
  | .emptyMember slug => s!"{slug}: empty set member in filter"
  | .unknownAttribute slug => s!"unknown attribute '{slug}'"
  | .requiredMissing slug => s!"{slug} is required"
  | .requiredCleared slug => s!"{slug} is required and cannot be cleared"
  | .uniqueTooLong slug => s!"{slug}: unique values are limited to 255 characters"
  | .unknownMatching slug => s!"unknown matching attribute '{slug}'"
  | .matchingMissing slug => s!"{slug}: a matching value is required"
  | .storageFixed slug => s!"{slug} has values; its storage cannot change"
  | .notChoices slug expected => s!"{slug} is not a {expected.name} attribute"
  | .foreignRecord record list => s!"record {record} does not belong to the object of list {list}"
  | .foreignList list object => s!"list {list} does not belong to object {object}"
  | .reorderRepeats => "reorder contains duplicate record ids"
  | .reorderUnknown object => s!"reorder contains ids that are not records of object {object}"
  | .malformedConfig => "parse config"
  | .notAFile => "config is not sqlite backend"

def Conflict.message : Conflict → String
  | .objectSlug slug => s!"object slug '{slug}' already exists"
  | .attributeSlug slug => s!"attribute slug '{slug}' already exists"
  | .listSlug slug => s!"list slug '{slug}' already exists"
  | .alreadyListed record list => s!"record {record} is already in list {list}"
  | .valueInUse slug => s!"{slug} must be unique; value already in use"
  | .repeatedValues slug => s!"{slug} has duplicate values and cannot be made unique"
  | .uniqueIndex => "UNIQUE constraint failed"

def Forbidden.message : Forbidden → String
  | .deleteObject slug => s!"system object '{slug}' cannot be deleted"
  | .deleteAttribute slug => s!"system attribute '{slug}' cannot be deleted"
  | .retypeAttribute slug => s!"system attribute '{slug}' cannot change type"

/-- The message of an error, with the kind it belongs to in front. -/
def Error.message : Error → String
  | .storage cause => s!"storage error: {cause.message}"
  | .notFound entity id => s!"not found: {entity.label} {id}"
  | .invalid cause => s!"validation error: {cause.message}"
  | .conflict cause => s!"conflict: {cause.message}"
  | .policy cause => s!"policy violation: {cause.message}"
  | .calendarOverflow => "date out of the calendar"

end RecordStore
