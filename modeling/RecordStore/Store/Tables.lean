import RecordStore.Json.Reader
import RecordStore.Query.Basic

/-!
# Tables

A store is nine tables: objects with their attributes and the attributes' choices, records and
lists of an object, entries of a list, and the stored values of records and of entries. Tables are
lists of rows; the order of rows carries no meaning.
-/

namespace RecordStore

/-! ### Rows -/

structure Object where
  id : Id
  workspace : Id
  slug : String
  singularName : String
  pluralName : String
  icon : Option String
  isSystem : Bool
  createdAt : Timestamp
deriving DecidableEq

structure Record where
  id : Id
  objectId : Id
  position : Option Int
  createdAt : Timestamp
  createdBy : Option Id
  updatedAt : Timestamp
deriving DecidableEq

structure RecordList where
  id : Id
  objectId : Id
  name : String
  slug : String
  isPrivate : Bool
  createdBy : Option Id
  createdAt : Timestamp
deriving DecidableEq

/-- A record's place in a list, without the entry's values. -/
structure Entry where
  id : Id
  listId : Id
  recordId : Id
  createdAt : Timestamp
  createdBy : Option Id
  updatedAt : Timestamp
deriving DecidableEq

/-- A stored value: of which record or entry, for which attribute, and its key if it is unique. -/
structure ValueRow where
  owner : Id
  attributeId : Id
  cell : Cell
  uniqueKey : Option String

inductive ValueTable where
  | records | entries
deriving DecidableEq

def Parent.valueTable : Parent → ValueTable
  | .object _ => .records
  | .list _ => .entries

/-! ### Unique indexes

Two rows may stand in one table only if they are apart: no two have the same id, and no two the
same name in the same place.
-/

def Object.Apart (o p : Object) : Prop :=
  o.id ≠ p.id ∧ ¬ (o.workspace = p.workspace ∧ o.slug = p.slug)

instance (o p : Object) : Decidable (o.Apart p) := inferInstanceAs (Decidable (_ ∧ _))

def AttributeHead.Apart (a b : AttributeHead) : Prop :=
  a.id ≠ b.id ∧ ¬ (a.parent = b.parent ∧ a.slug = b.slug)

instance (a b : AttributeHead) : Decidable (a.Apart b) := inferInstanceAs (Decidable (_ ∧ _))

def SelectOption.Apart (o p : SelectOption) : Prop := o.id ≠ p.id

instance (o p : SelectOption) : Decidable (o.Apart p) := inferInstanceAs (Decidable (_ ≠ _))

def Status.Apart (t u : Status) : Prop := t.id ≠ u.id

instance (t u : Status) : Decidable (t.Apart u) := inferInstanceAs (Decidable (_ ≠ _))

def Record.Apart (r q : Record) : Prop := r.id ≠ q.id

instance (r q : Record) : Decidable (r.Apart q) := inferInstanceAs (Decidable (_ ≠ _))

def RecordList.Apart (l m : RecordList) : Prop :=
  l.id ≠ m.id ∧ ¬ (l.objectId = m.objectId ∧ l.slug = m.slug)

instance (l m : RecordList) : Decidable (l.Apart m) := inferInstanceAs (Decidable (_ ∧ _))

def Entry.Apart (e f : Entry) : Prop :=
  e.id ≠ f.id ∧ ¬ (e.listId = f.listId ∧ e.recordId = f.recordId)

instance (e f : Entry) : Decidable (e.Apart f) := inferInstanceAs (Decidable (_ ∧ _))

/-- Values of one attribute differ in owner, and in key if they have one. -/
def ValueRow.Apart (r q : ValueRow) : Prop :=
  r.attributeId = q.attributeId →
    r.owner ≠ q.owner ∧ (r.uniqueKey = q.uniqueKey → r.uniqueKey = none)

instance (r q : ValueRow) : Decidable (r.Apart q) := inferInstanceAs (Decidable (_ → _ ∧ _))

/-! ### Stored form -/

/-- What is read back of a JSON value that is kept as text. A value comes in as a part of a text
that nests at most 127 levels, and nothing that is stored of it nests deeper; so it is never too
deep to be read again. -/
def Json.kept (j : Json) : Json := (Json.parse? j.text).getD j

/-- What is read back of a cell: structured values are kept as text, and a zero loses its sign. -/
def Cell.kept : Cell → Cell
  | .structured j => .structured j.kept
  | .number value unit => .number value.withoutZeroSign unit
  | other => other

/-- What is read back of an attribute: its settings are kept as text. -/
def AttributeHead.kept (a : AttributeHead) : AttributeHead := { a with settings := a.settings.kept }

/-! ### Store -/

structure Store where
  objects : List Object
  attributes : List AttributeHead
  options : List SelectOption
  statuses : List Status
  records : List Record
  lists : List RecordList
  entries : List Entry
  recordValues : List ValueRow
  entryValues : List ValueRow

namespace Store

def empty : Store := ⟨[], [], [], [], [], [], [], [], []⟩

def values (s : Store) : ValueTable → List ValueRow
  | .records => s.recordValues
  | .entries => s.entryValues

def setValues (s : Store) (table : ValueTable) (rows : List ValueRow) : Store :=
  match table with
  | .records => { s with recordValues := rows }
  | .entries => { s with entryValues := rows }

section

variable (s : Store) (table : ValueTable) (rows : List ValueRow)

@[simp] theorem values_setValues : (s.setValues table rows).values table = rows := by
  cases table <;> rfl

theorem values_setValues_of_ne {other : ValueTable} (h : other ≠ table) :
    (s.setValues table rows).values other = s.values other := by
  cases table <;> cases other <;> first | rfl | exact absurd rfl h

@[simp] theorem setValues_values : s.setValues table (s.values table) = s := by
  cases table <;> rfl

@[simp] theorem setValues_setValues (others : List ValueRow) :
    (s.setValues table rows).setValues table others = s.setValues table others := by
  cases table <;> rfl

@[simp] theorem objects_setValues : (s.setValues table rows).objects = s.objects := by
  cases table <;> rfl

@[simp] theorem attributes_setValues : (s.setValues table rows).attributes = s.attributes := by
  cases table <;> rfl

@[simp] theorem options_setValues : (s.setValues table rows).options = s.options := by
  cases table <;> rfl

@[simp] theorem statuses_setValues : (s.setValues table rows).statuses = s.statuses := by
  cases table <;> rfl

@[simp] theorem records_setValues : (s.setValues table rows).records = s.records := by
  cases table <;> rfl

@[simp] theorem lists_setValues : (s.setValues table rows).lists = s.lists := by
  cases table <;> rfl

@[simp] theorem entries_setValues : (s.setValues table rows).entries = s.entries := by
  cases table <;> rfl

end

/-! ### Looking up -/

def object? (s : Store) (id : Id) : Option Object := s.objects.find? fun o => o.id == id

def requireObject (s : Store) (id : Id) : Except Error Object :=
  match s.object? id with
  | some o => .ok o
  | none => .error (.notFound .object id)

theorem requireObject_eq_ok_iff {s : Store} {id : Id} {o : Object} :
    s.requireObject id = .ok o ↔ s.object? id = some o := by
  rw [requireObject]
  cases s.object? id <;> simp

def record? (s : Store) (id : Id) : Option Record := s.records.find? fun r => r.id == id

def requireRecord (s : Store) (objectId id : Id) : Except Error Record :=
  match s.record? id with
  | some r => if r.objectId = objectId then .ok r else .error (.notFound .record id)
  | none => .error (.notFound .record id)

theorem requireRecord_eq_ok_iff {s : Store} {objectId id : Id} {r : Record} :
    s.requireRecord objectId id = .ok r ↔ s.record? id = some r ∧ r.objectId = objectId := by
  rw [requireRecord]
  cases s.record? id with
  | none => simp
  | some q =>
    dsimp only
    constructor
    · intro h
      split at h
      · cases h
        exact ⟨rfl, ‹_›⟩
      · cases h
    · rintro ⟨hq, hobject⟩
      cases hq
      exact if_pos hobject

def list? (s : Store) (id : Id) : Option RecordList := s.lists.find? fun l => l.id == id

def requireList (s : Store) (id : Id) : Except Error RecordList :=
  match s.list? id with
  | some l => .ok l
  | none => .error (.notFound .list id)

theorem requireList_eq_ok_iff {s : Store} {id : Id} {l : RecordList} :
    s.requireList id = .ok l ↔ s.list? id = some l := by
  rw [requireList]
  cases s.list? id <;> simp

def entry? (s : Store) (id : Id) : Option Entry := s.entries.find? fun e => e.id == id

def requireEntry (s : Store) (id : Id) : Except Error Entry :=
  match s.entry? id with
  | some e => .ok e
  | none => .error (.notFound .entry id)

theorem requireEntry_eq_ok_iff {s : Store} {id : Id} {e : Entry} :
    s.requireEntry id = .ok e ↔ s.entry? id = some e := by
  rw [requireEntry]
  cases s.entry? id <;> simp

def recordsOf (s : Store) (objectId : Id) : List Record :=
  s.records.filter fun r => r.objectId == objectId

def entriesOf (s : Store) (listId : Id) : List Entry := s.entries.filter fun e => e.listId == listId

/-! ### Attributes -/

/-- An attribute as it is read: with the choices of its type, in their order. -/
def withChoices (s : Store) (head : AttributeHead) : Attribute :=
  { head.kept with
    options :=
      if head.type = .select then
        (s.options.filter fun o => o.attributeId == head.id).mergeSort
          fun a b => a.sortOrder ≤ b.sortOrder
      else []
    statuses :=
      if head.type = .status then
        (s.statuses.filter fun t => t.attributeId == head.id).mergeSort
          fun a b => a.sortOrder ≤ b.sortOrder
      else [] }

theorem id_withChoices (s : Store) (head : AttributeHead) : (s.withChoices head).id = head.id := rfl

theorem parent_withChoices (s : Store) (head : AttributeHead) :
    (s.withChoices head).parent = head.parent := rfl

def displayedBefore (a b : AttributeHead) : Bool :=
  ((compare a.sortOrder b.sortOrder).then (compare a.slug b.slug)).isLE

def attributesOf (s : Store) (parent : Parent) : List Attribute :=
  ((s.attributes.filter fun a => a.parent == parent).mergeSort displayedBefore).map s.withChoices

def attribute? (s : Store) (id : Id) : Option Attribute :=
  (s.attributes.find? fun a => a.id == id).map s.withChoices

def requireAttribute (s : Store) (id : Id) : Except Error Attribute :=
  match s.attribute? id with
  | some a => .ok a
  | none => .error (.notFound .attribute id)

theorem requireAttribute_eq_ok_iff {s : Store} {id : Id} {a : Attribute} :
    s.requireAttribute id = .ok a ↔ s.attribute? id = some a := by
  rw [requireAttribute]
  cases s.attribute? id <;> simp

end Store

end RecordStore
