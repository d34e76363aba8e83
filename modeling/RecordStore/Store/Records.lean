import RecordStore.Store.Values

/-!
# Records

A record is created with values for its object's attributes and changed attribute by attribute. It
can also be asserted: found by the value of one attribute, and created if there is none.
-/

namespace RecordStore

structure NewRecord where
  objectId : Id
  values : List (String × Json)
  actor : Option Id

/-- Changes to a record: the attributes named get new values, or none where the value is blank. -/
structure RecordChanges where
  objectId : Id
  recordId : Id
  values : List (String × Json)
  actor : Option Id

/-- A record that is to exist, known by the value of one attribute. -/
structure RecordAssertion where
  objectId : Id
  matching : String
  matchingValue : Json
  values : List (String × Json)
  actor : Option Id

structure RecordView where
  record : Record
  values : List (String × Value)

def addMissing (slug : String) (value : Json) (values : List (String × Json)) :
    List (String × Json) :=
  if (values.lookup slug).isSome then values else insertKey slug value values

/-- Whether a record is older than another or as old; of two of one time the one with the lower id
is the older. -/
def olderRecord (a b : Record) : Bool :=
  ((compare a.createdAt.micros b.createdAt.micros).then (compare a.id b.id)).isLE

/-! ### Pools -/

section

variable {α : Type}

def draw? (key : Id) (pool : List (Id × α)) : Option (α × List (Id × α)) :=
  (pool.lookup key).map fun item => (item, pool.filter fun p => p.1 != key)

/-- The items under the given keys, in turn; no item is drawn twice. -/
def drawInOrder : List Id → List (Id × α) → List α
  | [], _ => []
  | key :: rest, pool =>
    match draw? key pool with
    | some (item, others) => item :: drawInOrder rest others
    | none => drawInOrder rest pool

end

namespace Store

/-! ### Views -/

def recordView (s : Store) (record : Record) : RecordView :=
  ⟨record, shownValues s.recordValues (s.attributesOf (.object record.objectId)) record.id⟩

def recordView? (s : Store) (objectId id : Id) : Option RecordView :=
  ((s.record? id).filter fun r => r.objectId == objectId).map s.recordView

/-- The views of those records of an object that have one of the given ids, under their ids. -/
def recordViews (s : Store) (objectId : Id) (ids : List Id) : List (Id × RecordView) :=
  ((s.recordsOf objectId).filter fun r => ids.contains r.id).map fun r => (r.id, s.recordView r)

def requireRecordView (s : Store) (objectId id : Id) : Except Error RecordView :=
  match s.recordView? objectId id with
  | some view => .ok view
  | none => .error (.notFound .record id)

theorem requireRecordView_eq_ok_iff {s : Store} {objectId id : Id} {view : RecordView} :
    s.requireRecordView objectId id = .ok view ↔ s.recordView? objectId id = some view := by
  rw [requireRecordView]
  cases s.recordView? objectId id <;> simp

def oldestWith? (s : Store) (objectId : Id) (a : Attribute) (cell : Cell) : Option Record :=
  let found := (s.recordsOf objectId).filter fun r =>
    (cellOf? s.recordValues r.id a.toAttributeHead).any
      fun stored => stored.canonicalKey == cell.canonicalKey
  (found.mergeSort olderRecord).head?

end Store

namespace Session

/-! ### Writing -/

def insertRecord (record : Record) : Session Unit :=
  write (fun s => ∀ r ∈ s.records, r.Apart record)
    fun s => { s with records := s.records ++ [record] }

def touchRecord (id : Id) (now : Timestamp) : Session Unit :=
  modify fun s => { s with
    records := s.records.map fun r => if r.id = id then { r with updatedAt := now } else r }

def createRecord (stamp : Stamp) (new : NewRecord) : Session RecordView := do
  let _ ← look fun s => s.requireObject new.objectId
  let s ← get
  let prepared ← prepareValues (s.attributesOf (.object new.objectId)) new.values .create
  let record : Record := {
    id := stamp.fresh 0
    objectId := new.objectId
    position := none
    createdAt := stamp.now
    createdBy := new.actor
    updatedAt := stamp.now }
  transaction do
    insertRecord record
    applyValues .records record.id prepared
  look fun s => s.requireRecordView new.objectId record.id

def updateRecord (stamp : Stamp) (changes : RecordChanges) : Session RecordView := do
  let _ ← look fun s => s.requireRecord changes.objectId changes.recordId
  let s ← get
  let prepared ← prepareValues (s.attributesOf (.object changes.objectId)) changes.values .update
  transaction do
    applyValues .records changes.recordId prepared
    touchRecord changes.recordId stamp.now
  look fun s => s.requireRecordView changes.objectId changes.recordId

/-- The attribute by whose value an asserted record is known, and the cell of that value. -/
def matchingCell (attributes : List Attribute) (assertion : RecordAssertion) :
    Except Error (Attribute × Cell) :=
  match attributes.find? fun a => a.slug == assertion.matching with
  | none => .error (.invalid (.unknownMatching assertion.matching))
  | some a => do
    match ← encodeValue a assertion.matchingValue with
    | none => .error (.invalid (.matchingMissing a.slug))
    | some cell => return (a, cell)

/-- Changes the record that the matching value names, or creates it with that value. -/
def assertRecord (stamp : Stamp) (assertion : RecordAssertion) : Session RecordView := do
  let _ ← look fun s => s.requireObject assertion.objectId
  let s ← get
  let (a, cell) ← matchingCell (s.attributesOf (.object assertion.objectId)) assertion
  let values := addMissing a.slug assertion.matchingValue assertion.values
  match s.oldestWith? assertion.objectId a cell with
  | some r => updateRecord stamp ⟨assertion.objectId, r.id, values, assertion.actor⟩
  | none => createRecord stamp ⟨assertion.objectId, values, assertion.actor⟩

/-! ### Manual order -/

def placeRecord (id : Id) (place : Nat) : Session Unit :=
  modify fun s => { s with
    records := s.records.map fun r => if r.id = id then { r with position := some place } else r }

def placeRecords (place : Nat) : List Id → Session Unit
  | [] => pure ()
  | id :: rest => do
    placeRecord id place
    placeRecords (place + 1) rest

def reorder (objectId : Id) (ids : List Id) : Session Unit := do
  let _ ← look fun s => s.requireObject objectId
  let s ← get
  require ids.Nodup (.invalid .reorderRepeats)
  require (∀ id ∈ ids, (s.recordsOf objectId).any fun r => r.id == id)
    (.invalid (.reorderUnknown objectId))
  transaction (placeRecords 0 ids)

end Session

end RecordStore
