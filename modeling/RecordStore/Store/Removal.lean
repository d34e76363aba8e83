import RecordStore.Store.Values

/-!
# Removal

What is removed takes with it everything that depends on it: an attribute its choices and values,
an entry its values, a record its values and entries, a list its attributes and entries, an object
its lists, attributes and records. Values of other records that refer to a removed record stay.
-/

namespace RecordStore

def Store.listsOf (s : Store) (objectId : Id) : List RecordList :=
  (s.lists.filter fun l => l.objectId == objectId).mergeSort
    fun a b => a.createdAt.micros ≤ b.createdAt.micros

namespace Session

/-! ### Statements -/

def deleteOptionsOf (attributeIds : List Id) : Session Unit :=
  modify fun s => { s with
    options := s.options.filter fun o => !attributeIds.contains o.attributeId }

def deleteStatusesOf (attributeIds : List Id) : Session Unit :=
  modify fun s => { s with
    statuses := s.statuses.filter fun t => !attributeIds.contains t.attributeId }

def deleteAttributeRows (ids : List Id) : Session Unit :=
  modify fun s => { s with attributes := s.attributes.filter fun a => !ids.contains a.id }

def deleteEntriesOf (listId : Id) : Session Unit :=
  modify fun s => { s with entries := s.entries.filter fun e => e.listId != listId }

def deleteEntriesFor (recordId : Id) : Session Unit :=
  modify fun s => { s with entries := s.entries.filter fun e => e.recordId != recordId }

def deleteEntryRow (id : Id) : Session Unit :=
  modify fun s => { s with entries := s.entries.filter fun e => e.id != id }

def deleteListRow (id : Id) : Session Unit :=
  modify fun s => { s with lists := s.lists.filter fun l => l.id != id }

def deleteRecordRow (id : Id) : Session Unit :=
  modify fun s => { s with records := s.records.filter fun r => r.id != id }

def deleteRecordsOf (objectId : Id) : Session Unit :=
  modify fun s => { s with records := s.records.filter fun r => r.objectId != objectId }

def deleteObjectRow (id : Id) : Session Unit :=
  modify fun s => { s with objects := s.objects.filter fun o => o.id != id }

/-! ### Parts -/

def purgeAttributes (setup : Setup) (table : ValueTable) (ids : List Id) : Session Unit :=
  if ids = [] then pure ()
  else do
    deleteOptionsOf ids
    deleteStatusesOf ids
    deleteAttributeValues table ids
    setup.pass .valuesDeleted
    deleteAttributeRows ids

/-- Deletes a list with what depends on it; records stay. -/
def purgeList (setup : Setup) (id : Id) : Session Unit := do
  let s ← get
  purgeAttributes setup .entries ((s.attributesOf (.list id)).map (·.id))
  let s ← get
  deleteOwnerValues .entries ((s.entriesOf id).map (·.id))
  deleteEntriesOf id
  setup.pass .entriesDeleted
  deleteListRow id

def purgeLists (setup : Setup) : List Id → Session Unit
  | [] => pure ()
  | id :: rest => do
    purgeList setup id
    purgeLists setup rest

def purgeObject (setup : Setup) (id : Id) : Session Unit := do
  let s ← get
  purgeLists setup ((s.listsOf id).map (·.id))
  let s ← get
  purgeAttributes setup .records ((s.attributesOf (.object id)).map (·.id))
  deleteRecordsOf id
  deleteObjectRow id

def purgeRecord (setup : Setup) (id : Id) : Session Unit := do
  let s ← get
  deleteOwnerValues .entries ((s.entries.filter fun e => e.recordId == id).map (·.id))
  deleteEntriesFor id
  setup.pass .entriesDeleted
  deleteOwnerValues .records [id]
  setup.pass .valuesDeleted
  deleteRecordRow id

/-! ### Removing by id -/

def deleteObject (setup : Setup) (id : Id) : Session Unit := do
  let object ← look fun s => s.requireObject id
  require (¬ object.isSystem) (.policy (.deleteObject object.slug))
  transaction (purgeObject setup id)

def deleteAttribute (setup : Setup) (id : Id) : Session Unit := do
  let a ← look fun s => s.requireAttribute id
  require (¬ a.isSystem) (.policy (.deleteAttribute a.slug))
  transaction (purgeAttributes setup a.parent.valueTable [id])

def deleteRecord (setup : Setup) (objectId id : Id) : Session Unit := do
  let _ ← look fun s => s.requireRecord objectId id
  transaction (purgeRecord setup id)

def deleteList (setup : Setup) (id : Id) : Session Unit := do
  let _ ← look fun s => s.requireList id
  transaction (purgeList setup id)

def removeEntry (id : Id) : Session Unit := do
  let _ ← look fun s => s.requireEntry id
  transaction do
    deleteOwnerValues .entries [id]
    deleteEntryRow id

end Session

end RecordStore
