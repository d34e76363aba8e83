import RecordStore.Store.Lists

/-!
# Listings

A listing selects the records of an object, or the entries of a list, by a query and shows one
window of them, together with the number of all that were selected.
-/

namespace RecordStore

/-- A window of a listing and the number of items outside and inside it. -/
structure Page (α : Type) where
  items : List α
  total : Nat

namespace Store

/-! ### Rows -/

def recordRow (s : Store) (attributes : List Attribute) (r : Record) : Row :=
  ⟨r.id, r.createdAt, r.updatedAt, r.position, cellsOf s.recordValues attributes r.id⟩

def entryRow (s : Store) (attributes : List Attribute) (e : Entry) : Row :=
  ⟨e.id, e.createdAt, e.updatedAt, none, cellsOf s.entryValues attributes e.id⟩

/-- The rows of an object's records that a query selects, in order. Only the values that the query
asks for are loaded. -/
def selectRecords (s : Store) (setup : Setup) (objectId : Id) (q : Query) :
    Except Error (List Row) := do
  let attributes := s.attributesOf (.object objectId)
  let query ← compileQuery setup.unknown attributes q
  return query.select ((s.recordsOf objectId).map (s.recordRow (query.needed attributes)))

/-- The rows of a list's entries that a query selects, in order. Only the values that the query
asks for are loaded. -/
def selectEntries (s : Store) (setup : Setup) (listId : Id) (q : Query) :
    Except Error (List Row) := do
  let attributes := s.attributesOf (.list listId)
  let query ← compileQuery setup.unknown attributes q
  return query.select ((s.entriesOf listId).map (s.entryRow (query.needed attributes)))

/-! ### Pages -/

def windowOf (setup : Setup) (q : Query) (rows : List Row) : List Id :=
  ((rows.drop q.offset).take (q.window setup.defaultPageSize setup.maxPageSize)).map (·.id)

def listRecords (s : Store) (setup : Setup) (objectId : Id) (q : Query) :
    Except Error (Page RecordView) := do
  let _ ← s.requireObject objectId
  let rows ← s.selectRecords setup objectId q
  let ids := windowOf setup q rows
  return ⟨drawInOrder ids (s.recordViews objectId ids), rows.length⟩

def listEntries (s : Store) (setup : Setup) (listId : Id) (q : Query) :
    Except Error (Page EntryView) := do
  let list ← s.requireList listId
  let rows ← s.selectEntries setup listId q
  let ids := windowOf setup q rows
  return ⟨drawInOrder ids (s.entryViews list ids), rows.length⟩

def availableRecords (s : Store) (setup : Setup) (listId objectId : Id) (search : Option String) :
    Except Error (List RecordView) := do
  let list ← s.requireList listId
  require (list.objectId = objectId) (.invalid (.foreignList list.slug objectId))
  let rows ← s.selectRecords setup objectId { Query.default with search }
  let ids := (rows.filter fun row => !s.isListed listId row.id).map (·.id)
  return drawInOrder ids (s.recordViews objectId ids)

end Store

end RecordStore
