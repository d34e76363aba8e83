import RecordStore.Store.Records

/-!
# Lists

A list collects records of one object, each at most once, and may give its entries values of its
own.
-/

namespace RecordStore

structure NewList where
  objectId : Id
  name : String
  slug : String
  isPrivate : Bool
  actor : Option Id
deriving DecidableEq

structure ListChanges where
  name : Option String
  isPrivate : Option Bool
deriving DecidableEq

structure NewEntry where
  listId : Id
  recordId : Id
  values : List (String × Json)
  actor : Option Id

structure EntryView where
  entry : Entry
  values : List (String × Value)
  record : RecordView

namespace Store

/-! ### Lists -/

def listNamed? (s : Store) (objectId : Id) (slug : String) : Option RecordList :=
  s.lists.find? fun l => l.objectId == objectId && l.slug == slug

/-! ### Entries -/

def isListed (s : Store) (listId recordId : Id) : Bool :=
  (s.entriesOf listId).any fun e => e.recordId == recordId

def requireAnyRecord (s : Store) (id : Id) : Except Error Record :=
  match s.record? id with
  | some r => .ok r
  | none => .error (.notFound .record id)

theorem requireAnyRecord_eq_ok_iff {s : Store} {id : Id} {r : Record} :
    s.requireAnyRecord id = .ok r ↔ s.record? id = some r := by
  rw [requireAnyRecord]
  cases s.record? id <;> simp

def entryView (s : Store) (list : RecordList) (entry : Entry) (record : RecordView) : EntryView :=
  ⟨entry, shownValues s.entryValues (s.attributesOf (.list list.id)) entry.id, record⟩

/-- The views of entries of a list, whose records are drawn from a pool. An entry whose record is
not there is left out. -/
def entryViewsFrom (s : Store) (list : RecordList) :
    List Entry → List (Id × RecordView) → List (Id × EntryView)
  | [], _ => []
  | entry :: rest, pool =>
    match draw? entry.recordId pool with
    | some (record, others) =>
      (entry.id, s.entryView list entry record) :: s.entryViewsFrom list rest others
    | none => s.entryViewsFrom list rest pool

/-- The views of those entries of a list that have one of the given ids, under their ids. -/
def entryViews (s : Store) (list : RecordList) (ids : List Id) : List (Id × EntryView) :=
  let entries := ((s.entriesOf list.id).filter fun e => ids.contains e.id).mergeSort
    fun a b => b.createdAt.micros ≤ a.createdAt.micros
  s.entryViewsFrom list entries (s.recordViews list.objectId (entries.map (·.recordId)))

def entryViewIn? (s : Store) (list : RecordList) (id : Id) : Option EntryView :=
  (s.entryViews list [id]).lookup id

def entryViewOf? (s : Store) (id : Id) : Option EntryView := do
  let entry ← s.entry? id
  let list ← s.list? entry.listId
  s.entryViewIn? list id

def requireEntryView (s : Store) (list : RecordList) (id : Id) : Except Error EntryView :=
  match s.entryViewIn? list id with
  | some view => .ok view
  | none => .error (.notFound .entry id)

theorem requireEntryView_eq_ok_iff {s : Store} {list : RecordList} {id : Id} {view : EntryView} :
    s.requireEntryView list id = .ok view ↔ s.entryViewIn? list id = some view := by
  rw [requireEntryView]
  cases s.entryViewIn? list id <;> simp

end Store

namespace Session

/-! ### Lists -/

def insertList (list : RecordList) : Session Unit :=
  write (fun s => ∀ l ∈ s.lists, l.Apart list)
    fun s => { s with lists := s.lists ++ [list] }

def updateListRow (list : RecordList) : Session Unit :=
  modify fun s => { s with
    lists := s.lists.map fun l =>
      if l.id = list.id then { l with name := list.name, isPrivate := list.isPrivate } else l }

def createList (stamp : Stamp) (new : NewList) : Session RecordList := do
  checkSlug new.slug
  let name ← requireName .listName new.name
  let _ ← look fun s => s.requireObject new.objectId
  let s ← get
  require (s.listNamed? new.objectId new.slug = none) (.conflict (.listSlug new.slug))
  let list : RecordList :=
    ⟨stamp.fresh 0, new.objectId, name, new.slug, new.isPrivate, new.actor, stamp.now⟩
  insertList list
  return list

def updateList (id : Id) (changes : ListChanges) : Session RecordList := do
  let current ← look fun s => s.requireList id
  let name ← changedName .listName current.name changes.name
  let list := { current with name, isPrivate := changes.isPrivate.getD current.isPrivate }
  updateListRow list
  return list

/-! ### Entries -/

def insertEntry (entry : Entry) : Session Unit :=
  write (fun s => ∀ e ∈ s.entries, e.Apart entry)
    fun s => { s with entries := s.entries ++ [entry] }

def touchEntry (id : Id) (now : Timestamp) : Session Unit :=
  modify fun s => { s with
    entries := s.entries.map fun e => if e.id = id then { e with updatedAt := now } else e }

def addEntry (stamp : Stamp) (new : NewEntry) : Session EntryView := do
  let list ← look fun s => s.requireList new.listId
  let record ← look fun s => s.requireAnyRecord new.recordId
  let s ← get
  require (record.objectId = list.objectId) (.invalid (.foreignRecord record.id list.slug))
  require (¬ s.isListed list.id record.id) (.conflict (.alreadyListed record.id list.slug))
  let prepared ← prepareValues (s.attributesOf (.list list.id)) new.values .create
  let entry : Entry := ⟨stamp.fresh 0, list.id, record.id, stamp.now, new.actor, stamp.now⟩
  transaction do
    insertEntry entry
    applyValues .entries entry.id prepared
  look fun s => s.requireEntryView list entry.id

def updateEntry (stamp : Stamp) (id : Id) (values : List (String × Json)) :
    Session EntryView := do
  let current ← look fun s => s.requireEntry id
  let list ← look fun s => s.requireList current.listId
  let s ← get
  let prepared ← prepareValues (s.attributesOf (.list list.id)) values .update
  transaction do
    applyValues .entries id prepared
    touchEntry id stamp.now
  look fun s => s.requireEntryView list id

end Session

end RecordStore
