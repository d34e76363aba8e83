import RecordStore.Store.Choices
import RecordStore.Store.Listing
import RecordStore.Store.Objects
import RecordStore.Store.References
import RecordStore.Store.Removal

/-!
# Calls

Everything that can be asked of a store, as data, with the steps that each call takes, and the
stores that a run of calls can lead to.
-/

namespace RecordStore

inductive Call where
  | createObject (new : NewObject)
  | objectNamed (workspace : Id) (slug : String)
  | object (id : Id)
  | objects (workspace : Id)
  | updateObject (id : Id) (changes : ObjectChanges)
  | deleteObject (id : Id)
  | attributes (parent : Parent)
  | anAttribute (id : Id)
  | createAttribute (new : NewAttribute)
  | updateAttribute (id : Id) (changes : AttributeChanges)
  | deleteAttribute (id : Id)
  | addOption (attributeId : Id) (new : NewOption)
  | addStatus (attributeId : Id) (new : NewStatus)
  | removeOption (id : Id)
  | removeStatus (id : Id)
  | createRecord (new : NewRecord)
  | updateRecord (changes : RecordChanges)
  | assertRecord (assertion : RecordAssertion)
  | record (objectId id : Id)
  | deleteRecord (objectId id : Id)
  | related (recordId : Id)
  | forward (objectId recordId : Id)
  | listRecords (objectId : Id) (query : Query)
  | reorder (objectId : Id) (ids : List Id)
  | createList (new : NewList)
  | list (id : Id)
  | listNamed (objectId : Id) (slug : String)
  | lists (objectId : Id)
  | updateList (id : Id) (changes : ListChanges)
  | deleteList (id : Id)
  | addEntry (new : NewEntry)
  | entry (id : Id)
  | removeEntry (id : Id)
  | listEntries (listId : Id) (query : Query)
  | updateEntry (id : Id) (values : List (String × Json)) (actor : Option Id)
  | available (listId objectId : Id) (search : Option String)

inductive Answer where
  | nothing
  | object (o : Object)
  | objects (os : List Object)
  | anAttribute (a : Attribute)
  | attributes (as : List Attribute)
  | option (o : SelectOption)
  | status (t : Status)
  | record (view : RecordView)
  | records (views : List RecordView)
  | recordPage (page : Page RecordView)
  | related (pointers : List RelatedRecord)
  | forward (pointers : List ForwardReference)
  | list (l : RecordList)
  | lists (ls : List RecordList)
  | entry (view : EntryView)
  | entryPage (page : Page EntryView)

namespace Answer

def ofOption {α : Type} (answer : α → Answer) : Option α → Answer
  | some a => answer a
  | none => nothing

end Answer

namespace Session

variable {α : Type}

def answering (answer : α → Answer) (session : Session α) : Session Answer := do
  return answer (← session)

def silently (session : Session Unit) : Session Answer := do
  session
  return .nothing

def tell (answer : Store → Answer) : Session Answer := do return answer (← get)

def ofCall (setup : Setup) (stamp : Stamp) : Call → Session Answer
  | .createObject new => answering .object (createObject stamp new)
  | .objectNamed workspace slug => tell fun s => .ofOption .object (s.objectNamed? workspace slug)
  | .object id => tell fun s => .ofOption .object (s.object? id)
  | .objects workspace => tell fun s => .objects (s.objectsOf workspace)
  | .updateObject id changes => answering .object (updateObject id changes)
  | .deleteObject id => silently (deleteObject setup id)
  | .attributes parent => tell fun s => .attributes (s.attributesOf parent)
  | .anAttribute id => tell fun s => .ofOption .anAttribute (s.attribute? id)
  | .createAttribute new => answering .anAttribute (createAttribute setup stamp new)
  | .updateAttribute id changes => answering .anAttribute (updateAttribute id changes)
  | .deleteAttribute id => silently (deleteAttribute setup id)
  | .addOption attributeId new => answering .option (addOption stamp attributeId new)
  | .addStatus attributeId new => answering .status (addStatus stamp attributeId new)
  | .removeOption id => silently (removeOption id)
  | .removeStatus id => silently (removeStatus id)
  | .createRecord new => answering .record (createRecord stamp new)
  | .updateRecord changes => answering .record (updateRecord stamp changes)
  | .assertRecord assertion => answering .record (assertRecord stamp assertion)
  | .record objectId id => tell fun s => .ofOption .record (s.recordView? objectId id)
  | .deleteRecord objectId id => silently (deleteRecord setup objectId id)
  | .related recordId => tell fun s => .related (s.relatedRecords recordId)
  | .forward objectId recordId =>
    answering .forward (look fun s => s.forwardReferences objectId recordId)
  | .listRecords objectId query =>
    answering .recordPage (look fun s => s.listRecords setup objectId query)
  | .reorder objectId ids => silently (reorder objectId ids)
  | .createList new => answering .list (createList stamp new)
  | .list id => tell fun s => .ofOption .list (s.list? id)
  | .listNamed objectId slug => tell fun s => .ofOption .list (s.listNamed? objectId slug)
  | .lists objectId => tell fun s => .lists (s.listsOf objectId)
  | .updateList id changes => answering .list (updateList id changes)
  | .deleteList id => silently (deleteList setup id)
  | .addEntry new => answering .entry (addEntry stamp new)
  | .entry id => tell fun s => .ofOption .entry (s.entryViewOf? id)
  | .removeEntry id => silently (removeEntry id)
  | .listEntries listId query =>
    answering .entryPage (look fun s => s.listEntries setup listId query)
  | .updateEntry id values _ => answering .entry (updateEntry stamp id values)
  | .available listId objectId search =>
    answering .records (look fun s => s.availableRecords setup listId objectId search)

end Session

namespace Store

/-- The answer to a call and the store after it, or how it fails. -/
def perform (s : Store) (setup : Setup) (stamp : Stamp) (call : Call) :
    Except Error (Answer × Store) :=
  match (Session.ofCall setup stamp call).run s with
  | .ok answer t => .ok (answer, t)
  | .error e _ => .error e

def answer (s : Store) (setup : Setup) (stamp : Stamp) (call : Call) : Except Error Answer :=
  (s.perform setup stamp call).map (·.1)

/-- The store that a call leaves, whether it succeeds or fails. -/
def after (s : Store) (setup : Setup) (stamp : Stamp) (call : Call) : Store :=
  match (Session.ofCall setup stamp call).run s with
  | .ok _ t | .error _ t => t

end Store

/-! ### Runs -/

/-- A call with what the store was opened with and what the call takes from outside. -/
structure Step where
  setup : Setup
  stamp : Stamp
  call : Call

namespace Store

/-- The store after a sequence of calls, of which any may fail. -/
def run (s : Store) (steps : List Step) : Store :=
  steps.foldl (fun s step => s.after step.setup step.stamp step.call) s

/-- The stores that calls can lead to from one in which nothing is stored. -/
def Reachable (s : Store) : Prop := ∃ steps, s = empty.run steps

end Store

end RecordStore
