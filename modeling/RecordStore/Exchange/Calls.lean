import RecordStore.Exchange.Queries
import RecordStore.Exchange.Records
import RecordStore.Exchange.Schema
import RecordStore.Store.Call

/-!
# Calls and answers as JSON

A call is an object with the name of what is asked for and what it is about.
-/

namespace RecordStore

namespace Call

def argument? {α : Type} (j : Json) (key : String) (read : Json → Option α) : Option α :=
  read ((j.member? key).getD .null)

def idAt? (j : Json) (key : String) : Option Id := argument? j key Json.id?

def textAt (j : Json) (key : String) : String := ((j.member? key).bind Json.str?).getD ""

def inputOf? {α : Type} (j : Json) (read : Json → Option α) : Option α := argument? j "input" read

def nullable? {α : Type} (read : Json → Option α) : Json → Option (Option α)
  | .null => some none
  | j => (read j).map some

def parentOf? (j : Json) : Option Parent :=
  if (j.member? "list").isSome then (idAt? j "list").map .list else (idAt? j "object").map .object

def ofJson? (name : String) (j : Json) : Option Call :=
  match name with
  | "create_object" => return .createObject (← inputOf? j NewObject.ofJson?)
  | "get_object" => return .objectNamed (← idAt? j "workspace") (textAt j "slug")
  | "get_object_by_id" => return .object (← idAt? j "id")
  | "list_objects" => return .objects (← idAt? j "workspace")
  | "update_object" => return .updateObject (← idAt? j "id") (← inputOf? j ObjectChanges.ofJson?)
  | "delete_object" => return .deleteObject (← idAt? j "id")
  | "attributes" => return .attributes (← parentOf? j)
  | "get_attribute" => return .anAttribute (← idAt? j "id")
  | "create_attribute" => return .createAttribute (← inputOf? j NewAttribute.ofJson?)
  | "update_attribute" =>
    return .updateAttribute (← idAt? j "id") (← inputOf? j AttributeChanges.ofJson?)
  | "delete_attribute" => return .deleteAttribute (← idAt? j "id")
  | "add_select_option" => return .addOption (← idAt? j "id") (← inputOf? j NewOption.ofJson?)
  | "add_status" => return .addStatus (← idAt? j "id") (← inputOf? j NewStatus.ofJson?)
  | "remove_select_option" => return .removeOption (← idAt? j "id")
  | "remove_status" => return .removeStatus (← idAt? j "id")
  | "create_record" => return .createRecord (← inputOf? j NewRecord.ofJson?)
  | "update_record" => return .updateRecord (← inputOf? j RecordChanges.ofJson?)
  | "assert_record" => return .assertRecord (← inputOf? j RecordAssertion.ofJson?)
  | "get_record" => return .record (← idAt? j "object") (← idAt? j "record")
  | "delete_record" => return .deleteRecord (← idAt? j "object") (← idAt? j "record")
  | "related" => return .related (← idAt? j "record")
  | "forward" => return .forward (← idAt? j "object") (← idAt? j "record")
  | "list_records" => return .listRecords (← idAt? j "object") (← inputOf? j Query.ofJson?)
  | "reorder" => return .reorder (← idAt? j "object") (← argument? j "ids" (Json.list? Json.id?))
  | "create_list" => return .createList (← inputOf? j NewList.ofJson?)
  | "get_list" => return .list (← idAt? j "id")
  | "get_list_by_slug" => return .listNamed (← idAt? j "object") (textAt j "slug")
  | "lists" => return .lists (← idAt? j "object")
  | "update_list" => return .updateList (← idAt? j "id") (← inputOf? j ListChanges.ofJson?)
  | "delete_list" => return .deleteList (← idAt? j "id")
  | "add_entry" => return .addEntry (← inputOf? j NewEntry.ofJson?)
  | "get_entry" => return .entry (← idAt? j "id")
  | "remove_entry" => return .removeEntry (← idAt? j "id")
  | "list_entries" => return .listEntries (← idAt? j "list") (← inputOf? j Query.ofJson?)
  | "update_entry" =>
    return .updateEntry (← idAt? j "id") (← argument? j "values" Json.members?)
      (← argument? j "actor" (nullable? Json.id?))
  | "available" =>
    return .available (← idAt? j "list") (← idAt? j "object")
      (← argument? j "search" (nullable? Json.str?))
  | _ => none

end Call

namespace Answer

def toJson : Answer → Json
  | .nothing => .null
  | .object o => o.toJson
  | .objects os => Json.list Object.toJson os
  | .anAttribute a => a.toJson
  | .attributes as => Json.list Attribute.toJson as
  | .option o => o.toJson
  | .status t => t.toJson
  | .record view => view.toJson
  | .records views => Json.list RecordView.toJson views
  | .recordPage page => page.toJson "records" RecordView.toJson
  | .related pointers => Json.list RelatedRecord.toJson pointers
  | .forward pointers => Json.list ForwardReference.toJson pointers
  | .list l => l.toJson
  | .lists ls => Json.list RecordList.toJson ls
  | .entry view => view.toJson
  | .entryPage page => page.toJson "entries" EntryView.toJson

end Answer

end RecordStore
