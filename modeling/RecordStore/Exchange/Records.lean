import RecordStore.Exchange.Basic
import RecordStore.Store.Listing
import RecordStore.Store.References

/-!
# Records and lists as JSON

Values given for attributes are an object of JSON values by slug; views show values by slug.
-/

namespace RecordStore

/-! ### Values -/

def valuesJson (values : List (String × Value)) : Json :=
  .obj (values.map fun p => (p.1, p.2.toJson))

def Value.currencyOfJson? (j : Json) : Option Value := do
  let field ← j.form? ["amount", "currency"]
  return .currency (← (field "amount").required Json.number?)
    (← (field "currency").required Json.str?)

/-! ### Records -/

namespace NewRecord

def toJson (r : NewRecord) : Json :=
  .obj [("objectId", r.objectId.toJson), ("values", .obj r.values),
    ("actor", Json.orNull Id.toJson r.actor)]

def ofJson? (j : Json) : Option NewRecord := do
  let field ← j.form? ["objectId", "values", "actor"]
  return {
    objectId := ← (field "objectId").required Json.id?
    values := ← (field "values").orElse [] Json.members?
    actor := ← (field "actor").optionalTail Json.id? }

end NewRecord

namespace RecordChanges

def toJson (c : RecordChanges) : Json :=
  .obj [("objectId", c.objectId.toJson), ("recordId", c.recordId.toJson),
    ("values", .obj c.values), ("actor", Json.orNull Id.toJson c.actor)]

def ofJson? (j : Json) : Option RecordChanges := do
  let field ← j.form? ["objectId", "recordId", "values", "actor"]
  return {
    objectId := ← (field "objectId").required Json.id?
    recordId := ← (field "recordId").required Json.id?
    values := ← (field "values").required Json.members?
    actor := ← (field "actor").optionalTail Json.id? }

end RecordChanges

namespace RecordAssertion

def toJson (a : RecordAssertion) : Json :=
  .obj [("objectId", a.objectId.toJson), ("matchingAttribute", .str a.matching),
    ("matchingValue", a.matchingValue), ("values", .obj a.values),
    ("actor", Json.orNull Id.toJson a.actor)]

def ofJson? (j : Json) : Option RecordAssertion := do
  let field ← j.form? ["objectId", "matchingAttribute", "matchingValue", "values", "actor"]
  return {
    objectId := ← (field "objectId").required Json.id?
    matching := ← (field "matchingAttribute").required Json.str?
    matchingValue := ← (field "matchingValue").required Json.any?
    values := ← (field "values").orElse [] Json.members?
    actor := ← (field "actor").optionalTail Json.id? }

end RecordAssertion

def RecordView.toJson (v : RecordView) : Json :=
  .obj [("id", v.record.id.toJson), ("objectId", v.record.objectId.toJson),
    ("createdAt", v.record.createdAt.toJson),
    ("createdBy", Json.orNull Id.toJson v.record.createdBy),
    ("updatedAt", v.record.updatedAt.toJson), ("position", Json.orNull .int v.record.position),
    ("values", valuesJson v.values)]

def RelatedRecord.toJson (r : RelatedRecord) : Json :=
  .obj [("recordId", r.recordId.toJson), ("objectId", r.objectId.toJson),
    ("attributeId", r.attributeId.toJson), ("attributeSlug", .str r.slug)]

def ForwardReference.toJson (r : ForwardReference) : Json :=
  .obj [("attributeId", r.attributeId.toJson), ("attributeSlug", .str r.slug),
    ("targetRecordId", r.targetId.toJson), ("targetObjectId", r.targetObjectId.toJson)]

/-! ### Lists -/

namespace RecordList

def toJson (l : RecordList) : Json :=
  .obj [("id", l.id.toJson), ("objectId", l.objectId.toJson), ("name", .str l.name),
    ("slug", .str l.slug), ("isPrivate", .bool l.isPrivate),
    ("createdBy", Json.orNull Id.toJson l.createdBy), ("createdAt", l.createdAt.toJson)]

def ofJson? (j : Json) : Option RecordList := do
  let field ← j.form? ["id", "objectId", "name", "slug", "isPrivate", "createdBy", "createdAt"]
  return {
    id := ← (field "id").required Json.id?
    objectId := ← (field "objectId").required Json.id?
    name := ← (field "name").required Json.str?
    slug := ← (field "slug").required Json.str?
    isPrivate := ← (field "isPrivate").required Json.bool?
    createdBy := ← (field "createdBy").optional Json.id?
    createdAt := ← (field "createdAt").required Json.timestamp? }

end RecordList

namespace NewList

def toJson (l : NewList) : Json :=
  .obj [("objectId", l.objectId.toJson), ("name", .str l.name), ("slug", .str l.slug),
    ("isPrivate", .bool l.isPrivate), ("actor", Json.orNull Id.toJson l.actor)]

def ofJson? (j : Json) : Option NewList := do
  let field ← j.form? ["objectId", "name", "slug", "isPrivate", "actor"]
  return {
    objectId := ← (field "objectId").required Json.id?
    name := ← (field "name").required Json.str?
    slug := ← (field "slug").required Json.str?
    isPrivate := ← (field "isPrivate").orElse false Json.bool?
    actor := ← (field "actor").optionalTail Json.id? }

end NewList

namespace ListChanges

def toJson (c : ListChanges) : Json :=
  .obj [("name", Json.orNull .str c.name), ("isPrivate", Json.orNull .bool c.isPrivate)]

def ofJson? (j : Json) : Option ListChanges := do
  let field ← j.form? ["name", "isPrivate"]
  return {
    name := ← (field "name").optionalTail Json.str?
    isPrivate := ← (field "isPrivate").optionalTail Json.bool? }

end ListChanges

namespace NewEntry

def toJson (e : NewEntry) : Json :=
  .obj [("listId", e.listId.toJson), ("recordId", e.recordId.toJson), ("values", .obj e.values),
    ("actor", Json.orNull Id.toJson e.actor)]

def ofJson? (j : Json) : Option NewEntry := do
  let field ← j.form? ["listId", "recordId", "values", "actor"]
  return {
    listId := ← (field "listId").required Json.id?
    recordId := ← (field "recordId").required Json.id?
    values := ← (field "values").orElse [] Json.members?
    actor := ← (field "actor").optionalTail Json.id? }

end NewEntry

def EntryView.toJson (v : EntryView) : Json :=
  .obj [("id", v.entry.id.toJson), ("listId", v.entry.listId.toJson),
    ("recordId", v.entry.recordId.toJson), ("createdAt", v.entry.createdAt.toJson),
    ("createdBy", Json.orNull Id.toJson v.entry.createdBy),
    ("updatedAt", v.entry.updatedAt.toJson), ("values", valuesJson v.values),
    ("record", v.record.toJson)]

/-! ### Pages -/

def Page.toJson {α : Type} (key : String) (write : α → Json) (page : Page α) : Json :=
  .obj [(key, Json.list write page.items), ("total", Json.nat page.total)]

end RecordStore
