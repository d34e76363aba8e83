import RecordStore.Exchange.Basic
import RecordStore.Store.Attributes
import RecordStore.Store.Objects

/-!
# Objects and attributes as JSON

Members stand in the order of declaration, which is also the order of the array form.
-/

namespace RecordStore

/-! ### Objects -/

namespace Object

def toJson (o : Object) : Json :=
  .obj [("id", o.id.toJson), ("workspaceId", o.workspace.toJson), ("slug", .str o.slug),
    ("singularName", .str o.singularName), ("pluralName", .str o.pluralName),
    ("icon", Json.orNull .str o.icon), ("isSystem", .bool o.isSystem),
    ("createdAt", o.createdAt.toJson)]

def ofJson? (j : Json) : Option Object := do
  let field ← j.form? ["id", "workspaceId", "slug", "singularName", "pluralName", "icon",
    "isSystem", "createdAt"]
  return {
    id := ← (field "id").required Json.id?
    workspace := ← (field "workspaceId").required Json.id?
    slug := ← (field "slug").required Json.str?
    singularName := ← (field "singularName").required Json.str?
    pluralName := ← (field "pluralName").required Json.str?
    icon := ← (field "icon").optional Json.str?
    isSystem := ← (field "isSystem").required Json.bool?
    createdAt := ← (field "createdAt").required Json.timestamp? }

end Object

namespace NewObject

def toJson (o : NewObject) : Json :=
  .obj [("workspaceId", o.workspace.toJson), ("slug", .str o.slug),
    ("singularName", .str o.singularName), ("pluralName", .str o.pluralName),
    ("icon", Json.orNull .str o.icon), ("isSystem", .bool o.isSystem)]

def ofJson? (j : Json) : Option NewObject := do
  let field ← j.form? ["workspaceId", "slug", "singularName", "pluralName", "icon", "isSystem"]
  return {
    workspace := ← (field "workspaceId").required Json.id?
    slug := ← (field "slug").required Json.str?
    singularName := ← (field "singularName").required Json.str?
    pluralName := ← (field "pluralName").required Json.str?
    icon := ← (field "icon").optionalTail Json.str?
    isSystem := ← (field "isSystem").orElse false Json.bool? }

end NewObject

namespace ObjectChanges

def toJson (c : ObjectChanges) : Json :=
  .obj [("singularName", Json.orNull .str c.singularName),
    ("pluralName", Json.orNull .str c.pluralName), ("icon", Json.orNull .str c.icon)]

def ofJson? (j : Json) : Option ObjectChanges := do
  let field ← j.form? ["singularName", "pluralName", "icon"]
  return {
    singularName := ← (field "singularName").optionalTail Json.str?
    pluralName := ← (field "pluralName").optionalTail Json.str?
    icon := ← (field "icon").optionalTail Json.str? }

end ObjectChanges

/-! ### Parents and choices -/

namespace Parent

def kind : Parent → String
  | .object _ => "object"
  | .list _ => "list"

def kinds : List (String × (Id → Parent)) := [("object", .object), ("list", .list)]

def toJson (p : Parent) : Json := .obj [("kind", .str p.kind), ("id", p.id.toJson)]

def ofJson? (j : Json) : Option Parent := do
  let field ← j.form? ["kind", "id"]
  let make ← (field "kind").required (Json.choice? kinds)
  let id ← (field "id").required Json.id?
  return make id

end Parent

namespace SelectOption

def toJson (o : SelectOption) : Json :=
  .obj [("id", o.id.toJson), ("attributeId", o.attributeId.toJson), ("title", .str o.title),
    ("color", Json.orNull .str o.color), ("sortOrder", Json.int32 o.sortOrder)]

def ofJson? (j : Json) : Option SelectOption := do
  let field ← j.form? ["id", "attributeId", "title", "color", "sortOrder"]
  return {
    id := ← (field "id").required Json.id?
    attributeId := ← (field "attributeId").required Json.id?
    title := ← (field "title").required Json.str?
    color := ← (field "color").optional Json.str?
    sortOrder := ← (field "sortOrder").required Json.int32? }

end SelectOption

namespace Status

def toJson (t : Status) : Json :=
  .obj [("id", t.id.toJson), ("attributeId", t.attributeId.toJson), ("title", .str t.title),
    ("color", Json.orNull .str t.color), ("sortOrder", Json.int32 t.sortOrder),
    ("isActive", .bool t.isActive), ("celebrationEnabled", .bool t.celebrates)]

def ofJson? (j : Json) : Option Status := do
  let field ← j.form? ["id", "attributeId", "title", "color", "sortOrder", "isActive",
    "celebrationEnabled"]
  return {
    id := ← (field "id").required Json.id?
    attributeId := ← (field "attributeId").required Json.id?
    title := ← (field "title").required Json.str?
    color := ← (field "color").optional Json.str?
    sortOrder := ← (field "sortOrder").required Json.int32?
    isActive := ← (field "isActive").required Json.bool?
    celebrates := ← (field "celebrationEnabled").required Json.bool? }

end Status

namespace NewOption

def toJson (o : NewOption) : Json :=
  .obj [("title", .str o.title), ("color", Json.orNull .str o.color)]

def ofJson? (j : Json) : Option NewOption := do
  let field ← j.form? ["title", "color"]
  return {
    title := ← (field "title").required Json.str?
    color := ← (field "color").optionalTail Json.str? }

end NewOption

namespace NewStatus

def toJson (t : NewStatus) : Json :=
  .obj [("title", .str t.title), ("color", Json.orNull .str t.color),
    ("isActive", .bool t.isActive), ("celebrationEnabled", .bool t.celebrates)]

def ofJson? (j : Json) : Option NewStatus := do
  let field ← j.form? ["title", "color", "isActive", "celebrationEnabled"]
  return {
    title := ← (field "title").required Json.str?
    color := ← (field "color").optionalTail Json.str?
    isActive := ← (field "isActive").orElse true Json.bool?
    celebrates := ← (field "celebrationEnabled").orElse false Json.bool? }

end NewStatus

/-! ### Attributes -/

namespace Attribute

def choicesMember {α : Type} (key : String) (write : α → Json) (choices : List α) :
    List (String × Json) :=
  if choices.isEmpty then [] else [(key, Json.list write choices)]

def toJson (a : Attribute) : Json :=
  .obj ([("id", a.id.toJson), ("parent", a.parent.toJson), ("slug", .str a.slug),
    ("title", .str a.title), ("type", a.type.toJson), ("config", a.settings),
    ("isSystem", .bool a.isSystem), ("isRequired", .bool a.isRequired),
    ("isUnique", .bool a.isUnique), ("isMultiselect", .bool a.isSet),
    ("sortOrder", Json.int32 a.sortOrder)] ++
    choicesMember "options" SelectOption.toJson a.options ++
    choicesMember "statuses" Status.toJson a.statuses ++ [("createdAt", a.createdAt.toJson)])

def ofJson? (j : Json) : Option Attribute := do
  let field ← j.form? ["id", "parent", "slug", "title", "type", "config", "isSystem", "isRequired",
    "isUnique", "isMultiselect", "sortOrder", "options", "statuses", "createdAt"]
  return {
    id := ← (field "id").required Json.id?
    parent := ← (field "parent").required Parent.ofJson?
    slug := ← (field "slug").required Json.str?
    title := ← (field "title").required Json.str?
    type := ← (field "type").required (Json.choice? ValueType.names)
    settings := ← (field "config").required Json.any?
    isSystem := ← (field "isSystem").required Json.bool?
    isRequired := ← (field "isRequired").required Json.bool?
    isUnique := ← (field "isUnique").required Json.bool?
    isSet := ← (field "isMultiselect").required Json.bool?
    sortOrder := ← (field "sortOrder").required Json.int32?
    options := ← (field "options").orElse [] (Json.list? SelectOption.ofJson?)
    statuses := ← (field "statuses").orElse [] (Json.list? Status.ofJson?)
    createdAt := ← (field "createdAt").required Json.timestamp? }

end Attribute

namespace NewAttribute

def toJson (a : NewAttribute) : Json :=
  .obj [("parent", a.parent.toJson), ("slug", .str a.slug), ("title", .str a.title),
    ("type", a.type.toJson), ("config", a.settings.getD .null), ("isSystem", .bool a.isSystem),
    ("isRequired", .bool a.isRequired), ("isUnique", .bool a.isUnique),
    ("isMultiselect", .bool a.isSet), ("sortOrder", Json.orNull Json.int32 a.sortOrder),
    ("options", Json.list NewOption.toJson a.options),
    ("statuses", Json.list NewStatus.toJson a.statuses)]

def ofJson? (j : Json) : Option NewAttribute := do
  let field ← j.form? ["parent", "slug", "title", "type", "config", "isSystem", "isRequired",
    "isUnique", "isMultiselect", "sortOrder", "options", "statuses"]
  return {
    parent := ← (field "parent").required Parent.ofJson?
    slug := ← (field "slug").required Json.str?
    title := ← (field "title").required Json.str?
    type := ← (field "type").required (Json.choice? ValueType.names)
    settings := ← (field "config").optionalTail Json.any?
    isSystem := ← (field "isSystem").orElse false Json.bool?
    isRequired := ← (field "isRequired").orElse false Json.bool?
    isUnique := ← (field "isUnique").orElse false Json.bool?
    isSet := ← (field "isMultiselect").orElse false Json.bool?
    sortOrder := ← (field "sortOrder").optionalTail Json.int32?
    options := ← (field "options").orElse [] (Json.list? NewOption.ofJson?)
    statuses := ← (field "statuses").orElse [] (Json.list? NewStatus.ofJson?) }

end NewAttribute

namespace AttributeChanges

def toJson (c : AttributeChanges) : Json :=
  .obj [("slug", Json.orNull .str c.slug), ("title", Json.orNull .str c.title),
    ("type", Json.orNull ValueType.toJson c.type), ("config", c.settings.getD .null),
    ("isRequired", Json.orNull .bool c.isRequired), ("isUnique", Json.orNull .bool c.isUnique),
    ("isMultiselect", Json.orNull .bool c.isSet), ("sortOrder", Json.orNull Json.int32 c.sortOrder)]

def ofJson? (j : Json) : Option AttributeChanges := do
  let field ← j.form? ["slug", "title", "type", "config", "isRequired", "isUnique",
    "isMultiselect", "sortOrder"]
  return {
    slug := ← (field "slug").optionalTail Json.str?
    title := ← (field "title").optionalTail Json.str?
    type := ← (field "type").optionalTail (Json.choice? ValueType.names)
    settings := ← (field "config").optionalTail Json.any?
    isRequired := ← (field "isRequired").optionalTail Json.bool?
    isUnique := ← (field "isUnique").optionalTail Json.bool?
    isSet := ← (field "isMultiselect").optionalTail Json.bool?
    sortOrder := ← (field "sortOrder").optionalTail Json.int32? }

end AttributeChanges

end RecordStore
