import RecordStore.Store.Session

/-!
# Objects

An object is a kind of record. Its slug is its name within a workspace and never changes; its
other names and its icon may.
-/

namespace RecordStore

structure NewObject where
  workspace : Id
  slug : String
  singularName : String
  pluralName : String
  icon : Option String
  isSystem : Bool
deriving DecidableEq

structure ObjectChanges where
  singularName : Option String
  pluralName : Option String
  icon : Option String
deriving DecidableEq

namespace Store

def objectNamed? (s : Store) (workspace : Id) (slug : String) : Option Object :=
  s.objects.find? fun o => o.workspace == workspace && o.slug == slug

def objectsOf (s : Store) (workspace : Id) : List Object :=
  (s.objects.filter fun o => o.workspace == workspace).mergeSort fun a b => a.slug ≤ b.slug

end Store

namespace Session

def insertObject (object : Object) : Session Unit :=
  write (fun s => ∀ o ∈ s.objects, o.Apart object)
    fun s => { s with objects := s.objects ++ [object] }

def updateObjectRow (object : Object) : Session Unit :=
  modify fun s => { s with
    objects := s.objects.map fun o =>
      if o.id = object.id then
        { o with
          singularName := object.singularName
          pluralName := object.pluralName
          icon := object.icon }
      else o }

def createObject (stamp : Stamp) (new : NewObject) : Session Object := do
  checkSlug new.slug
  let singularName ← requireName .singularName new.singularName
  let pluralName ← requireName .pluralName new.pluralName
  let s ← get
  require (s.objectNamed? new.workspace new.slug = none) (.conflict (.objectSlug new.slug))
  let object : Object := {
    id := stamp.fresh 0
    workspace := new.workspace
    slug := new.slug
    singularName, pluralName
    icon := new.icon
    isSystem := new.isSystem
    createdAt := stamp.now }
  insertObject object
  return object

def updateObject (id : Id) (changes : ObjectChanges) : Session Object := do
  let current ← look fun s => s.requireObject id
  let singularName ← changedName .singularName current.singularName changes.singularName
  let pluralName ← changedName .pluralName current.pluralName changes.pluralName
  let object := { current with singularName, pluralName, icon := changes.icon.or current.icon }
  updateObjectRow object
  return object

end Session

end RecordStore
