import RecordStore.Store.Choices

/-!
# References between records

A record points to others through its record-reference attributes. Pointers are listed from either
end; a pointer to a record that does not exist is not listed.
-/

namespace RecordStore

structure RelatedRecord where
  recordId : Id
  objectId : Id
  attributeId : Id
  slug : String
deriving DecidableEq

structure ForwardReference where
  attributeId : Id
  slug : String
  targetId : Id
  targetObjectId : Id
deriving DecidableEq

def Cell.targets : Cell → List Id
  | .reference id => [id]
  | .structured (.arr members) => members.filterMap fun m => m.str?.bind Id.ofTrimmed?
  | _ => []

def ValueRow.pointsTo (row : ValueRow) (a : AttributeHead) (target : Id) : Bool :=
  if a.isSet then
    match row.members? a with
    | some members => members.any fun m => m.str? == some target.text
    | none => false
  else row.cell.refersTo target

def relatedBefore (a b : RelatedRecord) : Bool :=
  ((compare a.slug b.slug).then (compare a.recordId b.recordId)).isLE

namespace Store

def referenceAttributes (s : Store) : List AttributeHead :=
  s.attributes.filter fun a => a.parent.valueTable = .records ∧ a.type = .recordReference

def relatedBy? (s : Store) (target : Id) (row : ValueRow) : Option RelatedRecord := do
  let a ← s.referenceAttributes.find? fun a => a.id == row.attributeId
  let owner ← s.record? row.owner
  if row.pointsTo a target then some ⟨owner.id, owner.objectId, a.id, a.slug⟩ else none

def relatedRecords (s : Store) (target : Id) : List RelatedRecord :=
  (s.recordValues.filterMap (s.relatedBy? target)).mergeSort relatedBefore

def referencesBy (s : Store) (id : Id) (a : Attribute) : List ForwardReference :=
  match cellOf? s.recordValues id a.toAttributeHead with
  | none => []
  | some cell =>
    cell.targets.eraseDups.filterMap fun target =>
      (s.record? target).map fun r => ⟨a.id, a.slug, target, r.objectId⟩

def forwardReferences (s : Store) (objectId id : Id) : Except Error (List ForwardReference) := do
  let _ ← s.requireRecord objectId id
  let attributes := (s.attributesOf (.object objectId)).filter fun a => a.type = .recordReference
  return attributes.flatMap (s.referencesBy id)

end Store

end RecordStore
