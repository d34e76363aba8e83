import RecordStore.Store.Attributes

/-!
# Choices

The options of a select attribute and the statuses of a status attribute. A choice that is removed
is removed from the values too: single values of it vanish, sets lose the member, and a set without
any other member vanishes.
-/

namespace RecordStore

/-! ### Values that hold a choice -/

def Cell.refersTo (id : Id) : Cell → Bool
  | .reference r => r == id
  | _ => false

/-- The members of the set in a row, if the attribute reads one there. -/
def ValueRow.members? (row : ValueRow) (a : AttributeHead) : Option (List Json) :=
  match row.read? a with
  | some (.structured (.arr members)) => some members
  | _ => none

def choiceMember (choice : Id) : Json := .str choice.text

namespace Store

def requireOption (s : Store) (id : Id) : Except Error SelectOption :=
  match s.options.find? fun o => o.id == id with
  | some o => .ok o
  | none => .error (.notFound .option id)

theorem requireOption_eq_ok_iff {s : Store} {id : Id} {o : SelectOption} :
    s.requireOption id = .ok o ↔ s.options.find? (fun p => p.id == id) = some o := by
  rw [requireOption]
  cases s.options.find? fun p => p.id == id <;> simp

def requireStatus (s : Store) (id : Id) : Except Error Status :=
  match s.statuses.find? fun t => t.id == id with
  | some t => .ok t
  | none => .error (.notFound .status id)

theorem requireStatus_eq_ok_iff {s : Store} {id : Id} {t : Status} :
    s.requireStatus id = .ok t ↔ s.statuses.find? (fun u => u.id == id) = some t := by
  rw [requireStatus]
  cases s.statuses.find? fun u => u.id == id <;> simp

def requireChoices (s : Store) (id : Id) (expected : ValueType) : Except Error Attribute := do
  let a ← s.requireAttribute id
  require (a.type = expected) (.invalid (.notChoices a.slug expected))
  return a

end Store

namespace Session

/-! ### Adding -/

def addOption (stamp : Stamp) (attributeId : Id) (new : NewOption) : Session SelectOption := do
  let a ← look fun s => s.requireChoices attributeId .select
  let place ← nextPlace (a.options.map (·.sortOrder))
  insertOption attributeId (stamp.fresh 0) place new

def addStatus (stamp : Stamp) (attributeId : Id) (new : NewStatus) : Session Status := do
  let a ← look fun s => s.requireChoices attributeId .status
  let place ← nextPlace (a.statuses.map (·.sortOrder))
  insertStatus attributeId (stamp.fresh 0) place new

/-! ### Removing -/

def deleteOptionRow (id : Id) : Session Unit :=
  modify fun s => { s with options := s.options.filter fun o => o.id != id }

def deleteStatusRow (id : Id) : Session Unit :=
  modify fun s => { s with statuses := s.statuses.filter fun t => t.id != id }

def deleteReferences (table : ValueTable) (attributeId choice : Id) : Session Unit :=
  modify fun s => s.setValues table ((s.values table).filter fun r =>
    !(r.attributeId == attributeId && r.cell.refersTo choice))

/-- Takes a member out of the set of an owner, and the whole set away when nothing is left. -/
def dropMember (table : ValueTable) (a : Attribute) (member : Json) (owner : Id)
    (members : List Json) : Session Unit :=
  match members.filter fun m => !m.same member with
  | [] => deleteValue table owner a.id
  | rest => do
    let cell : Cell := .structured (.arr rest)
    let key ← storedKeyOf a cell
    upsertValue table ⟨owner, a.id, cell, key⟩

def dropMemberOf (table : ValueTable) (a : Attribute) (member : Json) (row : ValueRow) :
    Session Unit :=
  match row.members? a.toAttributeHead with
  | some members =>
    if members.any fun m => m.same member then dropMember table a member row.owner members
    else pure ()
  | none => pure ()

def dropMembers (table : ValueTable) (a : Attribute) (member : Json) :
    List ValueRow → Session Unit
  | [] => pure ()
  | row :: rest => do
    dropMemberOf table a member row
    dropMembers table a member rest

def detachChoice (a : Attribute) (choice : Id) : Session Unit := do
  let table := a.parent.valueTable
  if a.isSet then
    let s ← get
    dropMembers table a (choiceMember choice)
      ((s.values table).filter fun r => r.attributeId == a.id)
  else deleteReferences table a.id choice

def removeOption (id : Id) : Session Unit := do
  let option ← look fun s => s.requireOption id
  let a ← look fun s => s.requireChoices option.attributeId .select
  transaction do
    deleteOptionRow id
    detachChoice a id

def removeStatus (id : Id) : Session Unit := do
  let status ← look fun s => s.requireStatus id
  let a ← look fun s => s.requireChoices status.attributeId .status
  transaction do
    deleteStatusRow id
    detachChoice a id

end Session

end RecordStore
