import RecordStore.Store.Session

/-!
# Stored values

Writing prepares all values first and then applies them, one statement for each. Reading shows a
value only if it lies in the slot that its attribute has now and can be decoded.
-/

namespace RecordStore

/-! ### Unique keys -/

/-- The key of a unique value, which is never cut short. -/
def uniqueKeyOf (a : Attribute) (cell : Cell) : Except Error String :=
  if 255 < cell.canonicalKey.length then .error (.invalid (.uniqueTooLong a.slug))
  else .ok cell.canonicalKey

/-- The key that is stored with a value: only unique attributes have one. -/
def storedKeyOf (a : Attribute) (cell : Cell) : Except Error (Option String) :=
  if a.isUnique then (uniqueKeyOf a cell).map some else .ok none

/-! ### Preparing -/

inductive WriteMode where
  | create | update
deriving DecidableEq

structure Prepared where
  sets : List (Attribute × Cell)
  clears : List Attribute

/-- The attribute and cell of each given value, in order; nothing where the value is blank. -/
def encodeAll (attributes : List Attribute) :
    List (String × Json) → Except Error (List (Attribute × Option Cell))
  | [] => .ok []
  | (slug, raw) :: rest => do
    match attributes.find? fun a => a.slug == slug with
    | none => .error (.invalid (.unknownAttribute slug))
    | some a =>
      let cell ← encodeValue a raw
      if let some c := cell then
        let _ ← storedKeyOf a c
      return (a, cell) :: (← encodeAll attributes rest)

/-- Prepares given values. Something new needs a value for each required attribute; of something
stored none of them may be cleared. -/
def prepareValues (attributes : List Attribute) (given : List (String × Json)) (mode : WriteMode) :
    Except Error Prepared := do
  let encoded ← encodeAll attributes given
  let sets := encoded.filterMap fun p => p.2.map fun c => (p.1, c)
  let clears := encoded.filterMap fun p => if p.2.isNone then some p.1 else none
  match mode with
  | .create =>
    match attributes.find? fun a => a.isRequired && !sets.any fun p => p.1.id == a.id with
    | some a => .error (.invalid (.requiredMissing a.slug))
    | none => return ⟨sets, []⟩
  | .update =>
    match clears.find? fun a => a.isRequired with
    | some a => .error (.invalid (.requiredCleared a.slug))
    | none => return ⟨sets, clears⟩

theorem encoded_of_encodeAll {attributes : List Attribute} {given : List (String × Json)}
    {encoded : List (Attribute × Option Cell)} (h : encodeAll attributes given = .ok encoded) :
    ∀ p ∈ encoded, p.1 ∈ attributes ∧ ∃ raw, encodeValue p.1 raw = .ok p.2 := by
  induction given generalizing encoded with
  | nil =>
    cases h
    simp
  | cons g rest ih =>
    obtain ⟨slug, raw⟩ := g
    rw [encodeAll] at h
    split at h
    · cases h
    · rename_i a hfind
      obtain ⟨cell, hcell, h⟩ := bind_eq_ok_iff.mp h
      have hrest : ∃ others, encodeAll attributes rest = .ok others ∧
          (a, cell) :: others = encoded := by
        cases cell with
        | none =>
          obtain ⟨others, hothers, h⟩ := bind_eq_ok_iff.mp h
          cases h
          exact ⟨others, hothers, rfl⟩
        | some c =>
          obtain ⟨_, -, h⟩ := bind_eq_ok_iff.mp h
          obtain ⟨others, hothers, h⟩ := bind_eq_ok_iff.mp h
          cases h
          exact ⟨others, hothers, rfl⟩
      obtain ⟨others, hothers, rfl⟩ := hrest
      exact List.forall_mem_cons.mpr ⟨⟨List.mem_of_find?_eq_some hfind, raw, hcell⟩, ih hothers⟩

theorem encoded_of_prepareValues {attributes : List Attribute} {given : List (String × Json)}
    {mode : WriteMode} {prepared : Prepared}
    (h : prepareValues attributes given mode = .ok prepared) :
    ∀ p ∈ prepared.sets, p.1 ∈ attributes ∧ ∃ raw, encodeValue p.1 raw = .ok (some p.2) := by
  obtain ⟨encoded, hencoded, h⟩ := bind_eq_ok_iff.mp h
  have hsets : prepared.sets = encoded.filterMap fun p => p.2.map fun c => (p.1, c) := by
    cases mode with
    | create =>
      dsimp only at h
      split at h
      · cases h
      · cases h
        rfl
    | update =>
      dsimp only at h
      split at h
      · cases h
      · cases h
        rfl
  intro p hp
  rw [hsets, List.mem_filterMap] at hp
  obtain ⟨⟨a, cell⟩, hmem, hcell⟩ := hp
  obtain ⟨c, rfl, rfl⟩ := Option.map_eq_some_iff.mp hcell
  exact encoded_of_encodeAll hencoded _ hmem

/-! ### Rows -/

def ValueRow.isFor (row : ValueRow) (owner attributeId : Id) : Bool :=
  row.owner == owner && row.attributeId == attributeId

theorem ValueRow.isFor_iff {row : ValueRow} {owner attributeId : Id} :
    row.isFor owner attributeId = true ↔ row.owner = owner ∧ row.attributeId = attributeId := by
  simp [isFor]

/-- Rows with one more in place of the one for the same owner and attribute. -/
def upsertRow (row : ValueRow) (rows : List ValueRow) : List ValueRow :=
  rows.filter (fun r => !r.isFor row.owner row.attributeId) ++ [row]

theorem mem_upsertRow {row r : ValueRow} {rows : List ValueRow} :
    r ∈ upsertRow row rows ↔ r = row ∨ (r ∈ rows ∧ r.isFor row.owner row.attributeId = false) := by
  simp [upsertRow, or_comm]

def dropRow (owner attributeId : Id) (rows : List ValueRow) : List ValueRow :=
  rows.filter fun r => !r.isFor owner attributeId

def keyRow (owner attributeId : Id) (key : Option String) (rows : List ValueRow) : List ValueRow :=
  rows.map fun r => if r.isFor owner attributeId then { r with uniqueKey := key } else r

def keyTaken (rows : List ValueRow) (owner attributeId : Id) (key : Option String) : Bool :=
  key.isSome && rows.any fun r =>
    r.attributeId == attributeId && r.uniqueKey == key && r.owner != owner

/-! ### Reading -/

/-- The cell of a row, if it lies in the slot that the attribute has now. -/
def ValueRow.read? (row : ValueRow) (a : AttributeHead) : Option Cell :=
  if row.cell.slot = a.slot then some row.cell.kept else none

def cellOf? (rows : List ValueRow) (owner : Id) (a : AttributeHead) : Option Cell :=
  (rows.find? fun r => r.isFor owner a.id).bind fun r => r.read? a

def cellsOf (rows : List ValueRow) (attributes : List Attribute) (owner : Id) : Cells := fun id =>
  (attributes.find? fun a => a.id == id).bind fun a => cellOf? rows owner a.toAttributeHead

/-- The values of an owner by slug, in slug order; what cannot be decoded is left out. -/
def shownValues (rows : List ValueRow) (attributes : List Attribute) (owner : Id) :
    List (String × Value) :=
  orderKeys (attributes.filterMap fun a =>
    (cellOf? rows owner a.toAttributeHead).bind fun cell =>
      (decodeCell a cell).toOption.map fun v => (a.slug, v))

namespace Session

/-! ### Statements -/

/-- Inserts a row, or puts it in place of the one for its owner and attribute. No two owners may
have one key for an attribute. -/
def upsertValue (table : ValueTable) (row : ValueRow) : Session Unit :=
  write (fun s => keyTaken (s.values table) row.owner row.attributeId row.uniqueKey = false)
    fun s => s.setValues table (upsertRow row (s.values table))

def deleteValue (table : ValueTable) (owner attributeId : Id) : Session Unit :=
  modify fun s => s.setValues table (dropRow owner attributeId (s.values table))

def deleteOwnerValues (table : ValueTable) (owners : List Id) : Session Unit :=
  modify fun s => s.setValues table ((s.values table).filter fun r => !owners.contains r.owner)

def deleteAttributeValues (table : ValueTable) (attributeIds : List Id) : Session Unit :=
  modify fun s =>
    s.setValues table ((s.values table).filter fun r => !attributeIds.contains r.attributeId)

def updateKey (table : ValueTable) (owner attributeId : Id) (key : String) : Session Unit :=
  write (fun s => keyTaken (s.values table) owner attributeId (some key) = false)
    fun s => s.setValues table (keyRow owner attributeId (some key) (s.values table))

def clearKeys (table : ValueTable) (attributeId : Id) : Session Unit :=
  modify fun s => s.setValues table ((s.values table).map fun r =>
    if r.attributeId = attributeId then { r with uniqueKey := none } else r)

/-! ### Applying -/

def storeValue (table : ValueTable) (owner : Id) (a : Attribute) (cell : Cell) : Session Unit := do
  let key ← storedKeyOf a cell
  let s ← get
  require (keyTaken (s.values table) owner a.id key = false) (.conflict (.valueInUse a.slug))
  upsertValue table ⟨owner, a.id, cell, key⟩

def storeValues (table : ValueTable) (owner : Id) : List (Attribute × Cell) → Session Unit
  | [] => pure ()
  | (a, cell) :: rest => do
    storeValue table owner a cell
    storeValues table owner rest

def clearValues (table : ValueTable) (owner : Id) : List Attribute → Session Unit
  | [] => pure ()
  | a :: rest => do
    deleteValue table owner a.id
    clearValues table owner rest

def applyValues (table : ValueTable) (owner : Id) (p : Prepared) : Session Unit := do
  storeValues table owner p.sets
  clearValues table owner p.clears

/-! ### Changing keys -/

/-- Gives each of the rows that the attribute reads its key; keys must not repeat those already
seen. -/
def rekeyRows (table : ValueTable) (a : Attribute) (seen : List String) :
    List ValueRow → Session Unit
  | [] => pure ()
  | row :: rest => do
    match row.read? a.toAttributeHead with
    | none => rekeyRows table a seen rest
    | some cell =>
      let key ← uniqueKeyOf a cell
      require (key ∉ seen) (.conflict (.repeatedValues a.slug))
      updateKey table row.owner a.id key
      rekeyRows table a (key :: seen) rest

/-- Gives the attribute's values keys, or takes them away, as it is unique or not. -/
def rekey (table : ValueTable) (a : Attribute) : Session Unit := do
  if a.isUnique then
    let s ← get
    rekeyRows table a [] ((s.values table).filter fun r => r.attributeId == a.id)
  else clearKeys table a.id

end Session

end RecordStore
