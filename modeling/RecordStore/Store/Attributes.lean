import RecordStore.Store.Values

/-!
# Attributes of a store

Attributes are created with their choices, if any. A change of an attribute must not strand its
stored values: while there are any, neither their slot nor the meaning of their content may change.
-/

namespace RecordStore

/-! ### New attributes -/

structure NewOption where
  title : String
  color : Option String
deriving DecidableEq

structure NewStatus where
  title : String
  color : Option String
  isActive : Bool
  celebrates : Bool
deriving DecidableEq

structure NewAttribute where
  parent : Parent
  slug : String
  title : String
  type : ValueType
  settings : Option Json
  isSystem : Bool
  isRequired : Bool
  isUnique : Bool
  isSet : Bool
  sortOrder : Option Int32
  options : List NewOption
  statuses : List NewStatus

namespace NewAttribute

/-- An attribute of which no more is said than its names and its type. -/
def plain (parent : Parent) (slug title : String) (type : ValueType) : NewAttribute :=
  ⟨parent, slug, title, type, none, false, false, false, false, none, [], []⟩

def check (new : NewAttribute) : Except Error Unit := do
  checkSlug new.slug
  require (¬ Text.isBlank new.title) (.invalid (.nameBlank .attributeTitle))
  require (new.isSet → new.type.allowsSets) (.invalid (.setsNotAllowed new.type))
  require (new.options = [] ∨ new.type = .select) (.invalid .optionsNotAllowed)
  require (new.statuses = [] ∨ new.type = .status) (.invalid .statusesNotAllowed)
  require (new.settings.all Json.isObject) (.invalid .settingsNotObject)

def settingsOrEmpty (new : NewAttribute) : Json := new.settings.getD (.obj [])

/-- The place of a new attribute: the one asked for, or the one after the given places. Its choices
get the places from 0 on, so there must not be more of them than these. -/
def place (new : NewAttribute) (places : List Int32) : Except Error Int32 := do
  require (new.options.length ≤ placeCount ∧ new.statuses.length ≤ placeCount)
    (.storage .placeOverflow)
  match new.sortOrder with
  | some place => return place
  | none => nextPlace places

theorem few_of_place {new : NewAttribute} {places : List Int32} {place : Int32}
    (h : new.place places = .ok place) :
    new.options.length ≤ placeCount ∧ new.statuses.length ≤ placeCount := by
  obtain ⟨_, hfew, -⟩ := bind_eq_ok_iff.mp h
  exact require_eq_ok_iff.mp hfew

/-- Nothing but the want of places is in the way of one. -/
theorem eq_placeOverflow_of_place {new : NewAttribute} {places : List Int32} {e : Error}
    (h : new.place places = .error e) : e = .storage .placeOverflow := by
  rcases bind_eq_error_iff.mp h with h | ⟨_, -, h⟩
  · exact (require_eq_error_iff.mp h).2.symm
  · split at h
    · cases h
    · exact (nextPlace_eq_error_iff.mp h).2.symm

end NewAttribute

structure AttributeChanges where
  slug : Option String
  title : Option String
  type : Option ValueType
  settings : Option Json
  isRequired : Option Bool
  isUnique : Option Bool
  isSet : Option Bool
  sortOrder : Option Int32

namespace Store

def hasParent (s : Store) : Parent → Bool
  | .object id => (s.object? id).isSome
  | .list id => (s.list? id).isSome

def slugTaken (s : Store) (parent : Parent) (slug : String) : Bool :=
  (s.attributesOf parent).any fun a => a.slug == slug

def hasValues (s : Store) (a : AttributeHead) : Bool :=
  (s.values a.parent.valueTable).any fun row => row.attributeId == a.id

/-- The slug of an attribute after a change: a new one must be free. -/
def changedSlug (s : Store) (current : AttributeHead) : Option String → Except Error String
  | none => .ok current.slug
  | some slug => do
    checkSlug slug
    require (slug = current.slug ∨ ¬ s.slugTaken current.parent slug)
      (.conflict (.attributeSlug slug))
    return slug

/-- The type of an attribute after a change: that of a system attribute is fixed. -/
def changedType (current : AttributeHead) : Option ValueType → Except Error ValueType
  | none => .ok current.type
  | some type => do
    require (type = current.type ∨ ¬ current.isSystem) (.policy (.retypeAttribute current.slug))
    return type

def changedSettings (current : AttributeHead) : Option Json → Except Error Json
  | none => .ok current.settings
  | some settings => do
    require settings.isObject (.invalid .settingsNotObject)
    return settings

def changedAttribute (s : Store) (current : AttributeHead) (changes : AttributeChanges) :
    Except Error AttributeHead := do
  let slug ← s.changedSlug current changes.slug
  let title ← changedName .attributeTitle current.title changes.title
  let type ← changedType current changes.type
  let settings ← changedSettings current changes.settings
  let isSet := changes.isSet.getD current.isSet
  require (isSet → type.allowsSets) (.invalid (.setsNotAllowed type))
  return { current with
    slug, title, type, settings, isSet
    isRequired := changes.isRequired.getD current.isRequired
    isUnique := changes.isUnique.getD current.isUnique
    sortOrder := changes.sortOrder.getD current.sortOrder }

/-! ### What a change leaves -/

section

variable {s : Store} {current next : AttributeHead}

/-- A slug that is asked for is in order, and is the attribute's own or free. -/
theorem changedSlug_eq_ok {asked : Option String} {slug : String}
    (h : s.changedSlug current asked = .ok slug) :
    slug = asked.getD current.slug ∧ (asked.isSome = true →
      checkSlug slug = .ok () ∧ (slug = current.slug ∨ ¬ s.slugTaken current.parent slug)) := by
  cases asked with
  | none =>
    cases h
    exact ⟨rfl, nofun⟩
  | some given =>
    obtain ⟨_, hcheck, h⟩ := bind_eq_ok_iff.mp h
    obtain ⟨_, hfree, h⟩ := bind_eq_ok_iff.mp h
    cases h
    exact ⟨rfl, fun _ => ⟨hcheck, require_eq_ok_iff.mp hfree⟩⟩

theorem changedType_eq_ok {asked : Option ValueType} {type : ValueType}
    (h : changedType current asked = .ok type) : type = asked.getD current.type := by
  cases asked with
  | none =>
    cases h
    rfl
  | some given =>
    obtain ⟨_, -, h⟩ := bind_eq_ok_iff.mp h
    cases h
    rfl

theorem changedSettings_eq_ok {asked : Option Json} {settings : Json}
    (h : changedSettings current asked = .ok settings) :
    settings = asked.getD current.settings := by
  cases asked with
  | none =>
    cases h
    rfl
  | some given =>
    obtain ⟨_, -, h⟩ := bind_eq_ok_iff.mp h
    cases h
    rfl

/-- A change leaves what it asks for, and what it does not ask for as it was. -/
theorem changedAttribute_eq_ok {changes : AttributeChanges}
    (h : s.changedAttribute current changes = .ok next) :
    ∃ slug title, s.changedSlug current changes.slug = .ok slug ∧
      changedName .attributeTitle current.title changes.title = .ok title ∧
      (changes.isSet.getD current.isSet = true →
        (changes.type.getD current.type).allowsSets = true) ∧
      next = { current with
        slug, title
        type := changes.type.getD current.type
        settings := changes.settings.getD current.settings
        isSet := changes.isSet.getD current.isSet
        isRequired := changes.isRequired.getD current.isRequired
        isUnique := changes.isUnique.getD current.isUnique
        sortOrder := changes.sortOrder.getD current.sortOrder } := by
  obtain ⟨slug, hslug, h⟩ := bind_eq_ok_iff.mp h
  obtain ⟨title, htitle, h⟩ := bind_eq_ok_iff.mp h
  obtain ⟨type, htype, h⟩ := bind_eq_ok_iff.mp h
  obtain ⟨settings, hsettings, h⟩ := bind_eq_ok_iff.mp h
  obtain ⟨_, hsets, h⟩ := bind_eq_ok_iff.mp h
  cases h
  obtain rfl := changedType_eq_ok htype
  obtain rfl := changedSettings_eq_ok hsettings
  exact ⟨slug, title, hslug, htitle, require_eq_ok_iff.mp hsets, rfl⟩

end

/-! ### Storage -/

/-- Types whose stored content means nothing under another type: ids of choices, records and
actors, and amounts with their currency. -/
def hasOwnContent : ValueType → Bool
  | .currency | .select | .status | .recordReference | .actorReference => true
  | _ => false

/-- Whether stored values could not be read as before after a change. -/
def storageChanges (current next : AttributeHead) : Bool :=
  current.slot != next.slot ||
    (current.type != next.type && (hasOwnContent current.type || hasOwnContent next.type))

/-- Without a change of storage the slot stays, and so does a type with content of its own. -/
theorem storageChanges_eq_false_iff {current next : AttributeHead} :
    storageChanges current next = false ↔ current.slot = next.slot ∧
      (current.type = next.type ∨
        hasOwnContent current.type = false ∧ hasOwnContent next.type = false) := by
  by_cases h : current.type = next.type <;> simp [storageChanges, h]

end Store

namespace Session

/-! ### Statements -/

def insertAttribute (head : AttributeHead) : Session Unit :=
  write (fun s => ∀ a ∈ s.attributes, a.Apart head)
    fun s => { s with attributes := s.attributes ++ [head] }

def insertOptionRow (option : SelectOption) : Session Unit :=
  write (fun s => ∀ o ∈ s.options, o.Apart option)
    fun s => { s with options := s.options ++ [option] }

def insertStatusRow (status : Status) : Session Unit :=
  write (fun s => ∀ t ∈ s.statuses, t.Apart status)
    fun s => { s with statuses := s.statuses ++ [status] }

def replaced (next a : AttributeHead) : AttributeHead :=
  if a.id = next.id then
    { next with
      id := a.id
      parent := a.parent
      isSystem := a.isSystem
      createdAt := a.createdAt }
  else a

/-- Replaces what may change of an attribute; its slug stays one of its own in its parent. -/
def updateAttributeRow (next : AttributeHead) : Session Unit :=
  write (fun s => (s.attributes.map (replaced next)).Pairwise AttributeHead.Apart)
    fun s => { s with attributes := s.attributes.map (replaced next) }

/-! ### Creating -/

def insertOption (attributeId id : Id) (place : Int32) (new : NewOption) :
    Session SelectOption := do
  let title ← requireName .optionTitle new.title
  let option : SelectOption := ⟨id, attributeId, title, new.color, place⟩
  insertOptionRow option
  return option

def insertStatus (attributeId id : Id) (place : Int32) (new : NewStatus) : Session Status := do
  let title ← requireName .statusTitle new.title
  let status : Status :=
    ⟨id, attributeId, title, new.color, place, new.isActive, new.celebrates⟩
  insertStatusRow status
  return status

def insertOptions (setup : Setup) (stamp : Stamp) (attributeId : Id) (place : Nat) :
    List NewOption → Session (List SelectOption)
  | [] => return []
  | new :: rest => do
    let option ← insertOption attributeId (stamp.fresh (place + 1)) (Int32.ofNat place) new
    setup.pass .optionInserted
    let others ← insertOptions setup stamp attributeId (place + 1) rest
    return option :: others

def insertStatuses (setup : Setup) (stamp : Stamp) (attributeId : Id) (place : Nat) :
    List NewStatus → Session (List Status)
  | [] => return []
  | new :: rest => do
    let status ← insertStatus attributeId (stamp.fresh (place + 1)) (Int32.ofNat place) new
    setup.pass .optionInserted
    let others ← insertStatuses setup stamp attributeId (place + 1) rest
    return status :: others

def insertWithChoices (setup : Setup) (stamp : Stamp) (head : AttributeHead)
    (newOptions : List NewOption) (newStatuses : List NewStatus) : Session Attribute := do
  insertAttribute head
  setup.pass .attributeInserted
  let options ← insertOptions setup stamp head.id 0 newOptions
  let statuses ← insertStatuses setup stamp head.id 0 newStatuses
  return { head with options, statuses }

def createAttribute (setup : Setup) (stamp : Stamp) (new : NewAttribute) : Session Attribute := do
  new.check
  let title ← requireName .attributeTitle new.title
  let s ← get
  require (s.hasParent new.parent) (.notFound .parent new.parent.id)
  require (¬ s.slugTaken new.parent new.slug) (.conflict (.attributeSlug new.slug))
  let sortOrder ← new.place ((s.attributesOf new.parent).map (·.sortOrder))
  let head : AttributeHead := {
    id := stamp.fresh 0
    parent := new.parent
    slug := new.slug
    title
    type := new.type
    settings := new.settingsOrEmpty
    isSystem := new.isSystem
    isRequired := new.isRequired
    isUnique := new.isUnique
    isSet := new.isSet
    sortOrder
    createdAt := stamp.now }
  transaction (insertWithChoices setup stamp head new.options new.statuses)

/-! ### Changing -/

/-- Puts a changed attribute in place of the current one, and gives its values keys or takes them
away when it becomes unique or ceases to be. -/
def replaceAttribute (current changed : Attribute) : Session Unit := do
  let s ← get
  require (¬ (Store.storageChanges current.toAttributeHead changed.toAttributeHead ∧
    s.hasValues current.toAttributeHead)) (.invalid (.storageFixed current.slug))
  updateAttributeRow changed.toAttributeHead
  if changed.isUnique ≠ current.isUnique then rekey current.parent.valueTable changed

/-- Changes an attribute; its choices are those from before. -/
def updateAttribute (id : Id) (changes : AttributeChanges) : Session Attribute := do
  let current ← look fun s => s.requireAttribute id
  let next ← look fun s => s.changedAttribute current.toAttributeHead changes
  let changed : Attribute := { current with toAttributeHead := next }
  transaction (replaceAttribute current changed)
  return changed

end Session

end RecordStore
