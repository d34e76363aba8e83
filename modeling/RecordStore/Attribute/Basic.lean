import RecordStore.Attribute.Slug
import RecordStore.Calendar.Instant

/-!
# Attributes

An attribute describes one field of the records of an object, or of the entries of one list. A
select attribute has options to choose from, a status attribute has statuses.
-/

namespace RecordStore

inductive Parent where
  | object (id : Id)
  | list (id : Id)
deriving DecidableEq

namespace Parent

def id : Parent → Id
  | .object id | .list id => id

def code : Parent → Int
  | .object _ => 1
  | .list _ => 2

def ofCode? (code : Int) (id : Id) : Option Parent :=
  if code = 1 then some (.object id) else if code = 2 then some (.list id) else none

end Parent

structure SelectOption where
  id : Id
  attributeId : Id
  title : String
  color : Option String
  sortOrder : Int32
deriving DecidableEq

structure Status where
  id : Id
  attributeId : Id
  title : String
  color : Option String
  sortOrder : Int32
  isActive : Bool
  celebrates : Bool
deriving DecidableEq

structure AttributeHead where
  id : Id
  parent : Parent
  slug : String
  title : String
  type : ValueType
  settings : Json
  isSystem : Bool
  isRequired : Bool
  isUnique : Bool
  isSet : Bool
  sortOrder : Int32
  createdAt : Timestamp

structure Attribute extends AttributeHead where
  options : List SelectOption
  statuses : List Status

namespace AttributeHead

/-- The slot of stored values: sets are always structured. -/
def slot (a : AttributeHead) : Slot := if a.isSet then .structured else a.type.slot

def operators (a : AttributeHead) : List Operator :=
  if a.isSet then Operator.onSets else a.type.slot.operators

def textSetting? (a : AttributeHead) (key : String) : Option String :=
  (a.settings.member? key).bind Json.str?

def natSetting? (a : AttributeHead) (key : String) : Option Nat :=
  (a.settings.member? key).bind (Json.natBelow? UInt64.size)

end AttributeHead

namespace Attribute

def hasOption (a : Attribute) (id : Id) : Bool := a.options.any (·.id == id)

def hasStatus (a : Attribute) (id : Id) : Bool := a.statuses.any (·.id == id)

end Attribute

/-! ### Places -/

/-- How many places of 32 bits there are from 0 on. -/
def placeCount : Nat := 2147483648

theorem toInt_ofNat_of_lt_placeCount {n : Nat} (h : n < placeCount) : (Int32.ofNat n).toInt = n :=
  Int32.toInt_ofNat_of_lt h

instance lawfulOrderMax_int32 : Std.LawfulOrderMax Int32 where
  max_eq_or a b := by
    change (if a ≤ b then b else a) = a ∨ (if a ≤ b then b else a) = b
    split
    · exact .inr rfl
    · exact .inl rfl
  max_le_iff a b c := by
    change (if a ≤ b then b else a) ≤ c ↔ _
    simp only [Int32.le_iff_toInt_le]
    split <;> omega

/-- The place after the highest of the given ones; the first place is 0. Places have 32 bits, so the
highest may have none after it. -/
def nextPlace (places : List Int32) : Except Error Int32 :=
  match places.max? with
  | some top => do
    require (top ≠ Int32.maxValue) (.storage .placeOverflow)
    return top + 1
  | none => .ok 0

/-- A next place is missing just if the highest of all is given. -/
theorem nextPlace_eq_error_iff {places : List Int32} {e : Error} :
    nextPlace places = .error e ↔
      Int32.maxValue ∈ places ∧ .storage .placeOverflow = e := by
  rw [nextPlace]
  split
  · rename_i top htop
    obtain ⟨hmem, hhighest⟩ := List.max?_eq_some_iff.mp htop
    have htop : ¬ top ≠ Int32.maxValue ↔ Int32.maxValue ∈ places := by
      rw [Decidable.not_not]
      exact ⟨fun h => h ▸ hmem, fun hmax => Int32.le_antisymm top.le_maxValue (hhighest _ hmax)⟩
    rw [bind_eq_error_iff, or_iff_left nofun, require_eq_error_iff, htop]
  · rename_i hnone
    rw [List.max?_eq_none_iff.mp hnone]
    exact iff_of_false nofun fun h => nomatch h.1

/-- Below the highest place of all, adding one does not wrap around. -/
theorem toInt_add_one {place : Int32} (h : place ≠ Int32.maxValue) :
    (place + 1).toInt = place.toInt + 1 := by
  have hne : place.toInt ≠ 2 ^ 31 - 1 := fun heq =>
    h (Int32.toInt_inj.mp (heq.trans Int32.toInt_maxValue.symm))
  have hlow := place.le_toInt
  have hhigh := place.toInt_lt
  rw [Int32.toInt_add, Int32.toInt_one, Int.bmod_eq_of_le (by omega) (by omega)]

theorem lt_of_nextPlace {places : List Int32} {next place : Int32} (h : nextPlace places = .ok next)
    (hplace : place ∈ places) : place < next := by
  rw [nextPlace] at h
  split at h
  · rename_i top htop
    obtain ⟨_, hroom, h⟩ := bind_eq_ok_iff.mp h
    cases h
    have hle := Int32.le_iff_toInt_le.mp ((List.max?_eq_some_iff.mp htop).2 place hplace)
    rw [Int32.lt_iff_toInt_lt, toInt_add_one (require_eq_ok_iff.mp hroom)]
    omega
  · rename_i hnone
    rw [List.max?_eq_none_iff.mp hnone] at hplace
    cases hplace

end RecordStore
