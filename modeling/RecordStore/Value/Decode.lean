import RecordStore.Value.Basic

/-!
# Reading stored values

A cell is read under an attribute: it must lie in the slot of the attribute's type, and a set must
be an array.
-/

namespace RecordStore

def defaultCurrency : String := "USD"

def decodeSingle (type : ValueType) (cell : Cell) : Except Error Value :=
  if cell.slot ≠ type.slot then .error (.storage (.wrongSlot type cell.slot))
  else match cell with
    | .text s => .ok (.text s)
    | .number value unit =>
      if type = .currency then .ok (.currency value (unit.getD defaultCurrency))
      else .ok (.number value)
    | .boolean b => .ok (.boolean b)
    | .date micros =>
      if type = .date then (Calendar.formatDate micros).map .date
      else (Calendar.formatTimestamp micros).map .date
    | .reference id => .ok (.reference id)
    | .structured j =>
      match type with
      | .personalName =>
        match PersonalName.ofJson? j with
        | some name => .ok (.personalName name)
        | none => .error (.storage .malformed)
      | .location =>
        match Location.ofJson? j with
        | some place => .ok (.location place)
        | none => .error (.storage .malformed)
      | _ => .ok (.json j)

theorem slot_of_decodeSingle {type : ValueType} {cell : Cell} {v : Value}
    (h : decodeSingle type cell = .ok v) : cell.slot = type.slot := by
  unfold decodeSingle at h
  split at h
  · cases h
  · exact Decidable.not_not.mp ‹_›

theorem decodeSingle_text {type : ValueType} (h : type.slot = .text) (s : String) :
    decodeSingle type (.text s) = .ok (.text s) := by
  rw [decodeSingle, if_neg (by simp [Cell.slot, h])]

theorem decodeSingle_reference {type : ValueType} (h : type.slot = .reference) (id : Id) :
    decodeSingle type (.reference id) = .ok (.reference id) := by
  rw [decodeSingle, if_neg (by simp [Cell.slot, h])]

/-- One member of a stored set in its public shape: ids are written canonically. -/
def decodeMember (type : ValueType) (member : Json) : Except Error Json :=
  match type.slot, member with
  | .reference, .str s =>
    match Id.ofTrimmed? s with
    | some id => .ok (.str id.text)
    | none => .error (.invalid (.malformedId s))
  | _, other => .ok other

def decodeCell (a : Attribute) (cell : Cell) : Except Error Value :=
  if a.isSet then
    match cell with
    | .structured (.arr items) => (items.mapM (decodeMember a.type)).map .set
    | _ => .error (.storage (.notASet a.slug))
  else decodeSingle a.type cell

end RecordStore
