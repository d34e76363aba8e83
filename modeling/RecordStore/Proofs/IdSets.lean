import RecordStore.Proofs.Collected
import RecordStore.Proofs.JsonTexts
import RecordStore.Proofs.Slots

/-!
# Sets of ids

A set of choices, of records or of actors is stored as an array of the texts of their ids, and kept
as the text of that array. Main statement: it is read back as it was written, is never empty, and
has no id twice, whatever was taken out of it since.
-/

namespace RecordStore

/-! ### Sets as they are kept -/

def idSet (ids : List Id) : Cell := .structured (.arr (ids.map choiceMember))

theorem choiceMember_injective : Function.Injective choiceMember := by
  intro id other h
  exact Id.text_injective (Json.str.inj h)

/-- A set of texts is read back as it was written. -/
theorem kept_of_texts {members : List Json} (h : ∀ m ∈ members, ∃ s, m = .str s) :
    (Cell.structured (.arr members)).kept = .structured (.arr members) := by
  have hmembers := Json.plain_of_texts h
  rw [Cell.kept, Json.kept_eq_self (j := .arr members) hmembers.1 hmembers.2]

theorem kept_idSet (ids : List Id) : (idSet ids).kept = idSet ids := by
  refine kept_of_texts fun m hm => ?_
  obtain ⟨id, -, rfl⟩ := List.mem_map.mp hm
  exact ⟨id.text, rfl⟩

theorem ValueRow.members?_of_idSet {row : ValueRow} {a : AttributeHead} {ids : List Id}
    (hset : a.isSet = true) (hcell : row.cell = idSet ids) :
    row.members? a = some (ids.map choiceMember) := by
  have hslot : row.cell.slot = a.slot := by
    rw [hcell, AttributeHead.slot, if_pos hset]
    rfl
  rw [members?, read?_eq_some hslot, hcell, kept_idSet]
  rfl

/-- A cell holds an id by itself or as the text of it in a set. -/
inductive Cell.Holds (id : Id) : Cell → Prop
  | single : Holds id (.reference id)
  | member {members : List Json} (mem : choiceMember id ∈ members) :
      Holds id (.structured (.arr members))

theorem holds_idSet {ids : List Id} {id : Id} : (idSet ids).Holds id ↔ id ∈ ids := by
  constructor
  · rintro (_ | ⟨mem⟩)
    obtain ⟨i, hi, heq⟩ := List.mem_map.mp mem
    rwa [← choiceMember_injective heq]
  · exact fun h => .member (List.mem_map_of_mem h)

/-- What is stored for an attribute of ids: an id, or a set of some ids, each of them once. -/
inductive OfIds (a : AttributeHead) (cell : Cell) : Prop
  | single (isSingle : a.isSet = false) (id : Id) (eq : cell = .reference id)
  | set (isSet : a.isSet = true) (ids : List Id) (ne : ids ≠ []) (nodup : ids.Nodup)
      (eq : cell = idSet ids)

theorem OfIds.kept_eq {a : AttributeHead} {cell : Cell} (h : OfIds a cell) : cell.kept = cell := by
  rcases h with ⟨-, id, hcell⟩ | ⟨-, ids, -, -, hcell⟩
  · rw [hcell]
    rfl
  · rw [hcell, kept_idSet]

/-! ### Sets as they are collected -/

theorem exists_id_of_encodeMember {a : Attribute} {item member : Json}
    (hslot : a.type.slot = .reference) (h : encodeMember a item = .ok (some member)) :
    ∃ id, encodeSingle a item = .ok (some (.reference id)) ∧ member = choiceMember id := by
  obtain ⟨-, cell, v, hcell, hv, rfl⟩ := exists_of_encodeMember h
  have hreference := (slot_of_encodeSingle hcell).trans hslot
  cases cell with
  | reference id =>
    rw [decodeSingle_reference hslot] at hv
    cases hv
    exact ⟨id, hcell, rfl⟩
  | _ => cases hreference

/-- Collected members that lie in the slot of references are the texts of ids, each once. -/
theorem exists_ids_of_collectMembers {a : Attribute} (hslot : a.type.slot = .reference)
    {items members : List Json} (h : collectMembers a [] items = .ok members) :
    ∃ ids : List Id, ids.Nodup ∧ members = ids.map choiceMember := by
  have hids : ∀ m ∈ members, ∃ id, choiceMember id = m := by
    intro m hm
    obtain ⟨item, -, hmade⟩ := exists_item_of_collectMembers h hm
    obtain ⟨id, -, hid⟩ := exists_id_of_encodeMember hslot hmade
    exact ⟨id, hid.symm⟩
  have hrange : members ∈ Set.range (List.map choiceMember) := by
    rw [Set.range_list_map]
    exact hids
  obtain ⟨ids, rfl⟩ := hrange
  have happart := List.pairwise_map.mp (pairwise_of_collectMembers h)
  refine ⟨ids, happart.imp ?_, rfl⟩
  rintro id _ hdiffer rfl
  cases (sameMember_self _).symm.trans hdiffer

namespace Store

/-! ### Sets as they last -/

/-- A set whose members lie in the slot of references is one of ids: of one at least, and each
once. -/
def HoldsIds (a : AttributeHead) (cell : Cell) : Prop :=
  a.isSet = true → a.type.slot = .reference →
    ∃ ids : List Id, ids ≠ [] ∧ ids.Nodup ∧ cell = idSet ids

theorem HoldsIds.ofIds {a : AttributeHead} {cell : Cell} (h : HoldsIds a cell)
    (hslot : a.type.slot = .reference) (hcell : cell.slot = a.slot) : OfIds a cell := by
  cases hset : a.isSet with
  | false =>
    rw [AttributeHead.slot, hset, if_neg Bool.false_ne_true, hslot] at hcell
    cases cell with
    | reference id => exact .single hset id rfl
    | _ => cases hcell
  | true =>
    obtain ⟨ids, hne, hnodup, hids⟩ := h hset hslot
    exact .set hset ids hne hnodup hids

theorem holdsIds_encodeValue {a : Attribute} {raw : Json} {cell : Cell}
    (h : encodeValue a raw = .ok (some cell)) : HoldsIds a.toAttributeHead cell := by
  intro hset hslot
  rcases (encodeValue_cases h).2 with ⟨-, items, m, rest, hmembers, rfl⟩ | ⟨hsingle, -⟩
  · obtain ⟨ids, hnodup, hids⟩ := exists_ids_of_collectMembers hslot hmembers
    refine ⟨ids, ?_, hnodup, by rw [idSet, hids]⟩
    rintro rfl
    cases hids
  · exact absurd hset hsingle

theorem holdsIds_shrunk {a : AttributeHead} {cell : Cell} {members : List Json} (p : Json → Bool)
    (hkept : cell.kept = .structured (.arr members)) (left : members.filter p ≠ [])
    (h : HoldsIds a cell) : HoldsIds a (.structured (.arr (members.filter p))) := by
  intro hset hslot
  obtain ⟨ids, -, hnodup, rfl⟩ := h hset hslot
  rw [kept_idSet, idSet] at hkept
  cases hkept
  rw [List.filter_map] at left ⊢
  refine ⟨ids.filter (p ∘ choiceMember), ?_, hnodup.filter _, rfl⟩
  rintro hnone
  rw [hnone] at left
  exact left rfl

/-- Ids mean something under one type only, so a set of them keeps its type. -/
theorem holdsIds_retyped {a next : AttributeHead} {cell : Cell}
    (hstays : storageChanges a next = false) (h : HoldsIds a cell) : HoldsIds next cell := by
  intro hset hslot
  obtain ⟨hslots, htypes⟩ := storageChanges_eq_false_iff.mp hstays
  have hown : hasOwnContent next.type = true := by
    revert hslot
    cases next.type <;> decide
  have htype : a.type = next.type := htypes.resolve_right fun hplain => by simp [hown] at hplain
  refine h ?_ (htype ▸ hslot)
  by_contra hsingle
  rw [AttributeHead.slot, if_neg hsingle, AttributeHead.slot, if_pos hset, htype, hslot] at hslots
  cases hslots

theorem lasting_holdsIds : Lasting HoldsIds where
  encoded := holdsIds_encodeValue
  shrunk p _ hkept left h := holdsIds_shrunk p hkept left h
  retyped _ hstays h := holdsIds_retyped hstays h

/-- The value in a row of an attribute of ids, as it is stored and as it is read. -/
theorem Reachable.ofIds_of_row {s : Store} (h : s.Reachable) {table : ValueTable} {row : ValueRow}
    (hrow : row ∈ s.values table) {a : AttributeHead} (ha : a ∈ s.attributes)
    (hid : a.id = row.attributeId) (hslot : a.type.slot = .reference) :
    row.read? a = some row.cell ∧ OfIds a row.cell := by
  have hcell := (h.fitting table row hrow a ha hid).slot
  have hids := (h.allCells lasting_holdsIds table row hrow a ha hid).ofIds hslot hcell
  exact ⟨by rw [ValueRow.read?_eq_some hcell, hids.kept_eq], hids⟩

end Store

end RecordStore
