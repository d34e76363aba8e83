import Mathlib
import RecordStore.Proofs.KeyedWrites
import RecordStore.Proofs.Required
import RecordStore.Proofs.SetKeys

/-!
# Removal of choices

When a choice is removed, the rows of its attribute are rewritten one after the other, and the
unique index looks at each of them while some rows are done and others are not. Main statement: in
whatever order that is, the removal is refused just if two owners would be left with one set of a
unique attribute, and otherwise it takes the choice out of all values and does nothing else.
-/

namespace RecordStore

/-! ### What is left -/

/-- What is left of a cell without a choice, if it is not that choice alone. -/
def Cell.without? (choice : Id) : Cell → Option Cell
  | .reference id => if id = choice then none else some (.reference id)
  | .structured (.arr members) =>
    Cell.ofMembers (members.filter fun m => !m.same (choiceMember choice))
  | other => some other

/-- What is left of a row of an attribute without a choice, with the key of what is left. -/
def ValueRow.without? (a : Attribute) (choice : Id) (row : ValueRow) : Option ValueRow :=
  if row.attributeId = a.id then
    (row.cell.without? choice).map fun cell => newRow row.owner (a, cell)
  else some row

/-- Two owners are left with sets of one text, which a unique attribute does not allow. -/
def Collide (a : Attribute) (choice : Id) (rows : List ValueRow) : Prop :=
  a.isUnique = true ∧ a.isSet = true ∧ ∃ row ∈ rows, ∃ other ∈ rows,
    row.owner ≠ other.owner ∧ row.attributeId = a.id ∧ other.attributeId = a.id ∧
      ∃ left left', row.cell.without? choice = some left ∧
        other.cell.without? choice = some left' ∧ left.canonicalKey = left'.canonicalKey

/-- A row of an attribute of ids, with the key that belongs to it. -/
structure ValueRow.Tidy (row : ValueRow) (a : Attribute) : Prop where
  ofAttribute : row.attributeId = a.id
  ofIds : OfIds a.toAttributeHead row.cell
  keyed : row.uniqueKey = keyOf a row.cell
  short : a.isUnique = true → row.cell.canonicalKey.length ≤ 255

section

variable {a : Attribute} {choice : Id} {row : ValueRow} {ids : List Id}

theorem ValueRow.without?_of_eq (h : row.attributeId = a.id) : row.without? a choice =
    (row.cell.without? choice).map fun cell => newRow row.owner (a, cell) := if_pos h

theorem ValueRow.without?_of_ne (h : row.attributeId ≠ a.id) :
    row.without? a choice = some row := if_neg h

theorem ValueRow.Tidy.newRow_eq (h : row.Tidy a) : newRow row.owner (a, row.cell) = row := by
  rw [newRow, ← h.keyed, ← h.ofAttribute]

/-! ### Sets of ids -/

theorem without?_reference (id : Id) :
    (Cell.reference id).without? choice = if id = choice then none else some (.reference id) := rfl

theorem without?_idSet (ids : List Id) (choice : Id) :
    (idSet ids).without? choice =
      Cell.ofMembers ((ids.filter fun id => id != choice).map choiceMember) := by
  have hother : (fun m : Json => !m.same (choiceMember choice)) ∘ choiceMember =
      fun id => id != choice := by
    funext id
    rw [Function.comp_apply, Bool.not_eq_eq_eq_not, Bool.eq_iff_iff, same_choiceMember,
      choiceMember_injective.eq_iff]
    simp
  rw [idSet, Cell.without?, List.filter_map, hother]

theorem without?_idSet_eq_some_iff {left : Cell} :
    (idSet ids).without? choice = some left ↔ (ids.filter fun id => id != choice) ≠ [] ∧
      left = idSet (ids.filter fun id => id != choice) := by
  rw [without?_idSet, ofMembers_eq_some_iff, Ne, List.map_eq_nil_iff]
  rfl

theorem canonicalKey_idSet_iff {ids ids' : List Id} :
    (idSet ids).canonicalKey = (idSet ids').canonicalKey ↔ ids = ids' := by
  have htexts : ∀ ids : List Id, idSet ids = textSet (ids.map Id.text) := fun ids => by
    rw [idSet, textSet, List.map_map]
    rfl
  rw [htexts, htexts, canonicalKey_textSet_iff]
  exact (List.map_injective_iff.mpr Id.text_injective).eq_iff

theorem Json.length_moreItemsChars {items items' : List Json} (h : items.Sublist items') :
    (moreItemsChars items).length ≤ (moreItemsChars items').length := by
  induction h with
  | slnil => exact le_rfl
  | cons item _ ih =>
    simp only [moreItemsChars, List.length_cons, List.length_append]
    omega
  | cons_cons item _ ih =>
    simp only [moreItemsChars, List.length_cons, List.length_append]
    omega

theorem Json.length_itemsChars {items items' : List Json} (h : items.Sublist items') :
    (itemsChars items).length ≤ (itemsChars items').length := by
  have hmore : ∀ items, (itemsChars items).length ≤ (moreItemsChars items).length := by
    rintro (_ | ⟨item, rest⟩)
    · exact le_rfl
    · simp only [itemsChars, moreItemsChars, List.length_cons]
      omega
  cases h with
  | slnil => exact le_rfl
  | @cons _ rest item h =>
    have hrest := (hmore items).trans (length_moreItemsChars h)
    simp only [itemsChars, List.length_append]
    omega
  | cons_cons item h =>
    have hrest := length_moreItemsChars h
    simp only [itemsChars, List.length_append]
    omega

/-- A set that loses members has no longer a key than before. -/
theorem length_canonicalKey_idSet {ids ids' : List Id} (h : ids.Sublist ids') :
    (idSet ids).canonicalKey.length ≤ (idSet ids').canonicalKey.length := by
  have hitems := Json.length_itemsChars (h.map choiceMember)
  simp only [idSet, Cell.canonicalKey, Json.text, Json.chars, String.length_ofList,
    List.length_cons]
  omega

/-! ### Rows of ids -/

theorem filter_ne_eq_self_iff : ids.filter (fun id => id != choice) = ids ↔ choice ∉ ids := by
  rw [List.filter_eq_self]
  exact ⟨fun h hmem => by simpa using h choice hmem, fun h id hid => bne_iff_ne.mpr fun heq =>
    h (heq ▸ hid)⟩

/-- What does not hold the choice is left as it is. -/
theorem OfIds.without?_eq_self {cell : Cell} (h : OfIds a.toAttributeHead cell)
    (hholds : ¬ cell.Holds choice) : cell.without? choice = some cell := by
  rcases h with ⟨-, id, rfl⟩ | ⟨-, ids, hne, -, rfl⟩
  · have hne : id ≠ choice := fun hid => hholds (hid ▸ .single)
    exact if_neg hne
  · have hsame := filter_ne_eq_self_iff.mpr fun hmem => hholds (holds_idSet.mpr hmem)
    rw [without?_idSet_eq_some_iff, hsame]
    exact ⟨hne, rfl⟩

theorem not_holds_of_without? {cell left : Cell} (h : OfIds a.toAttributeHead cell)
    (hleft : cell.without? choice = some left) :
    OfIds a.toAttributeHead left ∧ ¬ left.Holds choice := by
  rcases h with ⟨hsingle, id, rfl⟩ | ⟨hisSet, ids, -, hnodup, rfl⟩
  · rw [Cell.without?, Option.ite_none_left_eq_some] at hleft
    obtain ⟨hne, hleft⟩ := hleft
    cases hleft
    refine ⟨.single hsingle id rfl, ?_⟩
    rintro ⟨⟩
    exact hne rfl
  · obtain ⟨hne, rfl⟩ := without?_idSet_eq_some_iff.mp hleft
    refine ⟨.set hisSet _ hne (hnodup.filter _) rfl, fun hholds => ?_⟩
    simpa using List.of_mem_filter (holds_idSet.mp hholds)

/-- Two sets of ids that are left have one key just if they are the same. -/
theorem eq_of_canonicalKey_eq (hisSet : a.isSet = true) {cell other : Cell}
    (h : OfIds a.toAttributeHead cell) (h' : OfIds a.toAttributeHead other)
    (hkey : cell.canonicalKey = other.canonicalKey) : cell = other := by
  rcases h with ⟨hsingle, -⟩ | ⟨-, ids, -, -, rfl⟩
  · cases hsingle.symm.trans hisSet
  · rcases h' with ⟨hsingle, -⟩ | ⟨-, ids', -, -, rfl⟩
    · cases hsingle.symm.trans hisSet
    · rw [canonicalKey_idSet_iff.mp hkey]

end

/-! ### Rows in a table -/

section

variable {rows rest : List ValueRow} {row new : ValueRow}

theorem isFor_eq_false_of_apart (happart : rows.Pairwise ValueRow.Apart)
    (hperm : rows.Perm (row :: rest)) : ∀ r ∈ rest, r.isFor row.owner row.attributeId = false := by
  intro r hr
  have hpairwise := (hperm.pairwise_iff fun h => symm h).mp happart
  have hrow := (List.pairwise_cons.mp hpairwise).1 r hr
  rw [← Bool.not_eq_true, ValueRow.isFor_iff]
  exact fun hsame => (hrow hsame.2.symm).1 hsame.1.symm

theorem dropRow_perm {owner id : Id} (hperm : rows.Perm (row :: rest))
    (hrow : row.isFor owner id = true) (hrest : ∀ r ∈ rest, r.isFor owner id = false) :
    (dropRow owner id rows).Perm rest := by
  have hfilter : (row :: rest).filter (fun r => !r.isFor owner id) = rest := by
    rw [List.filter_cons_of_neg (by simp [hrow]), List.filter_eq_self]
    exact fun r hr => by simp [hrest r hr]
  exact hfilter ▸ hperm.filter _

theorem upsertRow_perm (hperm : rows.Perm (row :: rest))
    (hrow : row.isFor new.owner new.attributeId = true)
    (hrest : ∀ r ∈ rest, r.isFor new.owner new.attributeId = false) :
    (upsertRow new rows).Perm (new :: rest) :=
  ((dropRow_perm hperm hrow hrest).append_right [new]).trans
    (List.perm_append_singleton new rest)

end

namespace Session

variable {s : Store} {table : ValueTable} {a : Attribute} {choice : Id} {row : ValueRow}

/-! ### One row -/

/-- Puts what is left of a value in place of it. -/
def leave (table : ValueTable) (a : Attribute) (owner : Id) : Option Cell → Session Unit
  | none => deleteValue table owner a.id
  | some cell => do
    let key ← storedKeyOf a cell
    upsertValue table ⟨owner, a.id, cell, key⟩

theorem dropMember_eq (table : ValueTable) (a : Attribute) (member : Json) (owner : Id)
    (members : List Json) : dropMember table a member owner members =
      leave table a owner (Cell.ofMembers (members.filter fun m => !m.same member)) := by
  rw [dropMember]
  cases members.filter fun m => !m.same member <;> rfl

theorem any_same_iff {ids : List Id} :
    (ids.map choiceMember).any (fun m => m.same (choiceMember choice)) = true ↔
      (idSet ids).Holds choice := by
  rw [holds_idSet, List.any_map, List.any_eq_true]
  simp [same_choiceMember, choiceMember_injective.eq_iff]

theorem dropMemberOf_of_not_holds (hisSet : a.isSet = true) (hrow : row.Tidy a)
    (hholds : ¬ row.cell.Holds choice) :
    dropMemberOf table a (choiceMember choice) row = pure () := by
  rcases hrow.ofIds with ⟨hsingle, -⟩ | ⟨-, ids, -, -, hcell⟩
  · cases hsingle.symm.trans hisSet
  · rw [hcell, ← any_same_iff] at hholds
    rw [dropMemberOf, ValueRow.members?_of_idSet hisSet hcell]
    exact if_neg hholds

theorem dropMemberOf_of_holds (hisSet : a.isSet = true) (hrow : row.Tidy a)
    (hholds : row.cell.Holds choice) : dropMemberOf table a (choiceMember choice) row =
      leave table a row.owner (row.cell.without? choice) := by
  rcases hrow.ofIds with ⟨hsingle, -⟩ | ⟨-, ids, -, -, hcell⟩
  · cases hsingle.symm.trans hisSet
  · rw [hcell, ← any_same_iff] at hholds
    rw [dropMemberOf, ValueRow.members?_of_idSet hisSet hcell, hcell]
    exact (if_pos hholds).trans (dropMember_eq ..)

theorem storedKeyOf_of_without? {cell : Cell} (hrow : row.Tidy a)
    (hleft : row.cell.without? choice = some cell) : storedKeyOf a cell = .ok (keyOf a cell) := by
  refine storedKeyOf_eq_ok_iff.mpr ⟨fun hunique => le_trans ?_ (hrow.short hunique), rfl⟩
  rcases hrow.ofIds with ⟨-, id, hcell⟩ | ⟨-, ids, -, -, hcell⟩ <;> rw [hcell] at hleft ⊢
  · rw [Cell.without?, Option.ite_none_left_eq_some] at hleft
    rw [Option.some.inj hleft.2]
  · rw [(without?_idSet_eq_some_iff.mp hleft).2]
    exact length_canonicalKey_idSet List.filter_sublist

/-- A row is rewritten unless somebody else has the key of what is left of it. -/
theorem run_dropMemberOf (hisSet : a.isSet = true) (hrow : row.Tidy a) (choice : Id)
    {rest : List ValueRow}
    (hperm : (s.values table).Perm (row :: rest))
    (happart : (s.values table).Pairwise ValueRow.Apart) :
    Succeeds s (dropMemberOf table a (choiceMember choice) row) (fun _ t => ∃ rows,
        t = s.setValues table rows ∧ rows.Perm ((row.without? a choice).toList ++ rest) ∧
          rows.Pairwise ValueRow.Apart) ∨
      Fails s (dropMemberOf table a (choiceMember choice) row) (.conflict .uniqueIndex) ∧
        ∃ left, row.cell.without? choice = some left ∧
          keyTaken rest row.owner a.id (keyOf a left) = true := by
  have hrest := isFor_eq_false_of_apart happart hperm
  have hfor : row.isFor row.owner row.attributeId = true := ValueRow.isFor_iff.mpr ⟨rfl, rfl⟩
  rw [hrow.ofAttribute] at hrest hfor
  rw [ValueRow.without?_of_eq hrow.ofAttribute]
  by_cases hholds : row.cell.Holds choice
  · rw [dropMemberOf_of_holds hisSet hrow hholds]
    cases hleft : row.cell.without? choice with
    | none =>
      exact .inl ⟨(), _, rfl, dropRow row.owner a.id (s.values table), rfl,
        dropRow_perm hperm hfor hrest, happart.filter _⟩
    | some cell =>
      rw [leave, storedKeyOf_of_without? hrow hleft]
      by_cases hfree : keyTaken (s.values table) row.owner a.id (keyOf a cell) = false
      · exact .inl (.bind (.liftM rfl (.write hfree ⟨_, rfl, upsertRow_perm hperm hfor hrest,
          pairwise_upsertRow happart hfree⟩)))
      · refine .inr ⟨.liftM rfl ⟨s, run_write_eq_error.mpr ⟨hfree, rfl, rfl⟩⟩, cell, rfl, ?_⟩
        have hothers : keyTaken (s.values table) row.owner a.id (keyOf a cell) =
            keyTaken rest row.owner a.id (keyOf a cell) := by
          refine keyTaken_congr (fun r hne => ?_) _ _
          rw [hperm.mem_iff, List.mem_cons, or_iff_right]
          rintro rfl
          exact hne rfl
        rwa [Bool.not_eq_false, hothers] at hfree
  · rw [dropMemberOf_of_not_holds hisSet hrow hholds, hrow.ofIds.without?_eq_self hholds]
    refine .inl ⟨(), s, rfl, s.values table, (s.setValues_values table).symm, ?_, happart⟩
    simpa [hrow.newRow_eq] using hperm

/-! ### All rows -/

/-- Whether a row is done or not when its key stands in the way, what is left of it has that key. -/
theorem collide_of_keyTaken (hisSet : a.isSet = true) {base visited rest : List ValueRow}
    (hbase : row ∈ base) (hrow : row.Tidy a) {left : Cell}
    (hleft : row.cell.without? choice = some left)
    (hvisited : ∀ r ∈ visited, r ∈ base ∧ r.Tidy a)
    (hrest : ∀ r ∈ rest, r.attributeId = a.id →
      ∃ other ∈ base, other.Tidy a ∧ other.without? a choice = some r)
    (htaken : keyTaken (visited ++ rest) row.owner a.id (keyOf a left) = true) :
    Collide a choice base := by
  by_cases hunique : a.isUnique = true
  · simp only [keyTaken, keyOf, hunique, if_true, Option.isSome_some, Bool.true_and,
      List.any_eq_true, Bool.and_eq_true, beq_iff_eq, bne_iff_ne] at htaken
    obtain ⟨r, hr, ⟨hid, hkey⟩, howner⟩ := htaken
    refine ⟨hunique, hisSet, row, hbase, ?_⟩
    rcases List.mem_append.mp hr with hr | hr
    · obtain ⟨hmem, htidy⟩ := hvisited r hr
      obtain ⟨hids, hholds⟩ := not_holds_of_without? hrow.ofIds hleft
      have hcell : r.cell.canonicalKey = left.canonicalKey := by
        rw [htidy.keyed, keyOf, if_pos hunique, Option.some.injEq] at hkey
        exact hkey
      have hsame := eq_of_canonicalKey_eq hisSet htidy.ofIds hids hcell
      refine ⟨r, hmem, howner.symm, hrow.ofAttribute, hid, left, r.cell, hleft, ?_, hcell.symm⟩
      exact htidy.ofIds.without?_eq_self (hsame ▸ hholds)
    · obtain ⟨other, hmem, htidy, hother⟩ := hrest r hr hid
      rw [ValueRow.without?_of_eq htidy.ofAttribute, Option.map_eq_some_iff] at hother
      obtain ⟨cell, hcell, rfl⟩ := hother
      simp only [newRow, keyOf, hunique, if_true, Option.some.injEq] at hkey
      exact ⟨other, hmem, howner.symm, hrow.ofAttribute, htidy.ofAttribute, left, cell, hleft,
        hcell, hkey.symm⟩
  · simp [keyTaken, keyOf, hunique] at htaken

/-- In whatever order rows are visited, all of them are rewritten, or two owners are left with one
set. -/
theorem run_dropMembers (hisSet : a.isSet = true) (choice : Id) {base visited rest : List ValueRow}
    (hvisited : ∀ r ∈ visited, r ∈ base ∧ r.Tidy a)
    (hrest : ∀ r ∈ rest, r.attributeId = a.id →
      ∃ other ∈ base, other.Tidy a ∧ other.without? a choice = some r)
    (hperm : (s.values table).Perm (visited ++ rest))
    (happart : (s.values table).Pairwise ValueRow.Apart) :
    Succeeds s (dropMembers table a (choiceMember choice) visited) (fun _ t => ∃ rows,
        t = s.setValues table rows ∧
          rows.Perm (visited.filterMap (ValueRow.without? a choice) ++ rest) ∧
            rows.Pairwise ValueRow.Apart) ∨
      Fails s (dropMembers table a (choiceMember choice) visited) (.conflict .uniqueIndex) ∧
        Collide a choice base := by
  induction visited generalizing s rest with
  | nil => exact .inl ⟨(), s, rfl, s.values table, (s.setValues_values table).symm, hperm, happart⟩
  | cons row visited ih =>
    obtain ⟨⟨hbase, hrow⟩, hothers⟩ := List.forall_mem_cons.mp hvisited
    rcases run_dropMemberOf hisSet hrow choice hperm happart with
      ⟨_, _, hrun, rows, rfl, hrows, happart'⟩ | ⟨hfails, left, hleft, htaken⟩
    · -- what is left of the row joins the rows that are not visited any more
      have hvalues : ((s.setValues table rows).values table).Perm
          (visited ++ ((row.without? a choice).toList ++ rest)) := by
        rw [Store.values_setValues]
        exact hrows.trans (List.perm_append_comm_assoc _ _ _)
      have hleft : ∀ r ∈ (row.without? a choice).toList ++ rest, r.attributeId = a.id →
          ∃ other ∈ base, other.Tidy a ∧ other.without? a choice = some r := by
        intro r hr hid
        rcases List.mem_append.mp hr with hr | hr
        · exact ⟨row, hbase, hrow, Option.mem_toList.mp hr⟩
        · exact hrest r hr hid
      rw [← Store.values_setValues s table rows] at happart'
      rcases ih hothers hleft hvalues happart' with
        ⟨_, _, hrest', rows', rfl, hrows', happart''⟩ | ⟨⟨t, hfails⟩, hcollide⟩
      · refine .inl (.bind ⟨_, _, hrun, _, _, hrest', rows', Store.setValues_setValues .., ?_,
          happart''⟩)
        have hcons : (row :: visited).filterMap (ValueRow.without? a choice) =
            (row.without? a choice).toList ++ visited.filterMap (ValueRow.without? a choice) := by
          rw [List.filterMap_cons]
          cases row.without? a choice <;> rfl
        rw [hcons, List.append_assoc]
        exact hrows'.trans (List.perm_append_comm_assoc _ _ _)
      · exact .inr ⟨⟨t, run_bind_eq_error.mpr (.inr ⟨_, _, hrun, hfails⟩)⟩, hcollide⟩
    · exact .inr ⟨.bind hfails, collide_of_keyTaken hisSet hbase hrow hleft hothers hrest htaken⟩

/-- Rows that are apart are not left with one key. -/
theorem not_collide_of_apart {base rows : List ValueRow}
    (hperm : rows.Perm (base.filterMap (ValueRow.without? a choice)))
    (happart : rows.Pairwise ValueRow.Apart) : ¬ Collide a choice base := by
  rintro ⟨hunique, -, row, hrow, other, hother, howner, hid, hid', left, left', hleft, hleft', hkey⟩
  have hmem : ∀ r ∈ base, r.attributeId = a.id → ∀ cell, r.cell.without? choice = some cell →
      newRow r.owner (a, cell) ∈ rows := by
    intro r hr hra cell hcell
    refine hperm.mem_iff.mpr (List.mem_filterMap.mpr ⟨r, hr, ?_⟩)
    rw [ValueRow.without?_of_eq hra, hcell, Option.map_some]
  have hne : newRow row.owner (a, left) ≠ newRow other.owner (a, left') := by
    intro heq
    have hsame := congrArg ValueRow.owner heq
    exact howner hsame
  have hrows := happart.forall (hmem row hrow hid left hleft) (hmem other hother hid' left' hleft')
    hne
  have hnone := (hrows rfl).2 (by simp [newRow, keyOf, hkey])
  simp [newRow, keyOf, hunique] at hnone

/-- Removes a choice from the values, visiting the rows of sets in the given order. -/
def detachVisiting (a : Attribute) (choice : Id) (visited : List ValueRow) : Session Unit :=
  if a.isSet then dropMembers a.parent.valueTable a (choiceMember choice) visited
  else deleteReferences a.parent.valueTable a.id choice

theorem run_detachChoice (s : Store) (a : Attribute) (choice : Id) :
    (detachChoice a choice).run s = (detachVisiting a choice
      ((s.values a.parent.valueTable).filter fun r => r.attributeId == a.id)).run s := by
  unfold detachChoice detachVisiting
  split <;> rfl

/-- The steps take a choice out of the values of an attribute, unless two owners would be left with
one set; then the unique index refuses one of the steps. -/
def TakesOut (s : Store) (a : Attribute) (choice : Id) (x : Session Unit) : Prop :=
  (Collide a choice (s.values a.parent.valueTable) → Fails s x (.conflict .uniqueIndex)) ∧
    (¬ Collide a choice (s.values a.parent.valueTable) → Succeeds s x fun _ t => ∃ rows,
      t = s.setValues a.parent.valueTable rows ∧
        rows.Perm ((s.values a.parent.valueTable).filterMap (ValueRow.without? a choice)))

theorem takesOut_dropMembers (hisSet : a.isSet = true)
    (htidy : ∀ row ∈ s.values a.parent.valueTable, row.attributeId = a.id → row.Tidy a)
    (happart : (s.values a.parent.valueTable).Pairwise ValueRow.Apart) {visited : List ValueRow}
    (hvisited : visited.Perm
      ((s.values a.parent.valueTable).filter fun r => r.attributeId == a.id)) :
    TakesOut s a choice (dropMembers a.parent.valueTable a (choiceMember choice) visited) := by
  have hmem : ∀ r ∈ visited, r ∈ s.values a.parent.valueTable ∧ r.Tidy a := by
    intro r hr
    obtain ⟨hr, hid⟩ := List.mem_filter.mp (hvisited.mem_iff.mp hr)
    exact ⟨hr, htidy r hr (beq_iff_eq.mp hid)⟩
  have hrest : ∀ r ∈ (s.values a.parent.valueTable).filter fun r => !(r.attributeId == a.id),
      r.attributeId ≠ a.id := by
    intro r hr
    simpa using List.of_mem_filter hr
  have hperm : (s.values a.parent.valueTable).Perm (visited ++
      (s.values a.parent.valueTable).filter fun r => !(r.attributeId == a.id)) :=
    (List.filter_append_perm _ _).symm.trans (hvisited.symm.append_right _)
  have hleft : (visited ++ (s.values a.parent.valueTable).filter fun r =>
      !(r.attributeId == a.id)).filterMap (ValueRow.without? a choice) =
        visited.filterMap (ValueRow.without? a choice) ++
          (s.values a.parent.valueTable).filter fun r => !(r.attributeId == a.id) := by
    rw [List.filterMap_append,
      filterMap_eq_self_iff.mpr fun r hr => ValueRow.without?_of_ne (hrest r hr)]
  rcases run_dropMembers hisSet choice hmem (fun r hr hid => absurd hid (hrest r hr)) hperm
    happart with
    ⟨_, t, hrun, rows, rfl, hrows, happart'⟩ | ⟨hfails, hcollide⟩
  · have hall := hrows.trans (hleft ▸ (hperm.filterMap (ValueRow.without? a choice)).symm)
    exact ⟨fun hcollide => absurd hcollide (not_collide_of_apart hall happart'),
      fun _ => ⟨_, _, hrun, rows, rfl, hall⟩⟩
  · exact ⟨fun _ => hfails, fun hfree => absurd hcollide hfree⟩

theorem takesOut_deleteReferences (hsingle : ¬ a.isSet = true)
    (htidy : ∀ row ∈ s.values a.parent.valueTable, row.attributeId = a.id → row.Tidy a) :
    TakesOut s a choice (deleteReferences a.parent.valueTable a.id choice) := by
  refine ⟨fun hcollide => absurd hcollide.2.1 hsingle, fun _ => ⟨(), _, rfl, _, rfl, ?_⟩⟩
  refine List.Perm.of_eq ?_
  rw [← List.filterMap_eq_filter]
  refine List.filterMap_congr fun r hr => ?_
  by_cases hid : r.attributeId = a.id
  · have hrow := htidy r hr hid
    rcases hrow.ofIds with ⟨-, id, hcell⟩ | ⟨hisSet, -⟩
    · have hsame := hrow.newRow_eq
      rw [hcell] at hsame
      rw [Option.guard, ValueRow.without?, hid, hcell, without?_reference]
      by_cases hchoice : id = choice
      · simp [Cell.refersTo, hchoice]
      · simp [Cell.refersTo, hchoice, hsame]
    · exact absurd hisSet hsingle
  · rw [ValueRow.without?_of_ne hid]
    simp [Option.guard, hid]

theorem takesOut_detachVisiting
    (htidy : ∀ row ∈ s.values a.parent.valueTable, row.attributeId = a.id → row.Tidy a)
    (happart : (s.values a.parent.valueTable).Pairwise ValueRow.Apart) {visited : List ValueRow}
    (hvisited : visited.Perm
      ((s.values a.parent.valueTable).filter fun r => r.attributeId == a.id)) :
    TakesOut s a choice (detachVisiting a choice visited) := by
  rw [detachVisiting]
  split
  · exact takesOut_dropMembers ‹_› htidy happart hvisited
  · exact takesOut_deleteReferences ‹_› htidy

end Session

/-! ### Calls -/

namespace Store

variable {s u : Store} {a : Attribute} {choice : Id} {call : Call}

/-- A call is for the removal of a choice of an attribute. The second store is the first without the
row of the choice itself. -/
inductive Unlists (s : Store) (a : Attribute) : Id → Call → Store → Prop
  | option {o : SelectOption} (found : o ∈ s.options) (ofAttribute : o.attributeId = a.id)
      (type : a.type = .select) : Unlists s a o.id (.removeOption o.id)
        { s with options := s.options.filter fun p => p.id != o.id }
  | status {v : Status} (found : v ∈ s.statuses) (ofAttribute : v.attributeId = a.id)
      (type : a.type = .status) : Unlists s a v.id (.removeStatus v.id)
        { s with statuses := s.statuses.filter fun w => w.id != v.id }

namespace Unlists

theorem slot (h : s.Unlists a choice call u) : a.type.slot = .reference := by
  cases h with
  | option _ _ type | status _ _ type =>
    rw [type]
    rfl

theorem values_eq (h : s.Unlists a choice call u) (table : ValueTable) :
    u.values table = s.values table := by
  cases h <;> cases table <;> rfl

theorem requireChoices (hi : s.Indexed) (has : s.Has a) {id : Id} {type : ValueType}
    (hid : id = a.id) (htype : a.type = type) : s.requireChoices id type = .ok a := by
  rw [hid]
  exact bind_eq_ok_iff.mpr ⟨a, has.requireAttribute hi,
    bind_eq_ok_iff.mpr ⟨(), require_eq_ok_iff.mpr htype, rfl⟩⟩

theorem fails (h : s.Unlists a choice call u) (hi : s.Indexed) (has : s.Has a) (setup : Setup)
    (stamp : Stamp) {e : Error} (hfails : Session.Fails u (Session.detachChoice a choice) e) :
    Session.Fails s (Session.ofCall setup stamp call) e := by
  cases h with
  | option found ofAttribute type =>
    refine .bind (.look ?_ (.look (requireChoices hi has ofAttribute type) ?_))
    · exact requireOption_eq_ok_iff.mpr (find?_of_pairwise_ne hi.options found)
    · exact .transaction hfails
  | status found ofAttribute type =>
    refine .bind (.look ?_ (.look (requireChoices hi has ofAttribute type) ?_))
    · exact requireStatus_eq_ok_iff.mpr (find?_of_pairwise_ne hi.statuses found)
    · exact .transaction hfails

theorem run_eq_ok (h : s.Unlists a choice call u) (hi : s.Indexed) (has : s.Has a) (setup : Setup)
    (stamp : Stamp) {t : Store} (hrun : (Session.detachChoice a choice).run u = .ok () t) :
    (Session.ofCall setup stamp call).run s = .ok .nothing t := by
  cases h with
  | option found ofAttribute type =>
    have hremove : (Session.removeOption _).run s = .ok () t :=
      Session.run_look_bind_eq_ok.mpr
        ⟨_, requireOption_eq_ok_iff.mpr (find?_of_pairwise_ne hi.options found),
          Session.run_look_bind_eq_ok.mpr ⟨a, requireChoices hi has ofAttribute type,
            Session.run_transaction_eq_ok.mpr hrun⟩⟩
    exact Session.run_bind_eq_ok.mpr ⟨(), t, hremove, rfl⟩
  | status found ofAttribute type =>
    have hremove : (Session.removeStatus _).run s = .ok () t :=
      Session.run_look_bind_eq_ok.mpr
        ⟨_, requireStatus_eq_ok_iff.mpr (find?_of_pairwise_ne hi.statuses found),
          Session.run_look_bind_eq_ok.mpr ⟨a, requireChoices hi has ofAttribute type,
            Session.run_transaction_eq_ok.mpr hrun⟩⟩
    exact Session.run_bind_eq_ok.mpr ⟨(), t, hremove, rfl⟩

end Unlists

theorem Reachable.tidy (h : s.Reachable) (has : s.Has a) (hslot : a.type.slot = .reference)
    {table : ValueTable} {row : ValueRow} (hrow : row ∈ s.values table)
    (hid : row.attributeId = a.id) : row.Tidy a := by
  obtain ⟨b, hb, rfl⟩ := has
  obtain ⟨-, hids⟩ := h.ofIds_of_row hrow hb hid.symm hslot
  have hfits := h.fitting table row hrow b hb hid.symm
  have hkeyed : b.isUnique = true → row.uniqueKey = some row.cell.canonicalKey ∧
      row.cell.canonicalKey.length ≤ 255 := by
    intro hunique
    obtain ⟨key, hkey, hshort, hcell⟩ := hfits.keyed hunique
    rw [hids.kept_eq, or_self] at hcell
    exact ⟨hcell ▸ hkey, hcell ▸ hshort⟩
  refine ⟨hid, ?_, ?_, fun hunique => (hkeyed hunique).2⟩
  · rcases hids with ⟨hsingle, id, hcell⟩ | ⟨hisSet, ids, hne, hnodup, hcell⟩
    · exact .single hsingle id hcell
    · exact .set hisSet ids hne hnodup hcell
  · rw [keyOf]
    split
    · exact (hkeyed ‹_›).1
    · exact hfits.unkeyed (Bool.eq_false_iff.mpr ‹_›)

/-- What is left of the values of an attribute does not hold the choice. -/
theorem not_holds_of_left {rows base : List ValueRow}
    (htidy : ∀ row ∈ base, row.attributeId = a.id → row.Tidy a)
    (hrows : rows.Perm (base.filterMap (ValueRow.without? a choice))) :
    ∀ row ∈ rows, row.attributeId = a.id → ¬ row.cell.Holds choice := by
  intro row hrow hid
  obtain ⟨r, hr, hleft⟩ := List.mem_filterMap.mp (hrows.mem_iff.mp hrow)
  by_cases hra : r.attributeId = a.id
  · rw [ValueRow.without?_of_eq hra, Option.map_eq_some_iff] at hleft
    obtain ⟨cell, hcell, rfl⟩ := hleft
    exact (not_holds_of_without? (htidy r hr hra).ofIds hcell).2
  · rw [ValueRow.without?_of_ne hra, Option.some.injEq] at hleft
    exact absurd hid (hleft ▸ hra)

/-- The removal of a choice is refused, and changes nothing, just if two owners would be left with
one set of a unique attribute. Otherwise the choice's own row goes, and the choice goes out of the
values of its attribute, with those that hold nothing else; all other rows stay. That is so in
whatever order the rows are visited. -/
theorem perform_of_unlists (h : s.Reachable) (has : s.Has a) (hunlists : s.Unlists a choice call u)
    (setup : Setup) (stamp : Stamp) :
    (Collide a choice (s.values a.parent.valueTable) →
      s.perform setup stamp call = .error (.conflict .uniqueIndex) ∧
        s.after setup stamp call = s) ∧
    (¬ Collide a choice (s.values a.parent.valueTable) → ∃ rows,
      rows.Perm ((s.values a.parent.valueTable).filterMap (ValueRow.without? a choice)) ∧
      s.perform setup stamp call = .ok (.nothing, u.setValues a.parent.valueTable rows) ∧
      ∀ table, ∀ row ∈ (u.setValues a.parent.valueTable rows).values table,
        row.attributeId = a.id → ¬ row.cell.Holds choice) ∧
    ∀ visited, visited.Perm
      ((s.values a.parent.valueTable).filter fun r => r.attributeId == a.id) →
        Session.TakesOut u a choice (Session.detachVisiting a choice visited) := by
  have hi := h.sound.indexed
  have htidy : ∀ row ∈ s.values a.parent.valueTable, row.attributeId = a.id → row.Tidy a :=
    fun row hrow hid => h.tidy has hunlists.slot hrow hid
  have hvisiting : ∀ visited, visited.Perm
      ((s.values a.parent.valueTable).filter fun r => r.attributeId == a.id) →
        Session.TakesOut u a choice (Session.detachVisiting a choice visited) := by
    rw [← hunlists.values_eq] at htidy ⊢
    refine fun visited hvisited => Session.takesOut_detachVisiting htidy ?_ hvisited
    rw [hunlists.values_eq]
    exact hi.values _
  have hdetach : Session.TakesOut u a choice (Session.detachChoice a choice) := by
    have hvisited := hvisiting _ (.refl _)
    rw [← hunlists.values_eq] at hvisited
    rwa [Session.TakesOut, Session.Fails, Session.Succeeds, Session.run_detachChoice]
  rw [Session.TakesOut, hunlists.values_eq] at hdetach
  refine ⟨fun hcollide => ?_, fun hfree => ?_, hvisiting⟩
  · have hfail := perform_eq_error_iff.mpr (hunlists.fails hi has setup stamp (hdetach.1 hcollide))
    exact ⟨hfail, after_eq_of_perform_eq_error h hfail⟩
  · obtain ⟨_, _, hrun, rows, rfl, hrows⟩ := hdetach.2 hfree
    refine ⟨rows, hrows, perform_eq_ok_iff.mpr (hunlists.run_eq_ok hi has setup stamp hrun), ?_⟩
    intro table row hrow hid
    by_cases htable : table = a.parent.valueTable
    · rw [htable, values_setValues] at hrow
      exact not_holds_of_left htidy hrows row hrow hid
    · rw [values_setValues_of_ne _ _ _ htable, hunlists.values_eq] at hrow
      obtain ⟨b, hb, rfl⟩ := has
      obtain ⟨c, hc, hcid, howns⟩ := h.sound.linked.values table row hrow
      have hcb : c = b := eq_of_pairwise_ne hi.attributeIds hc hb (hcid.trans hid)
      exact absurd (hcb ▸ howns.valueTable_eq.symm) htable

/-! ### Deals with labels -/

def labelAttribute : AttributeHead :=
  ⟨exampleId 1 0, .object (exampleId 0 0), "labels", "Labels", .select, .obj [], false, false, true,
    true, 0, ⟨1⟩⟩

def hotLabel : SelectOption := ⟨exampleId 1 1, exampleId 1 0, "Hot", none, 0⟩

def bigLabel : SelectOption := ⟨exampleId 1 2, exampleId 1 0, "Big", none, 1⟩

/-- Deals with sets of two labels, of which no two deals have the same, and no deals yet. -/
def labelBase : Store where
  objects := [⟨exampleId 0 0, default, "deals", "Deal", "Deals", none, false, ⟨0⟩⟩]
  attributes := [labelAttribute]
  options := [hotLabel, bigLabel]
  statuses := []
  records := []
  lists := []
  entries := []
  recordValues := []
  entryValues := []

def labelRun : List Step := [
  exampleStep 0 (.createObject ⟨default, "deals", "Deal", "Deals", none, false⟩),
  exampleStep 1 (.createAttribute { NewAttribute.plain (.object (exampleId 0 0)) "labels" "Labels"
    .select with isUnique := true, isSet := true, options := [⟨"Hot", none⟩, ⟨"Big", none⟩] })]

theorem run_labelRun : empty.run labelRun = labelBase := by cbv

/-- The attribute of labels with its options. -/
def labels : Attribute := labelBase.withChoices labelAttribute

theorem canonical_choice {a : Attribute} (htype : a.type = .select) {id : Id}
    (hid : a.hasOption id = true) : Canonical a (choiceMember id) := by
  have hset : a.type.allowsSets = true := by rw [htype]; rfl
  have hslot : a.type.slot = .reference := by rw [htype]; rfl
  have hsingle : encodeSingle a (choiceMember id) = .ok (some (.reference id)) := by
    rw [encodeSingle, htype]
    exact bind_eq_ok_iff.mpr ⟨id, coerceId_text a.slug id, if_pos hid⟩
  have hnotBlank : (choiceMember id).isBlank = false := (Json.isBlank_str _).trans id.isBlank_text
  refine ⟨hnotBlank, ?_, decodeMember_toJson hset (decodeSingle_reference hslot id)⟩
  rw [encodeMember, hnotBlank, if_neg Bool.false_ne_true, hsingle, ok_bind]
  exact bind_eq_ok_iff.mpr ⟨.reference id, decodeSingle_reference hslot id, rfl⟩

theorem encodeValue_hot_big :
    encodeValue labels (.arr [choiceMember hotLabel.id, choiceMember bigLabel.id]) =
      .ok (some (idSet [hotLabel.id, bigLabel.id])) := by
  refine encodeValue_canonicalSet rfl ⟨List.forall_mem_cons.mpr ⟨canonical_choice rfl (by cbv),
    List.forall_mem_singleton.mpr (canonical_choice rfl (by cbv))⟩, by decide +kernel⟩

theorem encodeValue_big :
    encodeValue labels (.arr [choiceMember bigLabel.id]) = .ok (some (idSet [bigLabel.id])) :=
  encodeValue_canonicalSet rfl ⟨List.forall_mem_singleton.mpr (canonical_choice rfl (by cbv)),
    List.pairwise_singleton _ _⟩

/-- One deal, which is hot and big. -/
def hotStore : Store := { labelBase with
  records := [⟨exampleId 2 0, exampleId 0 0, none, ⟨2⟩, none, ⟨2⟩⟩]
  recordValues := [newRow (exampleId 2 0) (labels, idSet [hotLabel.id, bigLabel.id])] }

/-- Two deals, of which one is hot and big and the other is only big. -/
def labelStore : Store := { labelBase with
  records := hotStore.records ++ [⟨exampleId 3 0, exampleId 0 0, none, ⟨3⟩, none, ⟨3⟩⟩]
  recordValues := hotStore.recordValues ++ [newRow (exampleId 3 0) (labels, idSet [bigLabel.id])] }

theorem reachable_labelStore : labelStore.Reachable := by
  have hbase : labelBase.Reachable := ⟨labelRun, run_labelRun.symm⟩
  obtain ⟨answer, hfirst⟩ := exists_perform_createRecord_one hbase.sound ⟨50, 200, .reject, []⟩
    ⟨⟨2⟩, fun place => exampleId 2 (UInt8.ofNat place)⟩ (exampleId 0 0) none ⟨_, .head _, rfl⟩
    (fun _ h => by cases h) (by cbv) encodeValue_hot_big (fun _ => by decide +kernel) rfl
  have hhot : hotStore.Reachable := hbase.perform hfirst
  obtain ⟨answer, hsecond⟩ := exists_perform_createRecord_one hhot.sound ⟨50, 200, .reject, []⟩
    ⟨⟨3⟩, fun place => exampleId 3 (UInt8.ofNat place)⟩ (exampleId 0 0) none ⟨_, .head _, rfl⟩
    (by decide) (by cbv) encodeValue_big (fun _ => by decide +kernel) (by decide +kernel)
  exact hhot.perform hsecond

theorem without?_hot_big (owner : Id) :
    (newRow owner (labels, idSet [hotLabel.id, bigLabel.id])).without? labels bigLabel.id =
      some (newRow owner (labels, idSet [hotLabel.id])) := by
  have hleft : (idSet [hotLabel.id, bigLabel.id]).without? bigLabel.id =
      some (idSet [hotLabel.id]) := without?_idSet_eq_some_iff.mpr ⟨by decide, rfl⟩
  exact (ValueRow.without?_of_eq rfl).trans
    (congrArg (Option.map fun cell => newRow owner (labels, cell)) hleft)

/-- Without the label big, the first deal is left with the other one and the second with none. -/
theorem filterMap_without?_big :
    labelStore.recordValues.filterMap (ValueRow.without? labels bigLabel.id) =
      [newRow (exampleId 2 0) (labels, idSet [hotLabel.id])] := by
  have hnone : (newRow (exampleId 3 0) (labels, idSet [bigLabel.id])).without? labels
      bigLabel.id = none := rfl
  exact (List.filterMap_cons_some (without?_hot_big _)).trans
    (congrArg _ (List.filterMap_cons_none hnone))

theorem not_collide_big : ¬ Collide labels bigLabel.id labelStore.recordValues :=
  Session.not_collide_of_apart (.of_eq filterMap_without?_big.symm) (List.pairwise_singleton _ _)

/-- Without the label hot, both deals would be big and nothing else. -/
theorem collide_hot : Collide labels hotLabel.id labelStore.recordValues := by
  have hboth : (idSet [hotLabel.id, bigLabel.id]).without? hotLabel.id =
      some (idSet [bigLabel.id]) := without?_idSet_eq_some_iff.mpr ⟨by decide, rfl⟩
  have hbig : (idSet [bigLabel.id]).without? hotLabel.id = some (idSet [bigLabel.id]) :=
    without?_idSet_eq_some_iff.mpr ⟨by decide, rfl⟩
  exact ⟨rfl, rfl, _, .head _, _, .tail _ (.head _), by decide, rfl, rfl, _, _, hboth, hbig, rfl⟩

/-- Takes a label away. -/
def unlabelling (o : SelectOption) : Step := exampleStep 4 (.removeOption o.id)

/-- The label hot cannot be taken away, for both deals would be left with the same labels. The label
big can, and the second deal is left without any. -/
theorem perform_unlabelling :
    labelStore.Reachable ∧ labelStore.Has labels ∧
      labelStore.Unlists labels hotLabel.id (unlabelling hotLabel).call
        { labelStore with options := [bigLabel] } ∧
      labelStore.perform (unlabelling hotLabel).setup (unlabelling hotLabel).stamp
        (unlabelling hotLabel).call = .error (.conflict .uniqueIndex) ∧
      labelStore.Unlists labels bigLabel.id (unlabelling bigLabel).call
        { labelStore with options := [hotLabel] } ∧
      labelStore.perform (unlabelling bigLabel).setup (unlabelling bigLabel).stamp
        (unlabelling bigLabel).call = .ok (.nothing, { labelStore with
          options := [hotLabel]
          recordValues := [newRow (exampleId 2 0) (labels, idSet [hotLabel.id])] }) := by
  have has : labelStore.Has labels := ⟨labelAttribute, .head _, rfl⟩
  have hhot : labelStore.Unlists labels hotLabel.id (unlabelling hotLabel).call
      { labelStore with options := [bigLabel] } := .option (.head _) rfl rfl
  have hbig : labelStore.Unlists labels bigLabel.id (unlabelling bigLabel).call
      { labelStore with options := [hotLabel] } := .option (.tail _ (.head _)) rfl rfl
  refine ⟨reachable_labelStore, has, hhot, ?_, hbig, ?_⟩
  · exact ((perform_of_unlists reachable_labelStore has hhot _ _).1 collide_hot).1
  · obtain ⟨rows, hrows, hperform, -⟩ :=
      (perform_of_unlists reachable_labelStore has hbig _ _).2.1 not_collide_big
    have hrows' := hrows.trans (.of_eq filterMap_without?_big)
    rw [List.perm_singleton.mp hrows'] at hperform
    exact hperform

end Store

end RecordStore
