import RecordStore.Proofs.Indexes

/-!
# What changes of several statements leave

Deleting attributes with their choices and values, giving the values of an attribute new keys, and
taking a choice away from them: each is a sequence of statements, and each leaves a store that can
be said at once.
-/

namespace RecordStore

/-! ### Deleted attributes -/

def Store.withoutAttributes (s : Store) (table : ValueTable) (ids : List Id) : Store :=
  { s with
    attributes := s.attributes.filter fun a => !ids.contains a.id
    options := s.options.filter fun o => !ids.contains o.attributeId
    statuses := s.statuses.filter fun t => !ids.contains t.attributeId }.setValues table
      ((s.values table).filter fun r => !ids.contains r.attributeId)

theorem Store.withoutAttributes_nil (s : Store) (table : ValueTable) :
    s.withoutAttributes table [] = s := by
  cases table <;> simp [withoutAttributes, setValues, values]

@[simp] theorem Store.attributes_withoutAttributes (s : Store) (table : ValueTable)
    (ids : List Id) : (s.withoutAttributes table ids).attributes =
      s.attributes.filter fun a => !ids.contains a.id := by
  cases table <;> rfl

@[simp] theorem Store.lists_withoutAttributes (s : Store) (table : ValueTable) (ids : List Id) :
    (s.withoutAttributes table ids).lists = s.lists := by
  cases table <;> rfl

theorem Store.values_withoutAttributes_subset (s : Store) (table : ValueTable) (ids : List Id)
    (other : ValueTable) : (s.withoutAttributes table ids).values other ⊆ s.values other := by
  by_cases hother : other = table
  · subst hother
    rw [withoutAttributes, values_setValues]
    exact List.filter_subset_self _
  · rw [withoutAttributes, values_setValues_of_ne _ _ _ hother]
    cases other <;> exact List.Subset.refl _

theorem Session.yields_purgeAttributes (s : Store) (setup : Setup) (table : ValueTable)
    (ids : List Id) :
    Yields s (purgeAttributes setup table ids) fun _ t => t = s.withoutAttributes table ids := by
  rw [purgeAttributes]
  split
  · rename_i hids
    rw [hids]
    exact .pure (s.withoutAttributes_nil table).symm
  · refine .bind (.modify (.bind (.modify (.bind (.modify (.liftM fun _ _ => .modify ?_))))))
    cases table <;> rfl

/-! ### New keys -/

def Store.withReplaced (s : Store) (next : AttributeHead) : Store :=
  { s with attributes := s.attributes.map (Session.replaced next) }

@[simp] theorem Store.values_withReplaced (s : Store) (next : AttributeHead)
    (table : ValueTable) : (s.withReplaced next).values table = s.values table := by
  cases table <;> rfl

theorem Store.mem_attributes_withReplaced {s : Store} {next b : AttributeHead}
    (hb : b ∈ (s.withReplaced next).attributes) :
    (b ∈ s.attributes ∧ b.id ≠ next.id) ∨
      (b.id = next.id ∧ b.type = next.type ∧ b.slot = next.slot ∧ b.isUnique = next.isUnique) := by
  obtain ⟨c, hc, rfl⟩ := List.mem_map.mp hb
  rw [Session.replaced]
  split
  · exact .inr ⟨‹_›, rfl, rfl, rfl⟩
  · exact .inl ⟨hc, ‹_›⟩

/-- A row with the key that an attribute gives it: that of the cell it reads, or none. -/
def ValueRow.rekeyed (row : ValueRow) (a : AttributeHead) : ValueRow :=
  if row.attributeId = a.id then
    if a.isUnique then
      match row.read? a with
      | some cell => { row with uniqueKey := some cell.canonicalKey }
      | none => row
    else { row with uniqueKey := none }
  else row

namespace ValueRow

variable (row : ValueRow) (a : AttributeHead)

theorem rekeyed_of_ne (h : row.attributeId ≠ a.id) : row.rekeyed a = row := by
  rw [rekeyed, if_neg h]

@[simp] theorem owner_rekeyed : (row.rekeyed a).owner = row.owner := by
  unfold rekeyed
  split <;> (try split) <;> (try split) <;> rfl

@[simp] theorem attributeId_rekeyed : (row.rekeyed a).attributeId = row.attributeId := by
  unfold rekeyed
  split <;> (try split) <;> (try split) <;> rfl

@[simp] theorem cell_rekeyed : (row.rekeyed a).cell = row.cell := by
  unfold rekeyed
  split <;> (try split) <;> (try split) <;> rfl

def rekeyedIn (owners : List Id) : ValueRow :=
  if row.owner ∈ owners then row.rekeyed a else row

theorem rekeyedIn_nil : row.rekeyedIn a [] = row := by simp [rekeyedIn]

@[simp] theorem isFor_rekeyedIn (owners : List Id) (owner attributeId : Id) :
    (row.rekeyedIn a owners).isFor owner attributeId = row.isFor owner attributeId := by
  unfold rekeyedIn
  split <;> simp [isFor]

end ValueRow

theorem uniqueKeyOf_eq_ok {a : Attribute} {cell : Cell} {key : String} :
    uniqueKeyOf a cell = .ok key ↔ cell.canonicalKey.length ≤ 255 ∧ key = cell.canonicalKey := by
  rw [uniqueKeyOf]
  split
  · simp only [reduceCtorEq, false_iff]
    omega
  · simp only [Except.ok.injEq]
    constructor
    · exact fun h => ⟨by omega, h.symm⟩
    · exact fun h => h.2.symm

section

variable {a : Attribute} {base : List ValueRow}

theorem keyRow_rekeyedIn {row : ValueRow} {cell : Cell} (done : List Id)
    (hbase : base.Pairwise fun r q => (r.attributeId, r.owner) ≠ (q.attributeId, q.owner))
    (hrow : row ∈ base) (hid : row.attributeId = a.id) (hunique : a.isUnique = true)
    (hread : row.read? a.toAttributeHead = some cell) :
    keyRow row.owner a.id (some cell.canonicalKey)
        (base.map fun r => r.rekeyedIn a.toAttributeHead done) =
      base.map fun r => r.rekeyedIn a.toAttributeHead (row.owner :: done) := by
  rw [keyRow, List.map_map]
  refine List.map_congr_left fun r hr => ?_
  simp only [Function.comp_apply, ValueRow.isFor_rekeyedIn]
  by_cases hfor : r.isFor row.owner a.id = true
  · obtain ⟨howner, hattribute⟩ := ValueRow.isFor_iff.mp hfor
    have heq : r = row := eq_of_pairwise_ne hbase hr hrow (by rw [howner, hattribute, hid])
    subst heq
    simp only [hfor, if_true]
    have hkeyed : r.rekeyed a.toAttributeHead =
        { r with uniqueKey := some cell.canonicalKey } := by
      simp only [ValueRow.rekeyed, hid, hunique, hread, if_true]
    by_cases hdone : r.owner ∈ done
    · simp only [ValueRow.rekeyedIn, hdone, List.mem_cons, or_true, if_true, hkeyed]
    · simp only [ValueRow.rekeyedIn, hdone, List.mem_cons, true_or, if_true, if_false, hkeyed]
  · simp only [hfor]
    by_cases howner : r.owner = row.owner
    · have hattribute : r.attributeId ≠ a.id := fun h => hfor (ValueRow.isFor_iff.mpr ⟨howner, h⟩)
      simp [ValueRow.rekeyedIn, r.rekeyed_of_ne a.toAttributeHead hattribute]
    · simp [ValueRow.rekeyedIn, howner]

theorem rekeyedIn_cons_of_unread {row r : ValueRow} {done : List Id}
    (hbase : base.Pairwise fun r q => (r.attributeId, r.owner) ≠ (q.attributeId, q.owner))
    (hrow : row ∈ base) (hid : row.attributeId = a.id) (hunique : a.isUnique = true)
    (hread : row.read? a.toAttributeHead = none) (hr : r ∈ base) :
    r.rekeyedIn a.toAttributeHead (row.owner :: done) = r.rekeyedIn a.toAttributeHead done := by
  by_cases howner : r.owner = row.owner
  · have hsame : r.rekeyed a.toAttributeHead = r := by
      by_cases hattribute : r.attributeId = a.id
      · have heq : r = row := eq_of_pairwise_ne hbase hr hrow (by rw [howner, hattribute, hid])
        rw [heq]
        simp only [ValueRow.rekeyed, hid, hunique, hread, if_true]
      · exact r.rekeyed_of_ne a.toAttributeHead hattribute
    simp [ValueRow.rekeyedIn, hsame]
  · simp [ValueRow.rekeyedIn, howner]

end

namespace Session

/-- Some owners' keys are there already; the rest of the rows get theirs in turn. -/
theorem yields_rekeyRows {s : Store} {table : ValueTable} {a : Attribute} {seen : List String}
    {base rest : List ValueRow}
    (hbase : base.Pairwise fun r q => (r.attributeId, r.owner) ≠ (q.attributeId, q.owner))
    (hunique : a.isUnique = true) (hrest : ∀ r ∈ rest, r ∈ base ∧ r.attributeId = a.id)
    (done : List Id) (hs : s.values table = base.map fun r => r.rekeyedIn a.toAttributeHead done) :
    Yields s (rekeyRows table a seen rest) fun _ t =>
      (∃ owners, done ⊆ owners ∧ (∀ r ∈ rest, r.owner ∈ owners) ∧
        t = s.setValues table (base.map fun r => r.rekeyedIn a.toAttributeHead owners)) ∧
      ∀ r ∈ rest, ∀ cell, r.read? a.toAttributeHead = some cell →
        cell.canonicalKey.length ≤ 255 := by
  induction rest generalizing s seen done with
  | nil =>
    refine .pure ⟨⟨done, List.Subset.refl done, by simp, ?_⟩, by simp⟩
    rw [← hs, Store.setValues_values]
  | cons row rest ih =>
    obtain ⟨⟨hrow, hid⟩, hrest⟩ := List.forall_mem_cons.mp hrest
    rw [rekeyRows]
    cases hread : row.read? a.toAttributeHead with
    | none =>
      -- nothing is to be done for a row that is not read, so its owner counts as done
      have hs' : s.values table =
          base.map fun r => r.rekeyedIn a.toAttributeHead (row.owner :: done) := by
        rw [hs]
        exact List.map_congr_left fun r hr =>
          (rekeyedIn_cons_of_unread hbase hrow hid hunique hread hr).symm
      refine (ih hrest _ hs').mono ?_
      rintro - t ⟨⟨owners, hdone, howners, ht⟩, hlength⟩
      obtain ⟨hmem, hdone⟩ := List.cons_subset.mp hdone
      refine ⟨⟨owners, hdone, List.forall_mem_cons.mpr ⟨hmem, howners⟩, ht⟩, ?_⟩
      exact List.forall_mem_cons.mpr ⟨by simp [hread], hlength⟩
    | some cell =>
      refine .liftM fun key hkey => .liftM fun _ _ => .bind (.write fun _ => ?_)
      obtain ⟨hshort, rfl⟩ := uniqueKeyOf_eq_ok.mp hkey
      have hs' := keyRow_rekeyedIn done hbase hrow hid hunique hread
      rw [hs, hs']
      refine (ih hrest _ (Store.values_setValues s table _)).mono ?_
      rintro - t ⟨⟨owners, hdone, howners, ht⟩, hlength⟩
      obtain ⟨hmem, hdone⟩ := List.cons_subset.mp hdone
      rw [Store.setValues_setValues] at ht
      refine ⟨⟨owners, hdone, List.forall_mem_cons.mpr ⟨hmem, howners⟩, ht⟩, ?_⟩
      refine List.forall_mem_cons.mpr ⟨?_, hlength⟩
      intro cell' hcell'
      rw [hread, Option.some.injEq] at hcell'
      rw [← hcell']
      exact hshort

/-- In whatever order they are visited, all values that an attribute reads get their keys. -/
theorem yields_rekeyRows_visiting {s : Store} {table : ValueTable} {a : Attribute}
    (h : s.Indexed) (hunique : a.isUnique = true) {visited : List ValueRow}
    (hvisited : ∀ r, r ∈ visited ↔ r ∈ s.values table ∧ r.attributeId = a.id) :
    Yields s (rekeyRows table a [] visited) fun _ t =>
      t = s.setValues table ((s.values table).map fun r => r.rekeyed a.toAttributeHead) ∧
      ∀ r ∈ s.values table, r.attributeId = a.id →
        ∀ cell, r.read? a.toAttributeHead = some cell → cell.canonicalKey.length ≤ 255 := by
  refine (yields_rekeyRows (h.valueKeys table) hunique (fun r => (hvisited r).mp) [] ?_).mono ?_
  · simp [ValueRow.rekeyedIn_nil]
  · rintro - t ⟨⟨owners, -, howners, ht⟩, hlength⟩
    refine ⟨?_, fun r hr hid => hlength r ((hvisited r).mpr ⟨hr, hid⟩)⟩
    rw [ht]
    congr 1
    refine List.map_congr_left fun r hr => ?_
    by_cases hid : r.attributeId = a.id
    · have hmem : r.owner ∈ owners := howners r ((hvisited r).mpr ⟨hr, hid⟩)
      rw [ValueRow.rekeyedIn, if_pos hmem]
    · rw [ValueRow.rekeyedIn, r.rekeyed_of_ne a.toAttributeHead hid, ite_self]

theorem yields_rekey {s : Store} (h : s.Indexed) (table : ValueTable) (a : Attribute) :
    Yields s (rekey table a) fun _ t =>
      t = s.setValues table ((s.values table).map fun r => r.rekeyed a.toAttributeHead) ∧
      (a.isUnique = true → ∀ r ∈ s.values table, r.attributeId = a.id →
        ∀ cell, r.read? a.toAttributeHead = some cell → cell.canonicalKey.length ≤ 255) := by
  rw [rekey]
  split
  · rename_i hunique
    refine .get ((yields_rekeyRows_visiting h hunique fun r => by simp).mono ?_)
    exact fun _ _ ht => ⟨ht.1, fun _ => ht.2⟩
  · rename_i hunique
    refine .modify ⟨?_, fun h => absurd h hunique⟩
    congr 1
    refine List.map_congr_left fun r _ => ?_
    simp only [ValueRow.rekeyed, hunique]
    rfl

/-- Replacing an attribute puts the changed one in its place, and gives the values the keys of the
changed one if it becomes unique or ceases to be. -/
theorem yields_replaceAttribute {s : Store} (h : s.Indexed) (current changed : Attribute) :
    Yields s (replaceAttribute current changed) fun _ t =>
      ¬ (Store.storageChanges current.toAttributeHead changed.toAttributeHead ∧
        s.hasValues current.toAttributeHead) ∧
      (s.attributes.map (replaced changed.toAttributeHead)).Pairwise AttributeHead.Apart ∧
      if changed.isUnique = current.isUnique then t = s.withReplaced changed.toAttributeHead
      else
        t = (s.withReplaced changed.toAttributeHead).setValues current.parent.valueTable
          ((s.values current.parent.valueTable).map
            fun r => r.rekeyed changed.toAttributeHead) ∧
        (changed.isUnique = true → ∀ r ∈ s.values current.parent.valueTable,
          r.attributeId = changed.id →
            ∀ cell, r.read? changed.toAttributeHead = some cell →
              cell.canonicalKey.length ≤ 255) := by
  refine .get (.liftM fun _ hguard => .bind (.write fun hapart => ?_))
  have hmoved : (s.withReplaced changed.toAttributeHead).Indexed := { h with attributes := hapart }
  rw [ite_not]
  split
  · exact .pure ⟨require_eq_ok_iff.mp hguard, hapart, rfl⟩
  · refine (yields_rekey hmoved current.parent.valueTable changed).mono ?_
    rintro - t ⟨ht, hlength⟩
    rw [Store.values_withReplaced] at ht hlength
    exact ⟨require_eq_ok_iff.mp hguard, hapart, ht, hlength⟩

/-- Replacing an attribute changes the attributes and one table of values, and no other table. -/
theorem exists_rows_replaceAttribute {s : Store} (h : s.Indexed) (current changed : Attribute) :
    Yields s (replaceAttribute current changed) fun _ t => ∃ rows,
      t = (s.withReplaced changed.toAttributeHead).setValues current.parent.valueTable rows := by
  refine (yields_replaceAttribute h current changed).mono ?_
  rintro - t ⟨-, -, ht⟩
  split at ht
  · exact ⟨_, by rw [ht, Store.setValues_values]⟩
  · exact ⟨_, ht.1⟩

/-- Replacing an attribute changes no other attribute, no choice, and of each row at most its
key. -/
theorem rows_replaceAttribute {s : Store} (h : s.Indexed) (current changed : Attribute) :
    Yields s (replaceAttribute current changed) fun _ t =>
      t.attributes = (s.withReplaced changed.toAttributeHead).attributes ∧
      t.options = s.options ∧ t.statuses = s.statuses ∧
      ∀ table, ∀ row ∈ t.values table, ∃ r ∈ s.values table,
        row.owner = r.owner ∧ row.attributeId = r.attributeId ∧ row.cell = r.cell := by
  refine (yields_replaceAttribute h current changed).mono ?_
  rintro - t ⟨-, -, ht⟩
  split at ht
  · subst ht
    exact ⟨rfl, rfl, rfl, fun table row hrow => ⟨row, by simpa using hrow, rfl, rfl, rfl⟩⟩
  · obtain ⟨rfl, -⟩ := ht
    refine ⟨by simp, by simp [Store.withReplaced], by simp [Store.withReplaced], ?_⟩
    intro table row hrow
    by_cases htable : table = current.parent.valueTable
    · subst htable
      rw [Store.values_setValues] at hrow
      obtain ⟨r, hr, rfl⟩ := List.mem_map.mp hrow
      exact ⟨r, hr, by simp⟩
    · rw [Store.values_setValues_of_ne _ _ _ htable, Store.values_withReplaced] at hrow
      exact ⟨row, hrow, rfl, rfl, rfl⟩

end Session

/-! ### Choices taken away -/

/-- How a row comes out of the removal of a choice of an attribute: as it was, if its value does not
hold the choice, or with a set of the other members, of which there are some. -/
inductive ValueRow.Detached (a : Attribute) (choice : Id) (r : ValueRow) : ValueRow → Prop
  | kept (single : a.isSet = false → r.attributeId = a.id → r.cell.refersTo choice = false)
      (set : a.isSet = true → r.attributeId = a.id → ∀ members,
        r.members? a.toAttributeHead = some members → choiceMember choice ∉ members) :
      Detached a choice r r
  | shrunk {members : List Json} {key : Option String} (isSet : a.isSet = true)
      (ofAttribute : r.attributeId = a.id)
      (read : r.members? a.toAttributeHead = some members)
      (stored : storedKeyOf a
        (.structured (.arr (members.filter fun m => !m.same (choiceMember choice)))) = .ok key)
      (left : (members.filter fun m => !m.same (choiceMember choice)) ≠ []) :
      Detached a choice r ⟨r.owner, r.attributeId,
        .structured (.arr (members.filter fun m => !m.same (choiceMember choice))), key⟩

theorem same_choiceMember {m : Json} {choice : Id} :
    m.same (choiceMember choice) = true ↔ m = choiceMember choice := by
  cases m <;> simp [Json.same, choiceMember]

namespace ValueRow.Detached

variable {a : Attribute} {choice : Id} {r row : ValueRow}

theorem owner_eq (h : r.Detached a choice row) : row.owner = r.owner := by cases h <;> rfl

theorem attributeId_eq (h : r.Detached a choice row) : row.attributeId = r.attributeId := by
  cases h <;> rfl

end ValueRow.Detached

namespace Session

/-- Taking a choice out of one row leaves those rows still to be treated that come after it. -/
theorem yields_dropMemberOf {s : Store} {table : ValueTable} {a : Attribute} {choice : Id}
    {base rest : List ValueRow} {row : ValueRow} (hset : a.isSet = true) (hrow : row ∈ base)
    (hid : row.attributeId = a.id)
    (hs : ∀ q ∈ s.values table, q ∈ row :: rest ∨ ∃ r ∈ base, r.Detached a choice q) :
    Yields s (dropMemberOf table a (choiceMember choice) row) fun _ t =>
      (∃ rows, t = s.setValues table rows) ∧
        ∀ q ∈ t.values table, q ∈ rest ∨ ∃ r ∈ base, r.Detached a choice q := by
  have hsame (hkept : row.Detached a choice row) :
      Yields s (pure () : Session Unit) fun _ t => (∃ rows, t = s.setValues table rows) ∧
        ∀ q ∈ t.values table, q ∈ rest ∨ ∃ r ∈ base, r.Detached a choice q := by
    refine .pure ⟨⟨s.values table, by simp⟩, fun q hq => ?_⟩
    rcases hs q hq with hpending | hdone
    · rcases List.mem_cons.mp hpending with rfl | hpending
      · exact .inr ⟨q, hrow, hkept⟩
      · exact .inl hpending
    · exact .inr hdone
  have hothers : ∀ q ∈ s.values table, q.isFor row.owner a.id = false →
      q ∈ rest ∨ ∃ r ∈ base, r.Detached a choice q := by
    intro q hq hother
    rcases hs q hq with hpending | hdone
    · rcases List.mem_cons.mp hpending with rfl | hpending
      · rw [ValueRow.isFor_iff.mpr ⟨rfl, hid⟩] at hother
        cases hother
      · exact .inl hpending
    · exact .inr hdone
  have hsingle : ¬ a.isSet = false := fun h => absurd hset (by simp [h])
  rw [dropMemberOf]
  split
  · rename_i members hread
    split
    · rw [dropMember]
      split
      · refine .modify ⟨⟨_, rfl⟩, ?_⟩
        rw [Store.values_setValues]
        intro q hq
        obtain ⟨hq, hother⟩ := List.mem_filter.mp hq
        exact hothers q hq (by simpa using hother)
      · rename_i left
        refine .liftM fun key hkey => .write fun _ => ⟨⟨_, rfl⟩, ?_⟩
        rw [Store.values_setValues]
        intro q hq
        rcases mem_upsertRow.mp hq with rfl | ⟨hq, hother⟩
        · have hshrunk : row.Detached a choice _ := .shrunk hset hid hread hkey left
          rw [hid] at hshrunk
          exact .inr ⟨row, hrow, hshrunk⟩
        · exact hothers q hq hother
    · rename_i hany
      refine hsame (.kept (fun h => absurd h hsingle) fun _ _ members' hread' hmem => hany ?_)
      rw [hread, Option.some.injEq] at hread'
      exact List.any_eq_true.mpr ⟨_, hread' ▸ hmem, same_choiceMember.mpr rfl⟩
  · rename_i hread
    refine hsame (.kept (fun h => absurd h hsingle) fun _ _ members hmembers => ?_)
    rw [hread] at hmembers
    cases hmembers

theorem yields_dropMembers {s : Store} {table : ValueTable} {a : Attribute} {choice : Id}
    {base rest : List ValueRow} (hset : a.isSet = true)
    (hrest : ∀ r ∈ rest, r ∈ base ∧ r.attributeId = a.id)
    (hs : ∀ q ∈ s.values table, q ∈ rest ∨ ∃ r ∈ base, r.Detached a choice q) :
    Yields s (dropMembers table a (choiceMember choice) rest) fun _ t =>
      (∃ rows, t = s.setValues table rows) ∧
        ∀ q ∈ t.values table, ∃ r ∈ base, r.Detached a choice q := by
  induction rest generalizing s with
  | nil =>
    refine .pure ⟨⟨s.values table, by simp⟩, fun q hq => ?_⟩
    exact (hs q hq).resolve_left List.not_mem_nil
  | cons row rest ih =>
    obtain ⟨⟨hrow, hid⟩, hrest⟩ := List.forall_mem_cons.mp hrest
    refine .bind fun _ u hrun => ?_
    obtain ⟨⟨rows, rfl⟩, hu⟩ := yields_dropMemberOf hset hrow hid hs hrun
    refine (ih hrest hu).mono ?_
    rintro - t ⟨⟨rows', rfl⟩, ht⟩
    exact ⟨⟨rows', Store.setValues_setValues s table rows rows'⟩, ht⟩

/-- The removal of a choice changes values in one table only, and each row there comes out of one
that was there. -/
theorem yields_detachChoice (s : Store) (a : Attribute) (choice : Id) :
    Yields s (detachChoice a choice) fun _ t =>
      (∃ rows, t = s.setValues a.parent.valueTable rows) ∧
        ∀ row ∈ t.values a.parent.valueTable, ∃ r ∈ s.values a.parent.valueTable,
          r.Detached a choice row := by
  rw [detachChoice]
  by_cases hset : a.isSet = true
  · simp only [hset, if_true]
    refine .get (yields_dropMembers hset (fun r hr => by simpa using hr) fun q hq => ?_)
    by_cases hid : q.attributeId = a.id
    · exact .inl (List.mem_filter.mpr ⟨hq, beq_iff_eq.mpr hid⟩)
    · exact .inr ⟨q, hq, .kept (fun _ h => absurd h hid) fun _ h => absurd h hid⟩
  · simp only [hset]
    refine .modify ⟨⟨_, rfl⟩, ?_⟩
    rw [Store.values_setValues]
    intro q hq
    obtain ⟨hq, hkept⟩ := List.mem_filter.mp hq
    exact ⟨q, hq, .kept (fun _ hid => by simpa [hid] using hkept) fun h => absurd h hset⟩

end Session

end RecordStore
