import RecordStore.Proofs.Refusals
import RecordStore.Proofs.Updates

/-!
# Conflicts

Values that are written meet others in their keys, and nowhere else: neither encoding nor preparing
values fails with a conflict, and applying them fails with one just if the key of one of them is
taken. A new record can moreover find its id in use.
-/

namespace RecordStore

/-- What may fail, but not with a conflict. -/
def NoConflict {α : Type} (x : Except Error α) : Prop := ∀ c, x ≠ .error (.conflict c)

namespace NoConflict

variable {α : Type}

@[simp] theorem ok (a : α) : NoConflict (.ok a) := fun _ h => by cases h

@[simp] theorem notFound (entity : Entity) (id : Id) :
    NoConflict (.error (.notFound entity id) : Except Error α) := fun _ h => by cases h

end NoConflict

theorem FailsOnly.noConflict {α : Type} {p : Prop} {x : Except Error α}
    (h : FailsOnly (Mishap p) x) : NoConflict x := fun _ hc => by cases h _ hc

/-! ### Writing -/

namespace Session

variable {s t : Store} {table : ValueTable} {owner : Id} {c : Conflict}

theorem run_liftM_bind_eq_conflict {α β : Type} {x : Except Error α} {f : α → Session β}
    (hx : NoConflict x) (h : (liftM x >>= f).run s = .error (.conflict c) t) :
    ∃ a, x = .ok a ∧ (f a).run s = .error (.conflict c) t := by
  rcases run_bind_eq_error.mp h with hlift | ⟨a, u, hlift, hf⟩
  · exact absurd (run_liftM_eq_error.mp hlift).1 (hx c)
  · obtain ⟨hok, rfl⟩ := run_liftM_eq_ok.mp hlift
    exact ⟨a, hok, hf⟩

/-- Storing a value can only find that somebody else has its key. -/
theorem taken_of_run_storeValue {a : Attribute} {cell : Cell}
    (h : (storeValue table owner a cell).run s = .error (.conflict c) t) :
    c = .valueInUse a.slug ∧ keyTaken (s.values table) owner a.id (keyOf a cell) = true := by
  obtain ⟨key, hkey, hget⟩ := run_liftM_bind_eq_conflict
    (storedKeyOf_failsOnly (p := False) a cell).noConflict h
  obtain ⟨-, rfl⟩ := storedKeyOf_eq_ok_iff.mp hkey
  rcases run_bind_eq_error.mp (run_get_bind_eq_error.mp hget) with hlift | ⟨_, u, hlift, hwrite⟩
  · obtain ⟨htaken, hconflict⟩ := require_eq_error_iff.mp (run_liftM_eq_error.mp hlift).1
    cases hconflict
    exact ⟨rfl, by simpa using htaken⟩
  · obtain ⟨hfree, rfl⟩ := run_liftM_eq_ok.mp hlift
    exact absurd (require_eq_ok_iff.mp hfree) (run_write_eq_error.mp hwrite).1

theorem taken_of_run_storeValues {sets : List (Attribute × Cell)}
    (h : (storeValues table owner sets).run s = .error (.conflict c) t) :
    ∃ p ∈ sets, c = .valueInUse p.1.slug ∧
      keyTaken (s.values table) owner p.1.id (keyOf p.1 p.2) = true := by
  induction sets generalizing s with
  | nil => cases h
  | cons p rest ih =>
    rcases run_bind_eq_error.mp h with hp | ⟨_, u, hp, hothers⟩
    · exact ⟨p, List.mem_cons_self, taken_of_run_storeValue hp⟩
    · obtain ⟨-, -, rfl⟩ := run_storeValue_eq_ok_iff.mp hp
      obtain ⟨q, hq, hc, htaken⟩ := ih hothers
      -- what was stored before it for the same owner has taken none of its keys
      rw [Store.values_setValues] at htaken
      have hsame : keyTaken (upsertRow (newRow owner p) (s.values table)) owner q.1.id
          (keyOf q.1 q.2) = keyTaken (s.values table) owner q.1.id (keyOf q.1 q.2) :=
        keyTaken_upsertRow _ _
      exact ⟨q, List.mem_cons_of_mem _ hq, hc, hsame ▸ htaken⟩

theorem noConflict_clearValues {clears : List Attribute} {e : Error} :
    (clearValues table owner clears).run s ≠ .error e t := by
  induction clears generalizing s with
  | nil => exact fun h => by cases h
  | cons a rest ih => exact ih

/-- Prepared values that cannot be applied for a conflict meet a key that is taken. -/
theorem taken_of_run_applyValues {prepared : Prepared}
    (h : (applyValues table owner prepared).run s = .error (.conflict c) t) :
    ∃ p ∈ prepared.sets, c = .valueInUse p.1.slug ∧
      keyTaken (s.values table) owner p.1.id (keyOf p.1 p.2) = true := by
  rcases run_bind_eq_error.mp h with hstore | ⟨_, u, -, hclear⟩
  · exact taken_of_run_storeValues hstore
  · exact absurd hclear noConflict_clearValues

theorem run_look_bind_eq_conflict {α β : Type} {f : Store → Except Error α} {g : α → Session β}
    (hf : NoConflict (f s)) (h : (look f >>= g).run s = .error (.conflict c) t) :
    ∃ a, f s = .ok a ∧ (g a).run s = .error (.conflict c) t :=
  run_liftM_bind_eq_conflict hf h

end Session

/-! ### Records -/

/-- A value that is given for an owner has the key of a value that somebody else has. -/
def Clashes (attributes : List Attribute) (given : List (String × Json)) (owner : Id)
    (rows : List ValueRow) (c : Conflict) : Prop :=
  ∃ g ∈ given, c = .valueInUse g.1 ∧ ∃ a ∈ attributes, a.slug = g.1 ∧ a.isUnique = true ∧
    ∃ cell, encodeValue a g.2 = .ok (some cell) ∧ ∃ row ∈ rows, row.attributeId = a.id ∧
      row.uniqueKey = some cell.canonicalKey ∧ row.owner ≠ owner

theorem clashes_of_taken {attributes : List Attribute} {given : List (String × Json)}
    {encoded : List (Attribute × Option Cell)}
    (h : List.Forall₂ (Prepares attributes) given encoded) {owner : Id} {rows : List ValueRow}
    {c : Conflict} (htaken : ∃ p ∈ setsOf encoded, c = .valueInUse p.1.slug ∧
      keyTaken rows owner p.1.id (keyOf p.1 p.2) = true) :
    Clashes attributes given owner rows c := by
  obtain ⟨⟨a, cell⟩, hp, rfl, htaken⟩ := htaken
  obtain ⟨g, hg, hprepares⟩ := exists_of_mem_right h (mem_setsOf.mp hp)
  rw [← Bool.not_eq_false, keyTaken_keyOf_iff] at htaken
  push Not at htaken
  obtain ⟨hunique, row, hrow, hid, hkey, howner⟩ := htaken
  exact ⟨g, hg, by rw [← hprepares.slug], a, hprepares.mem, hprepares.slug, hunique, cell,
    hprepares.encoded, row, hrow, hid, hkey, howner⟩

section

variable (s : Store) (objectId id : Id)

theorem noConflict_requireObject : NoConflict (s.requireObject id) := by
  unfold Store.requireObject
  split <;> simp

theorem noConflict_requireRecord : NoConflict (s.requireRecord objectId id) := by
  unfold Store.requireRecord
  split
  · split <;> simp
  · simp

theorem noConflict_requireRecordView : NoConflict (s.requireRecordView objectId id) := by
  unfold Store.requireRecordView
  split <;> simp

end

namespace Session

variable {s t : Store} {c : Conflict} {stamp : Stamp}

theorem clashes_of_run_updateRecord (hi : s.Indexed) {changes : RecordChanges}
    (h : (updateRecord stamp changes).run s = .error (.conflict c) t) :
    Clashes (s.attributesOf (.object changes.objectId)) changes.values changes.recordId
      s.recordValues c := by
  obtain ⟨r, -, hget⟩ := run_look_bind_eq_conflict (noConflict_requireRecord s _ _) h
  obtain ⟨prepared, hprepared, hbody⟩ := run_liftM_bind_eq_conflict
    (prepareValues_failsOnly _ _ _).noConflict (run_get_bind_eq_error.mp hget)
  obtain ⟨encoded, hencoded, -, rfl⟩ :=
    (prepareValues_update_eq_ok_iff (hi.slugs_attributesOf _)).mp hprepared
  rcases run_bind_eq_error.mp hbody with htransaction | ⟨_, u, -, hshow⟩
  · obtain ⟨⟨v, hwrite⟩, -⟩ := run_transaction_eq_error.mp htransaction
    rcases run_bind_eq_error.mp hwrite with happly | ⟨_, u, -, htouch⟩
    · exact clashes_of_taken hencoded (taken_of_run_applyValues happly)
    · cases htouch
  · exact absurd (run_liftM_eq_error.mp hshow).1 (noConflict_requireRecordView u _ _ c)

theorem clashes_of_run_createRecord (hi : s.Indexed) {new : NewRecord}
    (h : (createRecord stamp new).run s = .error (.conflict c) t) :
    (c = .uniqueIndex ∧ ∃ r ∈ s.records, r.id = stamp.fresh 0) ∨
      Clashes (s.attributesOf (.object new.objectId)) new.values (stamp.fresh 0)
        s.recordValues c := by
  obtain ⟨o, -, hget⟩ := run_look_bind_eq_conflict (noConflict_requireObject s _) h
  obtain ⟨prepared, hprepared, hbody⟩ := run_liftM_bind_eq_conflict
    (prepareValues_failsOnly _ _ _).noConflict (run_get_bind_eq_error.mp hget)
  obtain ⟨encoded, hencoded, rfl⟩ :=
    exists_of_prepareValues_create (hi.slugs_attributesOf _) hprepared
  rcases run_bind_eq_error.mp hbody with htransaction | ⟨_, u, -, hshow⟩
  · obtain ⟨⟨v, hwrite⟩, -⟩ := run_transaction_eq_error.mp htransaction
    rcases run_bind_eq_error.mp hwrite with hinsert | ⟨_, u, hinsert, happly⟩
    · obtain ⟨hused, hconflict, -⟩ := run_write_eq_error.mp hinsert
      cases hconflict
      push Not at hused
      obtain ⟨r, hr, hnot⟩ := hused
      exact .inl ⟨rfl, r, hr, Decidable.not_not.mp hnot⟩
    · obtain ⟨-, rfl⟩ := run_write_eq_ok.mp hinsert
      exact .inr (clashes_of_taken hencoded (taken_of_run_applyValues happly))
  · exact absurd (run_liftM_eq_error.mp hshow).1 (noConflict_requireRecordView u _ _ c)

end Session

end RecordStore
