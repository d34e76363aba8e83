import Mathlib
import RecordStore.Proofs.Retyping
import RecordStore.Proofs.Views

/-!
# Creating records

Only a key can stand in the way of values that are prepared. Main statement: where none of their
attributes is unique, a record is created under a new id, and has just the values prepared.
-/

namespace RecordStore

/-! ### Preparing one value -/

/-- A value that is accepted is all that something new needs, if nothing else is required. -/
theorem prepareValues_create_one {attributes : List Attribute} {a : Attribute} {raw : Json}
    {cell : Cell} (hfind : attributes.find? (fun b => b.slug == a.slug) = some a)
    (hcell : encodeValue a raw = .ok (some cell)) (hunique : a.isUnique = false)
    (hrequired : ∀ b ∈ attributes, b.isRequired = true → b.id = a.id) :
    prepareValues attributes [(a.slug, raw)] .create = .ok ⟨[(a, cell)], []⟩ := by
  have hkey : storedKeyOf a cell = .ok none := by rw [storedKeyOf, hunique]; rfl
  have hencoded : encodeAll attributes [(a.slug, raw)] = .ok [(a, some cell)] := by
    rw [encodeAll, hfind]
    dsimp only
    rw [hcell, ok_bind]
    dsimp only
    rw [hkey, ok_bind]
    rfl
  have hnone : attributes.find? (fun b => b.isRequired &&
      !([(a, cell)].any fun p => p.1.id == b.id)) = none := by
    refine List.find?_eq_none.mpr fun b hb => ?_
    by_cases hb' : b.isRequired = true
    · simp [hrequired b hb hb']
    · simp [hb']
  refine bind_eq_ok_iff.mpr ⟨_, hencoded, ?_⟩
  dsimp only [List.filterMap_cons, List.filterMap_nil, Option.map_some]
  rw [hnone]
  rfl

/-! ### Storing values without keys -/

/-- Rows with the given cells of an owner in place of those it had for the same attributes. -/
def withCells (owner : Id) (sets : List (Attribute × Cell)) (rows : List ValueRow) :
    List ValueRow :=
  sets.foldl (fun rows p => upsertRow ⟨owner, p.1.id, p.2, none⟩ rows) rows

namespace Session

theorem succeeds_storeValues (s : Store) (table : ValueTable) (owner : Id)
    {sets : List (Attribute × Cell)} (hunique : ∀ p ∈ sets, p.1.isUnique = false) :
    Succeeds s (storeValues table owner sets) fun _ t =>
      t = s.setValues table (withCells owner sets (s.values table)) := by
  induction sets generalizing s with
  | nil => exact .pure (s.setValues_values table).symm
  | cons p rest ih =>
    obtain ⟨hhere, hrest⟩ := List.forall_mem_cons.mp hunique
    have hkey : storedKeyOf p.1 p.2 = .ok none := by rw [storedKeyOf, hhere]; rfl
    refine .bind (.bind (.liftM hkey (.bind ⟨s, s, rfl, ?_⟩)))
    refine .bind (.liftM (require_eq_ok_iff.mpr rfl) (.write rfl ?_))
    obtain ⟨_, t, hrun, rfl⟩ := ih (s.setValues table (upsertRow ⟨owner, p.1.id, p.2, none⟩
      (s.values table))) hrest
    refine ⟨(), _, hrun, ?_⟩
    rw [Store.setValues_setValues, Store.values_setValues]
    rfl

end Session

namespace Store

variable {s : Store}

/-- A store with one record more, which has the given values. -/
def withRecord (s : Store) (record : Record) (sets : List (Attribute × Cell)) : Store :=
  { s with
    records := s.records ++ [record]
    recordValues := withCells record.id sets s.recordValues }

/-- A record is created with the values that are prepared for it, if none of them has a key. -/
theorem exists_perform_createRecord (setup : Setup) (stamp : Stamp) (new : NewRecord)
    {sets : List (Attribute × Cell)} (hobject : ∃ o ∈ s.objects, o.id = new.objectId)
    (hprepared : prepareValues (s.attributesOf (.object new.objectId)) new.values .create =
      .ok ⟨sets, []⟩)
    (hunique : ∀ p ∈ sets, p.1.isUnique = false)
    (hfresh : ∀ r ∈ s.records, r.id ≠ stamp.fresh 0) :
    ∃ answer, s.perform setup stamp (.createRecord new) = .ok (answer, s.withRecord
      ⟨stamp.fresh 0, new.objectId, none, stamp.now, new.actor, stamp.now⟩ sets) := by
  obtain ⟨o, ho⟩ := exists_requireObject hobject
  set record : Record := ⟨stamp.fresh 0, new.objectId, none, stamp.now, new.actor, stamp.now⟩
    with hrecord
  have hview : (s.withRecord record sets).requireRecordView new.objectId record.id =
      .ok ((s.withRecord record sets).recordView record) := by
    have hfind : (s.withRecord record sets).record? record.id = some record := by
      have hnone : s.records.find? (fun r => r.id == record.id) = none :=
        List.find?_eq_none.mpr fun r hr => by simpa using hfresh r hr
      simp [record?, withRecord, List.find?_append, hnone]
    rw [requireRecordView_eq_ok_iff, recordView?, hfind]
    simp [Option.filter, hrecord]
  have hsucceeds : Session.Succeeds s
      (Session.answering .record (Session.createRecord stamp new))
      fun _ t => t = s.withRecord record sets := by
    refine .bind (.bind (.look ho (.bind ⟨s, s, rfl, .bind (.liftM hprepared (.bind ?_))⟩)))
    refine .transaction (.bind (.write hfresh ?_))
    refine .bind ?_
    obtain ⟨_, t, hrun, rfl⟩ := Session.succeeds_storeValues
      { s with records := s.records ++ [record] } .records record.id hunique
    exact ⟨(), _, hrun, .pure (.look hview (.pure rfl))⟩
  obtain ⟨answer, t, hrun, rfl⟩ := hsucceeds
  exact ⟨answer, perform_eq_ok_iff.mpr hrun⟩

theorem Reachable.perform (h : s.Reachable) {setup : Setup} {stamp : Stamp} {call : Call}
    {answer : Answer} {t : Store} (hok : s.perform setup stamp call = .ok (answer, t)) :
    t.Reachable := by
  have hafter : s.after setup stamp call = t := by rw [after, perform_eq_ok_iff.mp hok]
  exact hafter ▸ h.run [⟨setup, stamp, call⟩]

end Store

end RecordStore
