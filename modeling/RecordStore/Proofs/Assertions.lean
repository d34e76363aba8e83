import RecordStore.Proofs.Conflicts
import RecordStore.Proofs.NaturalKeys
import RecordStore.Proofs.ReadBack

/-!
# Asserted records

An assertion goes by one value, under which it looks for a record, and writes others: those that are
given, and the one that it goes by unless another is given in its place. It comes to a change of the
oldest record that is known by the value, or to the creation of one. Both are brought here to one
form, from which it can be read which records are known by which keys afterwards.
-/

namespace RecordStore

/-! ### The values of an assertion -/

section

variable {α : Type} {key : String} {value : α} {pairs : List (String × α)}

theorem insertKey_perm (h : ∀ p ∈ pairs, p.1 ≠ key) :
    (insertKey key value pairs).Perm ((key, value) :: pairs) := by
  induction pairs with
  | nil => exact .refl _
  | cons p rest ih =>
    obtain ⟨hne, hrest⟩ := List.forall_mem_cons.mp h
    obtain ⟨k, v⟩ := p
    rw [insertKey]
    split
    · exact .refl _
    · rw [if_neg fun heq => hne heq.symm]
      exact ((ih hrest).cons _).trans (.swap _ _ _)

end

namespace RecordAssertion

variable (assertion : RecordAssertion) (slug : String)

/-- The values that an assertion writes: those that are given, and the one that it goes by unless
another is given under its name. -/
def merged : List (String × Json) := addMissing slug assertion.matchingValue assertion.values

/-- The value that an assertion writes under the name that it goes by. -/
def own : Json := (assertion.values.lookup slug).getD assertion.matchingValue

/-- The value that an assertion writes under the name that it goes by is read back with the key
that it goes by. -/
def Restates (a : Attribute) (cell : Cell) : Prop :=
  ∃ c, encodeValue a (assertion.own a.slug) = .ok (some c) ∧
    c.kept.canonicalKey = cell.canonicalKey

variable {assertion slug}

theorem merged_perm (h : ∀ g ∈ assertion.values, g.1 ≠ slug) :
    (assertion.merged slug).Perm ((slug, assertion.matchingValue) :: assertion.values) := by
  rw [merged, addMissing, lookup_eq_none_of_forall_ne h]
  exact insertKey_perm h

theorem own_of_unnamed (h : ∀ g ∈ assertion.values, g.1 ≠ slug) :
    assertion.own slug = assertion.matchingValue := by
  rw [own, lookup_eq_none_of_forall_ne h, Option.getD_none]

theorem merged_of_named {raw : Json} (h : assertion.values.lookup slug = some raw) :
    assertion.merged slug = assertion.values := by
  rw [merged, addMissing, h]
  rfl

/-- Either a value is given under the name that an assertion goes by or none is. -/
theorem lookup_cases (assertion : RecordAssertion) (slug : String) :
    (∃ raw, assertion.values.lookup slug = some raw) ∨ ∀ g ∈ assertion.values, g.1 ≠ slug := by
  cases hnamed : assertion.values.lookup slug with
  | some raw => exact .inl ⟨raw, rfl⟩
  | none =>
    refine .inr fun g hg heq => ?_
    simpa [heq] using List.lookup_eq_none_iff.mp hnamed g hg

theorem own_mem_merged (assertion : RecordAssertion) (slug : String) :
    (slug, assertion.own slug) ∈ assertion.merged slug := by
  rcases assertion.lookup_cases slug with ⟨raw, hraw⟩ | hunnamed
  · obtain ⟨before, rest, hvalues, -⟩ := List.lookup_eq_some_iff.mp hraw
    rw [merged_of_named hraw, own, hraw, Option.getD_some, hvalues]
    exact List.mem_append_right _ List.mem_cons_self
  · rw [(merged_perm hunnamed).mem_iff, own_of_unnamed hunnamed]
    exact List.mem_cons_self

theorem pairwise_merged (slug : String) (h : assertion.values.Pairwise fun g g' => g.1 ≠ g'.1) :
    (assertion.merged slug).Pairwise fun g g' => g.1 ≠ g'.1 := by
  rcases assertion.lookup_cases slug with ⟨raw, hraw⟩ | hunnamed
  · rwa [merged_of_named hraw]
  · refine (merged_perm hunnamed).symm.pairwise ?_ fun hne => hne.symm
    exact List.pairwise_cons.mpr ⟨fun g hg => (hunnamed g hg).symm, h⟩

end RecordAssertion

/-! ### The call that an assertion comes to -/

namespace Session

variable {attributes : List Attribute} {assertion : RecordAssertion} {a : Attribute} {cell : Cell}

theorem of_matchingCell (h : matchingCell attributes assertion = .ok (a, cell)) :
    a ∈ attributes ∧ a.slug = assertion.matching ∧
      encodeValue a assertion.matchingValue = .ok (some cell) := by
  rw [matchingCell] at h
  split at h
  · cases h
  rename_i b hfind
  obtain ⟨made, hmade, h⟩ := bind_eq_ok_iff.mp h
  cases made with
  | none => cases h
  | some c =>
    cases h
    obtain ⟨hmem, hslug⟩ := mem_of_find?_key hfind
    exact ⟨hmem, hslug, hmade⟩

variable {s t : Store} {stamp : Stamp}

/-- What is done for an assertion that goes by a cell of an attribute. -/
def upsert (stamp : Stamp) (assertion : RecordAssertion) (a : Attribute) :
    Option Record → Session RecordView
  | some r => updateRecord stamp
    ⟨assertion.objectId, r.id, assertion.merged a.slug, assertion.actor⟩
  | none => createRecord stamp ⟨assertion.objectId, assertion.merged a.slug, assertion.actor⟩

theorem matchingCell_failsOnly (attributes : List Attribute) (assertion : RecordAssertion) :
    FailsOnly (Mishap (SomeOverflows
      (itemsGiven attributes ((assertion.matching, assertion.matchingValue) :: assertion.values))))
      (matchingCell attributes assertion) := by
  unfold matchingCell
  split
  · simp
  · rename_i hfind
    refine (encodeValue_given_failsOnly (g := (assertion.matching, assertion.matchingValue))
      List.mem_cons_self hfind).bind fun made => ?_
    cases made with
    | none => simp
    | some cell => exact .ok _

variable (hmatch : matchingCell (s.attributesOf (.object assertion.objectId)) assertion =
  .ok (a, cell))

include hmatch

theorem run_upsert_of_eq_ok {view : RecordView}
    (h : (assertRecord stamp assertion).run s = .ok view t) :
    (upsert stamp assertion a (s.oldestWith? assertion.objectId a cell)).run s = .ok view t := by
  obtain ⟨o, -, hget⟩ := run_look_bind_eq_ok.mp h
  obtain ⟨found, hfound, hrun⟩ := run_liftM_bind_eq_ok.mp (run_get_bind_eq_ok.mp hget)
  cases hmatch.symm.trans hfound
  dsimp only at hrun
  cases holdest : s.oldestWith? assertion.objectId a cell <;> rw [holdest] at hrun <;> exact hrun

theorem run_upsert_of_eq_conflict {c : Conflict}
    (h : (assertRecord stamp assertion).run s = .error (.conflict c) t) :
    (upsert stamp assertion a (s.oldestWith? assertion.objectId a cell)).run s =
      .error (.conflict c) t := by
  obtain ⟨o, -, hget⟩ := run_look_bind_eq_conflict (noConflict_requireObject s _) h
  obtain ⟨found, hfound, hrun⟩ := run_liftM_bind_eq_conflict
    (matchingCell_failsOnly _ _).noConflict (run_get_bind_eq_error.mp hget)
  cases hmatch.symm.trans hfound
  dsimp only at hrun
  cases holdest : s.oldestWith? assertion.objectId a cell <;> rw [holdest] at hrun <;> exact hrun

end Session

/-! ### What is created and changed -/

def NewRecord.record (new : NewRecord) (stamp : Stamp) : Record :=
  ⟨stamp.fresh 0, new.objectId, none, stamp.now, new.actor, stamp.now⟩

theorem replaceRows_of_ne {owner : Id} {ids : List Id} {rows new : List ValueRow}
    (h : ∀ r ∈ rows, r.owner ≠ owner) : replaceRows owner ids rows new = rows ++ new := by
  have hkept : rows.filter (fun r => !ids.any fun id => r.isFor owner id) = rows := by
    refine List.filter_eq_self.mpr fun r hr => ?_
    rw [Bool.not_eq_true', List.any_eq_false]
    exact fun id _ hfor => h r hr (ValueRow.isFor_iff.mp hfor).1
  rw [replaceRows, hkept]

/-- An id that no record has is that of no owner of values. -/
theorem Store.Sound.owner_ne {s : Store} (hs : s.Sound) {id : Id}
    (hfresh : ∀ r ∈ s.records, r.id ≠ id) : ∀ row ∈ s.recordValues, row.owner ≠ id := by
  intro row hrow heq
  obtain ⟨b, -, -, q, hq, hqid, -⟩ := hs.linked.values .records row hrow
  exact hfresh q hq (hqid.trans heq)

namespace Session

open Store (Sound)

variable {s t : Store} {stamp : Stamp} {view : RecordView}

/-- A record that is created has just the values that are prepared for it. -/
theorem of_run_createRecord_eq_ok (hs : s.Sound) {new : NewRecord}
    (hgiven : new.values.Pairwise fun g g' => g.1 ≠ g'.1)
    (h : (createRecord stamp new).run s = .ok view t) :
    ∃ encoded, List.Forall₂ (Prepares (s.attributesOf (.object new.objectId))) new.values encoded ∧
      (∀ r ∈ s.records, r.id ≠ stamp.fresh 0) ∧
      t = { s with
        records := s.records ++ [new.record stamp]
        recordValues := rewritten (stamp.fresh 0) encoded s.recordValues } ∧
      view.record = new.record stamp := by
  obtain ⟨o, -, hget⟩ := run_look_bind_eq_ok.mp h
  obtain ⟨prepared, hprepared, hbody⟩ := run_liftM_bind_eq_ok.mp (run_get_bind_eq_ok.mp hget)
  obtain ⟨_, u, htransaction, hshow⟩ := run_bind_eq_ok.mp hbody
  obtain ⟨_, v, hinsert, happly⟩ := run_bind_eq_ok.mp (run_transaction_eq_ok.mp htransaction)
  obtain ⟨hfresh, rfl⟩ := run_write_eq_ok.mp hinsert
  obtain ⟨encoded, hencoded, rfl⟩ :=
    exists_of_prepareValues_create (hs.indexed.slugs_attributesOf _) hprepared
  obtain ⟨_, w, hstore, hclear⟩ := run_bind_eq_ok.mp happly
  cases hclear
  have hids := pairwise_setsOf (pairwise_encoded (hs.indexed.ids_attributesOf _) hgiven hencoded)
  obtain ⟨-, rfl⟩ := (run_storeValues_eq_ok_iff hids).mp hstore
  -- nobody has the new id yet, so no row gives way
  have hrows := hs.owner_ne hfresh
  have hview := (run_liftM_eq_ok.mp hshow).1
  obtain ⟨-, rfl⟩ := run_liftM_eq_ok.mp hshow
  refine ⟨encoded, hencoded, hfresh, ?_, ?_⟩
  · rw [rewritten, replaceRows_of_ne hrows]
    exact congrArg (fun rows => Store.setValues _ .records rows) (replaceRows_of_ne hrows)
  · obtain ⟨hmem, hid, -⟩ := record_of_requireRecordView hview
    rcases List.mem_append.mp hmem with hold | hnew
    · exact absurd hid (hfresh _ hold)
    · exact List.mem_singleton.mp hnew

/-- A record that is changed has the values that can be taken for it in place of those it had. -/
theorem of_run_updateRecord_eq_ok (hs : s.Sound) {changes : RecordChanges}
    (hgiven : changes.values.Pairwise fun g g' => g.1 ≠ g'.1)
    (h : (updateRecord stamp changes).run s = .ok view t) :
    ∃ encoded, List.Forall₂ (Prepares (s.attributesOf (.object changes.objectId))) changes.values
        encoded ∧
      t = s.revised ⟨.records, changes.recordId, changes.values⟩ encoded stamp.now ∧
      view.record.id = changes.recordId := by
  have hperform : ∃ answer, s.perform ⟨0, 0, .reject, []⟩ stamp (.updateRecord changes) =
      .ok (answer, t) := ⟨_, (Store.perform_answering_eq_ok_iff rfl).mpr ⟨view, h, rfl⟩⟩
  obtain ⟨_, ⟨rfl, -⟩, encoded, htakes, rfl⟩ :=
    (Store.exists_perform_revised_iff hs rfl hgiven).mp hperform
  exact ⟨encoded, htakes.imp fun _ _ htaken => htaken.toPrepares, rfl,
    (returned_updateRecord s stamp changes h).2⟩

theorem record_of_run_assertRecord {assertion : RecordAssertion}
    (h : (assertRecord stamp assertion).run s = .ok view t) :
    view.record ∈ t.records ∧ view.record.objectId = assertion.objectId := by
  have hview := Store.requireRecordView_eq_ok_iff.mpr (returned_assertRecord s stamp assertion h)
  obtain ⟨hmem, -, hobject⟩ := record_of_requireRecordView hview
  exact ⟨hmem, hobject⟩

end Session

namespace Store

variable {s t : Store} {assertion : RecordAssertion} {a : Attribute} {cell : Cell} {r : Record}
  {now : Timestamp}

/-- A record is created if none is known by a key, and otherwise the oldest one that is known by
it is changed. -/
inductive Upserts (s : Store) (objectId attributeId : Id) (key : String) (now : Timestamp)
    (r : Record) (t : Store) : Prop
  | created (unknown : ∀ q, ¬ s.KnownBy objectId attributeId key q)
      (object : r.objectId = objectId) (fresh : ∀ q ∈ s.records, q.id ≠ r.id)
      (records : t.records = s.records ++ [r])
  | changed {q : Record} (oldest : s.Oldest objectId attributeId key q) (same : r.id = q.id)
      (records : t.records = (s.touched .records q.id now).records)

/-- What an assertion has done that goes by a cell of an attribute. -/
structure Asserted (s : Store) (assertion : RecordAssertion) (a : Attribute) (cell : Cell)
    (now : Timestamp) (r : Record) (t : Store) : Prop where
  upserts : s.Upserts assertion.objectId a.id cell.canonicalKey now r t
  mem : r ∈ t.records
  object : r.objectId = assertion.objectId
  taken : ∀ g ∈ assertion.merged a.slug, ∃ p,
    Prepares (s.attributesOf (.object assertion.objectId)) g p
  written : Written (s.attributesOf (.object assertion.objectId)) (assertion.merged a.slug) r.id
    s.recordValues t.recordValues
  attributes : t.attributesOf = s.attributesOf

theorem Reachable.asserted (h : s.Reachable)
    (hmatch : Session.matchingCell (s.attributesOf (.object assertion.objectId)) assertion =
      .ok (a, cell))
    (hvalues : assertion.values.Pairwise fun g g' => g.1 ≠ g'.1) {setup : Setup} {stamp : Stamp}
    {view : RecordView}
    (hok : s.perform setup stamp (.assertRecord assertion) = .ok (.record view, t)) :
    s.Asserted assertion a cell stamp.now view.record t := by
  obtain ⟨view', hrun, heq⟩ := (perform_answering_eq_ok_iff rfl).mp hok
  cases heq
  have hgiven := RecordAssertion.pairwise_merged a.slug hvalues
  obtain ⟨ha, -, -⟩ := Session.of_matchingCell hmatch
  obtain ⟨hmem, hobject⟩ := Session.record_of_run_assertRecord hrun
  have hslugs := h.sound.indexed.slugs_attributesOf (.object assertion.objectId)
  have hids := h.sound.indexed.ids_attributesOf (.object assertion.objectId)
  have hupsert := Session.run_upsert_of_eq_ok hmatch hrun
  cases holdest : s.oldestWith? assertion.objectId a cell with
  | none =>
    rw [holdest] at hupsert
    obtain ⟨encoded, hencoded, hfresh, rfl, hrecord⟩ :=
      Session.of_run_createRecord_eq_ok h.sound hgiven hupsert
    have hid : view.record.id = stamp.fresh 0 := by rw [hrecord]; rfl
    refine ⟨.created ((h.oldestWith?_eq_none_iff ha).mp holdest) hobject (hid ▸ hfresh)
      (by rw [hrecord]), hmem, hobject, fun g hg => ?_, ?_, rfl⟩
    · obtain ⟨p, -, hp⟩ := exists_of_mem_left hencoded hg
      exact ⟨p, hp⟩
    · rw [hid]
      exact written_rewritten hslugs hids hgiven hencoded (stamp.fresh 0) s.recordValues
  | some q =>
    rw [holdest] at hupsert
    obtain ⟨encoded, hencoded, rfl, hid⟩ :=
      Session.of_run_updateRecord_eq_ok h.sound hgiven hupsert
    refine ⟨.changed ((h.oldestWith?_eq_some_iff ha).mp holdest) hid rfl, hmem, hobject,
      fun g hg => ?_, ?_, attributesOf_revised ..⟩
    · obtain ⟨p, -, hp⟩ := exists_of_mem_left hencoded hg
      exact ⟨p, hp⟩
    · rw [hid]
      exact written_rewritten hslugs hids hgiven hencoded q.id s.recordValues

namespace Asserted

variable {q : Record} {objectId attributeId : Id} {key : String}

theorem mem_records_iff (h : s.Asserted assertion a cell now r t) (hne : q.id ≠ r.id) :
    q ∈ t.records ↔ q ∈ s.records := by
  cases h.upserts with
  | created _ _ _ records =>
    rw [records, List.mem_append, List.mem_singleton]
    exact or_iff_left fun heq => hne (by rw [heq])
  | @changed p _ same records =>
    have hother : ∀ x : Record, x.id ≠ p.id →
        (if x.id = p.id then { x with updatedAt := now } else x) = x := fun x hx => if_neg hx
    have hid : ∀ x : Record, (if x.id = p.id then { x with updatedAt := now } else x).id = x.id := by
      intro x
      split <;> rfl
    rw [records, touched, List.mem_map]
    constructor
    · rintro ⟨x, hx, rfl⟩
      rw [hid, same] at hne
      rwa [hother x hne]
    · exact fun hq => ⟨q, hq, hother q (same ▸ hne)⟩

/-- Of records other than the one asserted the same are known by a key as before. -/
theorem knownBy_iff_of_ne (h : s.Asserted assertion a cell now r t) (hne : q.id ≠ r.id) :
    t.KnownBy objectId attributeId key q ↔ s.KnownBy objectId attributeId key q := by
  have hrow : ∀ row : ValueRow, row.isFor q.id attributeId = true →
      (row ∈ t.recordValues ↔ row ∈ s.recordValues) := by
    intro row hfor
    refine h.written.others row fun _ _ _ _ _ => Bool.eq_false_iff.mpr fun hown => hne ?_
    rw [← (ValueRow.isFor_iff.mp hfor).1, (ValueRow.isFor_iff.mp hown).1]
  constructor
  · rintro ⟨hmem, hobject, row, hvalue, hfor, hkey⟩
    exact ⟨(h.mem_records_iff hne).mp hmem, hobject, row, (hrow row hfor).mp hvalue, hfor, hkey⟩
  · rintro ⟨hmem, hobject, row, hvalue, hfor, hkey⟩
    exact ⟨(h.mem_records_iff hne).mpr hmem, hobject, row, (hrow row hfor).mpr hvalue, hfor, hkey⟩

/-- The asserted record is known by the value that was written under the name it goes by. -/
theorem knownBy_self_iff (h : s.Asserted assertion a cell now r t) (hi : s.Indexed)
    (ha : a ∈ s.attributesOf (.object assertion.objectId)) :
    t.KnownBy assertion.objectId a.id key r ↔
      ∃ c, encodeValue a (assertion.own a.slug) = .ok (some c) ∧ c.kept.canonicalKey = key := by
  have hown := assertion.own_mem_merged a.slug
  constructor
  · rintro ⟨-, -, row, hrow, hfor, hkey⟩
    obtain ⟨⟨b, made⟩, hb, hslug, hmade, -⟩ := h.taken _ hown
    obtain rfl : a = b := (eq_of_pairwise_ne (hi.slugs_attributesOf _) hb ha hslug).symm
    cases made with
    | none =>
      have hnone := h.written.cleared _ hown a ha rfl hmade row hrow
      rw [hfor] at hnone
      cases hnone
    | some c =>
      have hnew := (h.written.set _ hown a ha rfl c hmade row).mp ⟨hrow, hfor⟩
      exact ⟨c, hmade, by rw [← hkey, hnew]; rfl⟩
  · rintro ⟨c, hc, hkey⟩
    obtain ⟨hrow, hfor⟩ := (h.written.set _ hown a ha rfl c hc _).mpr rfl
    exact ⟨h.mem, h.object, _, hrow, hfor, hkey⟩

/-- If the asserted record is known by what it was looked up by, it is the oldest that is. -/
theorem oldest_self (h : s.Asserted assertion a cell now r t) (hi : t.Indexed)
    (hknown : t.KnownBy assertion.objectId a.id cell.canonicalKey r) :
    t.Oldest assertion.objectId a.id cell.canonicalKey r := by
  refine ⟨hknown, fun q hq => ?_⟩
  by_cases hid : q.id = r.id
  · rw [eq_of_pairwise_ne hi.records hq.mem h.mem hid]
    exact olderRecord_self r
  · have hbefore := (h.knownBy_iff_of_ne hid).mp hq
    cases h.upserts with
    | created unknown => exact absurd hbefore (unknown q)
    | @changed p oldest same records =>
      have hp : { p with updatedAt := now } ∈ t.records := by
        rw [records, touched]
        exact List.mem_map.mpr ⟨p, oldest.mem, if_pos rfl⟩
      cases eq_of_pairwise_ne hi.records h.mem hp same
      exact oldest.oldest q hbefore

end Asserted

end Store

end RecordStore
