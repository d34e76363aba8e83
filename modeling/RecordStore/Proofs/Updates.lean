import RecordStore.Proofs.Creation
import RecordStore.Proofs.Displays
import RecordStore.Proofs.Writes

/-!
# Changes in part

A record or an entry is changed by some of its values: those named by slug are set or cleared, and
nothing else of it but the time of its last change. Main statement: the change is made just if the
owner is there and each of the values can be taken by itself, it leaves every other row of all
tables as it was, and made once more it makes no difference to any value.
-/

namespace RecordStore

/-- A change of values: of which owner in which table, and the values given by slug. -/
structure Revision where
  table : ValueTable
  owner : Id
  given : List (String × Json)

def Call.revision? : Call → Option Revision
  | .updateRecord changes => some ⟨.records, changes.recordId, changes.values⟩
  | .updateEntry id given _ => some ⟨.entries, id, given⟩
  | _ => none

namespace Store

variable {s t : Store}

/-- The owner of the values that a call changes is there: a record in the object that the call
names, an entry in any list. -/
def Finds (s : Store) : Call → Parent → Prop
  | .updateRecord changes, parent =>
    parent = .object changes.objectId ∧ s.Owns .records changes.recordId parent
  | .updateEntry id _ _, parent => s.Owns .entries id parent
  | _, _ => False

/-- A value given by slug can be taken for what it is prepared to: it is not blank if one is
required, and nobody else has its key if it is unique. -/
structure Takes (s : Store) (revision : Revision) (parent : Parent) (g : String × Json)
    (p : Attribute × Option Cell) : Prop extends Prepares (s.attributesOf parent) g p where
  required : p.1.isRequired = true → p.2 ≠ none
  free : p.1.isUnique = true → ∀ c, p.2 = some c → ∀ row ∈ s.values revision.table,
    row.attributeId = p.1.id → row.uniqueKey = some c.canonicalKey → row.owner = revision.owner

/-- A store in which an owner has just been changed. -/
def touched (s : Store) (table : ValueTable) (owner : Id) (now : Timestamp) : Store :=
  match table with
  | .records => { s with
      records := s.records.map fun r => if r.id = owner then { r with updatedAt := now } else r }
  | .entries => { s with
      entries := s.entries.map fun e => if e.id = owner then { e with updatedAt := now } else e }

section

variable (s : Store) (table : ValueTable) (owner : Id) (now : Timestamp)

@[simp] theorem values_touched (other : ValueTable) :
    (s.touched table owner now).values other = s.values other := by
  cases table <;> cases other <;> rfl

theorem touched_setValues (rows : List ValueRow) :
    (s.setValues table rows).touched table owner now =
      (s.touched table owner now).setValues table rows := by
  cases table <;> rfl

theorem attributesOf_setValues (other : ValueTable) (rows : List ValueRow) :
    (s.setValues other rows).attributesOf = s.attributesOf := by
  cases other <;> rfl

theorem attributesOf_touched : (s.touched table owner now).attributesOf = s.attributesOf := by
  cases table <;> rfl

theorem owns_touched_iff {other : ValueTable} {id : Id} {parent : Parent} :
    (s.touched table owner now).Owns other id parent ↔ s.Owns other id parent := by
  have hrecord : ∀ r : Record, (if r.id = owner then { r with updatedAt := now } else r).id = r.id ∧
      (if r.id = owner then { r with updatedAt := now } else r).objectId = r.objectId := by
    intro r
    split <;> exact ⟨rfl, rfl⟩
  have hentry : ∀ e : Entry, (if e.id = owner then { e with updatedAt := now } else e).id = e.id ∧
      (if e.id = owner then { e with updatedAt := now } else e).listId = e.listId := by
    intro e
    split <;> exact ⟨rfl, rfl⟩
  cases table <;> cases other <;> try exact Iff.rfl
  · simp [Owns, touched, hrecord]
  · simp [Owns, touched, hentry]

theorem changes_touched : Changes s (s.touched table owner now) := by
  cases table
  · refine .single (.mapRecords fun r => ?_)
    split <;> exact ⟨rfl, rfl⟩
  · refine .single (.mapEntries fun e => ?_)
    split <;> exact ⟨rfl, rfl, rfl⟩

theorem finds_touched_iff {call : Call} {parent : Parent} :
    (s.touched table owner now).Finds call parent ↔ s.Finds call parent := by
  cases call <;> simp only [Finds, owns_touched_iff]

theorem finds_setValues_iff (other : ValueTable) (rows : List ValueRow) {call : Call}
    {parent : Parent} : (s.setValues other rows).Finds call parent ↔ s.Finds call parent := by
  cases call <;> simp only [Finds, owns_setValues_iff]

end

end Store

namespace Session

variable {s t : Store}

/-- Prepared values are applied to a sound store that keeps its owners. -/
theorem sound_touched (hs : s.Sound) {table : ValueTable} {owner : Id} {parent : Parent}
    (howns : s.Owns table owner parent) {given : List (String × Json)} {prepared : Prepared}
    (hprepared : prepareValues (s.attributesOf parent) given .update = .ok prepared) {u : Store}
    (happly : (applyValues table owner prepared).run s = .ok () u) (now : Timestamp) :
    (u.touched table owner now).Sound ∧ (u.touched table owner now).Owns table owner parent ∧
      (u.touched table owner now).lists = s.lists := by
  obtain ⟨hsu, rows, rfl⟩ := yields_applyValues (admits_of_prepareValues howns hprepared) happly
  refine ⟨hs.changes (hsu.trans (Store.changes_touched _ table owner now)), ?_, ?_⟩
  · rwa [Store.owns_touched_iff, Store.owns_setValues_iff]
  · cases table <;> rfl

/-- A record is changed just if it is there and the values can be prepared and applied. -/
theorem exists_run_updateRecord_iff (hs : s.Sound) {stamp : Stamp} {changes : RecordChanges} :
    (∃ view, (updateRecord stamp changes).run s = .ok view t) ↔
      s.Owns .records changes.recordId (.object changes.objectId) ∧
      ∃ prepared, prepareValues (s.attributesOf (.object changes.objectId)) changes.values .update =
        .ok prepared ∧
      ∃ u, (applyValues .records changes.recordId prepared).run s = .ok () u ∧
        t = u.touched .records changes.recordId stamp.now := by
  constructor
  · rintro ⟨view, hrun⟩
    obtain ⟨r, hr, hget⟩ := run_look_bind_eq_ok.mp hrun
    obtain ⟨prepared, hprepared, hbody⟩ := run_liftM_bind_eq_ok.mp (run_get_bind_eq_ok.mp hget)
    obtain ⟨_, v, htransaction, hshow⟩ := run_bind_eq_ok.mp hbody
    obtain ⟨_, u, happly, htouch⟩ := run_bind_eq_ok.mp (run_transaction_eq_ok.mp htransaction)
    obtain ⟨-, rfl⟩ := run_liftM_eq_ok.mp hshow
    cases htouch
    obtain ⟨hmem, hid, hobject⟩ := Store.mem_of_requireRecord hr
    exact ⟨⟨r, hmem, hid, by rw [hobject]⟩, prepared, hprepared, u, happly, rfl⟩
  · rintro ⟨howns, prepared, hprepared, u, happly, rfl⟩
    obtain ⟨ht, ⟨q, hq, hqid, hqobject⟩, -⟩ := sound_touched hs howns hprepared happly stamp.now
    obtain ⟨r, hr, hid, hobject⟩ := howns
    have hfound := Store.record?_eq_some hs.indexed hr
    obtain ⟨view, hview⟩ : ∃ view, (u.touched .records changes.recordId stamp.now).requireRecordView
      q.objectId q.id = .ok view := ⟨_, Store.requireRecordView_eq_ok ht.indexed hq⟩
    rw [hid] at hfound
    rw [hqid, ← Parent.object.inj hqobject] at hview
    refine ⟨view, run_look_bind_eq_ok.mpr ⟨r, ?_, run_liftM_bind_eq_ok.mpr ⟨prepared, hprepared, ?_⟩⟩⟩
    · exact Store.requireRecord_eq_ok_iff.mpr ⟨hfound, (Parent.object.inj hobject).symm⟩
    refine run_bind_eq_ok.mpr ⟨(), u.touched .records changes.recordId stamp.now, ?_, ?_⟩
    · exact run_transaction_eq_ok.mpr (run_bind_eq_ok.mpr ⟨(), u, happly, rfl⟩)
    · exact run_liftM_eq_ok.mpr ⟨hview, rfl⟩

/-- An entry is changed just if it is there and the values can be prepared and applied. -/
theorem exists_run_updateEntry_iff (hs : s.Sound) {stamp : Stamp} {id : Id}
    {given : List (String × Json)} :
    (∃ view, (updateEntry stamp id given).run s = .ok view t) ↔
      ∃ parent, s.Owns .entries id parent ∧
      ∃ prepared, prepareValues (s.attributesOf parent) given .update = .ok prepared ∧
      ∃ u, (applyValues .entries id prepared).run s = .ok () u ∧
        t = u.touched .entries id stamp.now := by
  constructor
  · rintro ⟨view, hrun⟩
    obtain ⟨e, he, hlook⟩ := run_look_bind_eq_ok.mp hrun
    obtain ⟨list, hlist, hget⟩ := run_look_bind_eq_ok.mp hlook
    obtain ⟨prepared, hprepared, hbody⟩ := run_liftM_bind_eq_ok.mp (run_get_bind_eq_ok.mp hget)
    obtain ⟨_, v, htransaction, hshow⟩ := run_bind_eq_ok.mp hbody
    obtain ⟨_, u, happly, htouch⟩ := run_bind_eq_ok.mp (run_transaction_eq_ok.mp htransaction)
    obtain ⟨-, rfl⟩ := run_liftM_eq_ok.mp hshow
    cases htouch
    obtain ⟨hmem, rfl⟩ := Store.mem_of_requireEntry he
    obtain ⟨-, hlid⟩ := Store.mem_of_requireList hlist
    exact ⟨.list list.id, ⟨e, hmem, rfl, by rw [hlid]⟩, prepared, hprepared, u, happly, rfl⟩
  · rintro ⟨parent, howns, prepared, hprepared, u, happly, rfl⟩
    obtain ⟨ht, ⟨f, hf, hfid, hflist⟩, hlists⟩ :=
      sound_touched hs howns hprepared happly stamp.now
    obtain ⟨e, he, rfl, rfl⟩ := howns
    obtain ⟨l, hl, r, -, hlid, -, -⟩ := hs.linked.entries e he
    have hlist : s.requireList e.listId = .ok l :=
      Store.requireList_eq_ok_iff.mpr (hlid ▸ Store.list?_eq_some hs.indexed hl)
    obtain ⟨view, hview⟩ := Store.exists_requireEntryView_eq_ok ht.indexed ht.linked (l := l)
      (hlists ▸ hl) (List.mem_filter.mpr ⟨hf, by simp [← Parent.list.inj hflist, hlid]⟩)
    rw [hfid] at hview
    refine ⟨view, run_look_bind_eq_ok.mpr ⟨e, ?_, run_look_bind_eq_ok.mpr ⟨l, hlist, ?_⟩⟩⟩
    · exact Store.requireEntry_eq_ok_iff.mpr (find?_of_pairwise_ne hs.indexed.entryIds he)
    refine run_liftM_bind_eq_ok.mpr ⟨prepared, hlid ▸ hprepared, ?_⟩
    refine run_bind_eq_ok.mpr ⟨(), u.touched .entries e.id stamp.now, ?_, ?_⟩
    · exact run_transaction_eq_ok.mpr (run_bind_eq_ok.mpr ⟨(), u, happly, rfl⟩)
    · exact run_liftM_eq_ok.mpr ⟨hview, rfl⟩

end Session

namespace Store

variable {s t : Store} {call : Call} {revision : Revision}

theorem exists_perform_answering_iff {α : Type} {setup : Setup} {stamp : Stamp} {f : α → Answer}
    {x : Session α} (h : Session.ofCall setup stamp call = Session.answering f x) :
    (∃ answer, s.perform setup stamp call = .ok (answer, t)) ↔ ∃ a, x.run s = .ok a t := by
  simp only [perform_answering_eq_ok_iff h]
  constructor
  · rintro ⟨answer, a, hrun, -⟩
    exact ⟨a, hrun⟩
  · rintro ⟨a, hrun⟩
    exact ⟨f a, a, hrun, rfl⟩

theorem exists_perform_revision_iff (hs : s.Sound) (hrevision : call.revision? = some revision)
    {setup : Setup} {stamp : Stamp} :
    (∃ answer, s.perform setup stamp call = .ok (answer, t)) ↔
      ∃ parent, s.Finds call parent ∧
      ∃ prepared, prepareValues (s.attributesOf parent) revision.given .update = .ok prepared ∧
      ∃ u, (Session.applyValues revision.table revision.owner prepared).run s = .ok () u ∧
        t = u.touched revision.table revision.owner stamp.now := by
  cases call with
  | updateRecord changes =>
    cases hrevision
    rw [exists_perform_answering_iff rfl, Session.exists_run_updateRecord_iff hs]
    constructor
    · rintro ⟨howns, hrest⟩
      exact ⟨_, ⟨rfl, howns⟩, hrest⟩
    · rintro ⟨_, ⟨rfl, howns⟩, hrest⟩
      exact ⟨howns, hrest⟩
  | updateEntry id given actor =>
    cases hrevision
    rw [exists_perform_answering_iff rfl, Session.exists_run_updateEntry_iff hs]
    rfl
  | _ => cases hrevision

/-- Of values that are prepared already it remains to be seen that none of them clears what is
required, and that no key is taken. -/
theorem forall₂_takes_iff {parent : Parent} {encoded : List (Attribute × Option Cell)}
    (h : List.Forall₂ (Prepares (s.attributesOf parent)) revision.given encoded) :
    List.Forall₂ (s.Takes revision parent) revision.given encoded ↔
      (∀ p ∈ encoded, p.1.isRequired = true → p.2 ≠ none) ∧
      ∀ p ∈ setsOf encoded,
        keyTaken (s.values revision.table) revision.owner p.1.id (keyOf p.1 p.2) = false := by
  constructor
  · intro htakes
    refine ⟨fun p hp => ?_, fun p hp => ?_⟩
    · obtain ⟨g, -, htaken⟩ := exists_of_mem_right htakes hp
      exact htaken.required
    · obtain ⟨g, -, htaken⟩ := exists_of_mem_right htakes (mem_setsOf.mp hp)
      exact keyTaken_keyOf_iff.mpr fun hunique => htaken.free hunique p.2 rfl
  · rintro ⟨hrequired, hfree⟩
    have hboth : ∀ p ∈ encoded, (p.1.isRequired = true → p.2 ≠ none) ∧ ∀ c, p.2 = some c →
        keyTaken (s.values revision.table) revision.owner p.1.id (keyOf p.1 c) = false := by
      rintro ⟨a, cell⟩ hp
      refine ⟨hrequired _ hp, ?_⟩
      rintro c rfl
      exact hfree (a, c) (mem_setsOf.mpr hp)
    refine (forall₂_and_right.mpr ⟨h, hboth⟩).imp fun g p ⟨hprepares, hkept, hkeys⟩ => ?_
    exact ⟨hprepares, hkept, fun hunique c hc => keyTaken_keyOf_iff.mp (hkeys c hc) hunique⟩

/-- The values of an owner after a change, and the store with them. -/
def revised (s : Store) (revision : Revision) (encoded : List (Attribute × Option Cell))
    (now : Timestamp) : Store :=
  (s.touched revision.table revision.owner now).setValues revision.table
    (rewritten revision.owner encoded (s.values revision.table))

theorem exists_perform_revised_iff (hs : s.Sound) (hrevision : call.revision? = some revision)
    (hgiven : revision.given.Pairwise fun g g' => g.1 ≠ g'.1) {setup : Setup} {stamp : Stamp} :
    (∃ answer, s.perform setup stamp call = .ok (answer, t)) ↔
      ∃ parent, s.Finds call parent ∧
      ∃ encoded, List.Forall₂ (s.Takes revision parent) revision.given encoded ∧
        t = s.revised revision encoded stamp.now := by
  rw [exists_perform_revision_iff hs hrevision]
  refine exists_congr fun parent => and_congr_right fun _ => ?_
  have hslugs := hs.indexed.slugs_attributesOf parent
  have hids := hs.indexed.ids_attributesOf parent
  constructor
  · rintro ⟨prepared, hprepared, u, happly, rfl⟩
    obtain ⟨encoded, hencoded, hrequired, rfl⟩ :=
      (prepareValues_update_eq_ok_iff hslugs).mp hprepared
    obtain ⟨hfree, rfl⟩ := (Session.run_applyValues_eq_ok_iff
      (pairwise_encoded hids hgiven hencoded)).mp happly
    refine ⟨encoded, (forall₂_takes_iff hencoded).mpr ⟨hrequired, fun p hp => ?_⟩,
      touched_setValues ..⟩
    exact (hfree p hp).2
  · rintro ⟨encoded, htakes, rfl⟩
    have hencoded : List.Forall₂ (Prepares (s.attributesOf parent)) revision.given encoded :=
      htakes.imp fun _ _ h => h.toPrepares
    obtain ⟨hrequired, hfree⟩ := (forall₂_takes_iff hencoded).mp htakes
    refine ⟨_, (prepareValues_update_eq_ok_iff hslugs).mpr ⟨encoded, hencoded, hrequired, rfl⟩, _,
      (Session.run_applyValues_eq_ok_iff (pairwise_encoded hids hgiven hencoded)).mpr
        ⟨fun p hp => ⟨?_, hfree p hp⟩, rfl⟩, (touched_setValues ..).symm⟩
    obtain ⟨g, -, hprepares⟩ := exists_of_mem_right hencoded (mem_setsOf.mp hp)
    exact fun hunique => hprepares.short hunique p.2 rfl

/-! ### The change once more -/

section

variable (s : Store) (revision : Revision) (encoded : List (Attribute × Option Cell))
  (now : Timestamp)

theorem attributesOf_revised : (s.revised revision encoded now).attributesOf = s.attributesOf := by
  rw [revised, attributesOf_setValues, attributesOf_touched]

theorem finds_revised_iff {parent : Parent} :
    (s.revised revision encoded now).Finds call parent ↔ s.Finds call parent := by
  rw [revised, finds_setValues_iff, finds_touched_iff]

theorem values_revised : (s.revised revision encoded now).values revision.table =
    rewritten revision.owner encoded (s.values revision.table) :=
  values_setValues ..

theorem values_revised_revised (later : Timestamp) (table : ValueTable) :
    ((s.revised revision encoded now).revised revision encoded later).values table =
      (s.revised revision encoded now).values table := by
  by_cases htable : table = revision.table
  · rw [htable, values_revised, values_revised, rewritten_rewritten]
  · rw [revised, values_setValues_of_ne _ _ _ htable, values_touched]

end

/-- What can be taken can be taken again: of what stands in its way, nothing is the owner's. -/
theorem forall₂_takes_revised {parent : Parent} {encoded : List (Attribute × Option Cell)}
    (h : List.Forall₂ (s.Takes revision parent) revision.given encoded) (now : Timestamp) :
    List.Forall₂ ((s.revised revision encoded now).Takes revision parent) revision.given
      encoded := by
  have hencoded : List.Forall₂ (Prepares (s.attributesOf parent)) revision.given encoded :=
    h.imp fun _ _ htaken => htaken.toPrepares
  obtain ⟨hrequired, hfree⟩ := (forall₂_takes_iff hencoded).mp h
  rw [← attributesOf_revised s revision encoded now] at hencoded
  refine (forall₂_takes_iff hencoded).mpr ⟨hrequired, fun p hp => ?_⟩
  rw [values_revised, ← hfree p hp]
  refine keyTaken_congr (fun r howner => ?_) _ _
  rw [mem_rewritten]
  constructor
  · rintro (⟨hr, -⟩ | ⟨a, c, -, rfl⟩)
    · exact hr
    · exact absurd rfl howner
  · exact fun hr => .inl ⟨hr, fun p _ => Bool.eq_false_iff.mpr fun hfor =>
      howner (ValueRow.isFor_iff.mp hfor).1⟩

/-! ### Main statement -/

/-- A change in part is made just if its owner is there and each value can be taken. It sets and
clears the values that are named, leaves all other rows of all tables as they were but for the time
of the owner's last change, and when it is made again it succeeds and changes no value. -/
theorem perform_revision (h : s.Reachable) (hrevision : call.revision? = some revision)
    (hgiven : revision.given.Pairwise fun g g' => g.1 ≠ g'.1) (setup : Setup) (stamp : Stamp) :
    ((∃ answer t, s.perform setup stamp call = .ok (answer, t)) ↔
      ∃ parent, s.Finds call parent ∧ ∀ g ∈ revision.given, ∃ p, s.Takes revision parent g p) ∧
    ∀ answer t, s.perform setup stamp call = .ok (answer, t) →
      (∃ parent, s.Finds call parent ∧ Written (s.attributesOf parent) revision.given
        revision.owner (s.values revision.table) (t.values revision.table)) ∧
      t = (s.touched revision.table revision.owner stamp.now).setValues revision.table
        (t.values revision.table) ∧
      ∀ setup' stamp', ∃ answer' u, t.perform setup' stamp' call = .ok (answer', u) ∧
        ∀ table, u.values table = t.values table := by
  have hiff : ∀ t, (∃ answer, s.perform setup stamp call = .ok (answer, t)) ↔ _ :=
    fun t => exists_perform_revised_iff h.sound hrevision hgiven
  refine ⟨?_, fun answer t hok => ?_⟩
  · constructor
    · rintro ⟨answer, t, hok⟩
      obtain ⟨parent, hfinds, encoded, htakes, -⟩ := (hiff t).mp ⟨answer, hok⟩
      refine ⟨parent, hfinds, fun g hg => ?_⟩
      obtain ⟨p, -, htaken⟩ := exists_of_mem_left htakes hg
      exact ⟨p, htaken⟩
    · rintro ⟨parent, hfinds, hall⟩
      obtain ⟨encoded, htakes⟩ := exists_forall₂ hall
      obtain ⟨answer, hok⟩ := (hiff _).mpr ⟨parent, hfinds, encoded, htakes, rfl⟩
      exact ⟨answer, _, hok⟩
  · have ht := (h.perform hok).sound
    obtain ⟨parent, hfinds, encoded, htakes, rfl⟩ := (hiff t).mp ⟨answer, hok⟩
    have hwritten := written_rewritten (h.sound.indexed.slugs_attributesOf parent)
      (h.sound.indexed.ids_attributesOf parent) hgiven
      (htakes.imp fun _ _ htaken => htaken.toPrepares) revision.owner (s.values revision.table)
    refine ⟨⟨parent, hfinds, ?_⟩, ?_, fun setup' stamp' => ?_⟩
    · rwa [values_revised]
    · rw [values_revised, revised]
    · obtain ⟨answer', hok'⟩ := (exists_perform_revised_iff ht hrevision hgiven).mpr
        ⟨parent, (finds_revised_iff ..).mpr hfinds, encoded, forall₂_takes_revised htakes _, rfl⟩
      exact ⟨answer', _, hok', values_revised_revised s revision encoded _ _⟩

/-- Changes the first deal to what it is. -/
def rewinning : Step :=
  exampleStep 6 (.updateRecord ⟨exampleId 0 0, exampleId 2 0, [("won", .bool true)], none⟩)

/-- The first deal may keep the key that it has, as often as it is changed. -/
theorem perform_rewinning :
    exampleStore.Reachable ∧
      rewinning.call.revision? = some ⟨.records, exampleId 2 0, [("won", .bool true)]⟩ ∧
      ([("won", Json.bool true)].Pairwise fun g g' => g.1 ≠ g'.1) ∧
      ∃ answer t, exampleStore.perform rewinning.setup rewinning.stamp rewinning.call =
          .ok (answer, t) ∧
        ∀ setup' stamp', ∃ answer' u, t.perform setup' stamp' rewinning.call = .ok (answer', u) ∧
          ∀ table, u.values table = t.values table := by
  have hgiven : [("won", Json.bool true)].Pairwise fun g g' => g.1 ≠ g'.1 :=
    List.pairwise_singleton _ _
  have hok : ∃ answer t, exampleStore.perform rewinning.setup rewinning.stamp rewinning.call =
      .ok (answer, t) := ⟨_, _, by cbv⟩
  obtain ⟨answer, t, hok⟩ := hok
  have hall := (perform_revision reachable_exampleStore rfl hgiven _ _).2 answer t hok
  exact ⟨reachable_exampleStore, rfl, hgiven, answer, t, hok, hall.2.2⟩

end Store

end RecordStore
