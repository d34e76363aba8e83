import Mathlib
import RecordStore.Proofs.Assertions

/-!
# Writes that meet keys

Values are stored one after the other, and each is first held against the keys of all other owners.
Main statement: of a call that writes values and is in order otherwise, nothing but these keys
decides whether it succeeds, and the first of its values whose key is taken is the one that it
fails for.
-/

namespace RecordStore

/-! ### Values against keys -/

/-- The first of values to be stored whose key somebody else has. -/
def firstTaken? (rows : List ValueRow) (owner : Id) (sets : List (Attribute × Cell)) :
    Option (Attribute × Cell) :=
  sets.find? fun p => keyTaken rows owner p.1.id (keyOf p.1 p.2)

theorem firstTaken?_eq_none_iff {rows : List ValueRow} {owner : Id}
    {sets : List (Attribute × Cell)} : firstTaken? rows owner sets = none ↔
      ∀ p ∈ sets, keyTaken rows owner p.1.id (keyOf p.1 p.2) = false := by
  simp [firstTaken?]

/-- What is stored for an owner takes no keys from its other values. -/
theorem firstTaken?_upsertRow {owner : Id} (p : Attribute × Cell) (rows : List ValueRow)
    (sets : List (Attribute × Cell)) :
    firstTaken? (upsertRow (newRow owner p) rows) owner sets = firstTaken? rows owner sets := by
  have hkeys : ∀ id key, keyTaken (upsertRow (newRow owner p) rows) owner id key =
      keyTaken rows owner id key := keyTaken_upsertRow
  simp only [firstTaken?, hkeys]

theorem firstTaken?_cons {rows : List ValueRow} {owner : Id} (p : Attribute × Cell)
    (rest : List (Attribute × Cell)) : firstTaken? rows owner (p :: rest) =
      if keyTaken rows owner p.1.id (keyOf p.1 p.2) then some p
      else firstTaken? rows owner rest := by
  rw [firstTaken?, List.find?_cons]
  cases keyTaken rows owner p.1.id (keyOf p.1 p.2) <;> rfl

theorem short_of_prepareValues {attributes : List Attribute}
    (hslugs : attributes.Pairwise fun a b => a.slug ≠ b.slug) {given : List (String × Json)}
    {mode : WriteMode} {prepared : Prepared}
    (h : prepareValues attributes given mode = .ok prepared) :
    ∀ p ∈ prepared.sets, p.1.isUnique = true → p.2.canonicalKey.length ≤ 255 := by
  have hsets : ∃ encoded, List.Forall₂ (Prepares attributes) given encoded ∧
      prepared.sets = setsOf encoded := by
    cases mode with
    | create =>
      obtain ⟨encoded, hencoded, rfl⟩ := exists_of_prepareValues_create hslugs h
      exact ⟨encoded, hencoded, rfl⟩
    | update =>
      obtain ⟨encoded, hencoded, -, rfl⟩ := (prepareValues_update_eq_ok_iff hslugs).mp h
      exact ⟨encoded, hencoded, rfl⟩
  obtain ⟨encoded, hencoded, hsets⟩ := hsets
  rintro ⟨a, c⟩ hp hunique
  rw [hsets, mem_setsOf] at hp
  obtain ⟨g, -, hprepares⟩ := exists_of_mem_right hencoded hp
  exact hprepares.short hunique c rfl

namespace Session

/-- The steps succeed as stated if no key is taken, and otherwise fail for the value whose key
is. -/
def MeetsKeys {α : Type} (s : Store) (x : Session α) (taken : Option (Attribute × Cell))
    (Q : α → Store → Prop) : Prop :=
  match taken with
  | none => Succeeds s x Q
  | some p => Fails s x (.conflict (.valueInUse p.1.slug))

namespace MeetsKeys

variable {α β : Type} {s : Store} {taken : Option (Attribute × Cell)} {Q R : α → Store → Prop}
  {P : β → Store → Prop}

theorem of_yields {x : Session α} (h : MeetsKeys s x taken R) (hx : Yields s x Q) :
    MeetsKeys s x taken Q := by
  cases taken with
  | none => exact Succeeds.of_yields h hx
  | some p => exact h

theorem bind {x : Session α} {f : α → Session β}
    (h : MeetsKeys s x taken fun a t => Succeeds t (f a) P) : MeetsKeys s (x >>= f) taken P := by
  cases taken with
  | none => exact Succeeds.bind h
  | some p => exact Fails.bind h

theorem later {x : Session α} {f : α → Session β}
    (h : Succeeds s x fun a t => MeetsKeys t (f a) taken P) : MeetsKeys s (x >>= f) taken P := by
  cases taken with
  | none => exact Succeeds.bind h
  | some p => exact Fails.later h

theorem transaction {body : Session α} (h : MeetsKeys s body taken Q) :
    MeetsKeys s (Session.transaction body) taken Q := by
  cases taken with
  | none => exact Succeeds.transaction h
  | some p => exact Fails.transaction h

theorem mono {x : Session α} (h : MeetsKeys s x taken Q) (hQR : ∀ a t, Q a t → R a t) :
    MeetsKeys s x taken R := by
  cases taken with
  | none => exact Succeeds.mono h hQR
  | some p => exact h

end MeetsKeys

variable {s : Store} {table : ValueTable} {owner : Id}

theorem fails_storeValue {a : Attribute} {cell : Cell}
    (hshort : a.isUnique = true → cell.canonicalKey.length ≤ 255)
    (htaken : keyTaken (s.values table) owner a.id (keyOf a cell) = true) :
    Fails s (storeValue table owner a cell) (.conflict (.valueInUse a.slug)) :=
  .liftM (storedKeyOf_eq_ok_iff.mpr ⟨hshort, rfl⟩)
    (.get (.refused (require_eq_error_iff.mpr ⟨by simp [htaken], rfl⟩)))

/-- Values are stored up to the first whose key is taken. -/
theorem meetsKeys_storeValues {sets : List (Attribute × Cell)}
    (hshort : ∀ p ∈ sets, p.1.isUnique = true → p.2.canonicalKey.length ≤ 255) :
    MeetsKeys s (storeValues table owner sets) (firstTaken? (s.values table) owner sets)
      fun _ _ => True := by
  induction sets generalizing s with
  | nil => exact Succeeds.pure trivial
  | cons p rest ih =>
    obtain ⟨hp, hrest⟩ := List.forall_mem_cons.mp hshort
    rw [firstTaken?_cons]
    split
    · exact Fails.bind (fails_storeValue hp ‹_›)
    · have hfree := Bool.eq_false_iff.mpr ‹_›
      refine .later ⟨(), _, run_storeValue_eq_ok_iff.mpr ⟨hp, hfree, rfl⟩, ?_⟩
      have hothers := ih hrest
        (s := s.setValues table (upsertRow (newRow owner p) (s.values table)))
      rwa [Store.values_setValues, firstTaken?_upsertRow] at hothers

/-- Prepared values are applied if none of them has a taken key. -/
theorem meetsKeys_applyValues (hi : s.Indexed) {parent : Parent} (howns : s.Owns table owner parent)
    {given : List (String × Json)} {mode : WriteMode} {prepared : Prepared}
    (hprepared : prepareValues (s.attributesOf parent) given mode = .ok prepared) :
    MeetsKeys s (applyValues table owner prepared)
      (firstTaken? (s.values table) owner prepared.sets)
      fun _ t => Store.Changes s t ∧ ∃ rows, t = s.setValues table rows := by
  have hshort := short_of_prepareValues (hi.slugs_attributesOf parent) hprepared
  refine MeetsKeys.of_yields (R := fun _ _ => True) (.bind ?_)
    (yields_applyValues (admits_of_prepareValues howns hprepared))
  exact (meetsKeys_storeValues hshort).mono fun _ t _ =>
    ⟨(), _, run_clearValues_eq_ok_iff.mpr rfl, trivial⟩

end Session

/-! ### Calls that write values -/

/-- The call that an assertion comes to, which goes by an attribute and may have found a record. -/
def RecordAssertion.call (assertion : RecordAssertion) (a : Attribute) : Option Record → Call
  | some r => .updateRecord ⟨assertion.objectId, r.id, assertion.merged a.slug, assertion.actor⟩
  | none => .createRecord ⟨assertion.objectId, assertion.merged a.slug, assertion.actor⟩

/-- Prepared values that are written for an owner. -/
structure ValueWrite where
  table : ValueTable
  owner : Id
  prepared : Prepared

namespace Store

variable {s : Store} {stamp : Stamp} {call : Call} {w : ValueWrite}

/-- A call writes values, and is in order but for their keys: what it refers to is there, the ids
that it gives out are new, and the values are accepted. -/
inductive Writes (s : Store) (stamp : Stamp) : Call → ValueWrite → Prop
  | createRecord {new : NewRecord} {prepared : Prepared}
      (object : ∃ o ∈ s.objects, o.id = new.objectId)
      (fresh : ∀ r ∈ s.records, r.id ≠ stamp.fresh 0)
      (values : prepareValues (s.attributesOf (.object new.objectId)) new.values .create =
        .ok prepared) :
      Writes s stamp (.createRecord new) ⟨.records, stamp.fresh 0, prepared⟩
  | updateRecord {changes : RecordChanges} {prepared : Prepared}
      (owns : s.Owns .records changes.recordId (.object changes.objectId))
      (values : prepareValues (s.attributesOf (.object changes.objectId)) changes.values .update =
        .ok prepared) :
      Writes s stamp (.updateRecord changes) ⟨.records, changes.recordId, prepared⟩
  | assertRecord {assertion : RecordAssertion} {a : Attribute} {cell : Cell} {w : ValueWrite}
      (object : ∃ o ∈ s.objects, o.id = assertion.objectId)
      (matching : Session.matchingCell (s.attributesOf (.object assertion.objectId)) assertion =
        .ok (a, cell))
      (comesTo : Writes s stamp
        (assertion.call a (s.oldestWith? assertion.objectId a cell)) w) :
      Writes s stamp (.assertRecord assertion) w
  | addEntry {new : NewEntry} {l : RecordList} {r : Record} {prepared : Prepared}
      (list : l ∈ s.lists) (listId : l.id = new.listId)
      (record : r ∈ s.records) (recordId : r.id = new.recordId) (object : r.objectId = l.objectId)
      (unlisted : s.isListed new.listId new.recordId = false)
      (fresh : ∀ e ∈ s.entries, e.id ≠ stamp.fresh 0)
      (values : prepareValues (s.attributesOf (.list new.listId)) new.values .create =
        .ok prepared) :
      Writes s stamp (.addEntry new) ⟨.entries, stamp.fresh 0, prepared⟩
  | updateEntry {id : Id} {given : List (String × Json)} {actor : Option Id} {parent : Parent}
      {prepared : Prepared} (owns : s.Owns .entries id parent)
      (values : prepareValues (s.attributesOf parent) given .update = .ok prepared) :
      Writes s stamp (.updateEntry id given actor) ⟨.entries, id, prepared⟩

/-- Values are written for attributes that are there. -/
theorem Writes.has (h : s.Writes stamp call w) : ∀ p ∈ w.prepared.sets, s.Has p.1 := by
  have hprepared : ∀ {parent : Parent} {given : List (String × Json)} {mode : WriteMode}
      {prepared : Prepared}, prepareValues (s.attributesOf parent) given mode = .ok prepared →
        ∀ p ∈ prepared.sets, s.Has p.1 := fun hvalues p hp =>
    (has_of_mem_attributesOf (encoded_of_prepareValues hvalues p hp).1).1
  induction h with
  | createRecord _ _ values | updateRecord _ values | addEntry _ _ _ _ _ _ _ values
  | updateEntry _ values => exact hprepared values
  | assertRecord _ _ _ ih => exact ih

end Store

namespace Session

variable {s : Store} {stamp : Stamp} {prepared : Prepared}

theorem meetsKeys_createRecord (hs : s.Sound) {new : NewRecord}
    (hobject : ∃ o ∈ s.objects, o.id = new.objectId)
    (hfresh : ∀ r ∈ s.records, r.id ≠ stamp.fresh 0)
    (hprepared : prepareValues (s.attributesOf (.object new.objectId)) new.values .create =
      .ok prepared) :
    MeetsKeys s (createRecord stamp new)
      (firstTaken? (s.values .records) (stamp.fresh 0) prepared.sets) fun _ _ => True := by
  obtain ⟨o, ho⟩ := Store.exists_requireObject hobject
  have hinserted : Store.Change s { s with records := s.records ++ [new.record stamp] } :=
    .insertRecord hobject hfresh
  have howns : Store.Owns { s with records := s.records ++ [new.record stamp] } .records
      (stamp.fresh 0) (.object new.objectId) :=
    ⟨_, List.mem_append_right _ (List.mem_singleton.mpr rfl), rfl, rfl⟩
  refine .later (.look ho (.later ⟨s, s, rfl, .later (.liftM hprepared (.bind ?_))⟩))
  refine .transaction (.later (.write hfresh ?_))
  refine (meetsKeys_applyValues (hs.changes (.single hinserted)).indexed howns hprepared).mono ?_
  rintro - t ⟨hut, rows, rfl⟩
  have hi := (hs.changes (.head hinserted hut)).indexed
  exact .look (Store.requireRecordView_eq_ok hi (r := new.record stamp) (by simp)) trivial

theorem meetsKeys_updateRecord (hs : s.Sound) {changes : RecordChanges}
    (howns : s.Owns .records changes.recordId (.object changes.objectId))
    (hprepared : prepareValues (s.attributesOf (.object changes.objectId)) changes.values .update =
      .ok prepared) :
    MeetsKeys s (updateRecord stamp changes)
      (firstTaken? (s.values .records) changes.recordId prepared.sets) fun _ _ => True := by
  have happly := meetsKeys_applyValues hs.indexed howns hprepared
  cases htaken : firstTaken? (s.values .records) changes.recordId prepared.sets with
  | none =>
    rw [htaken] at happly
    obtain ⟨_, u, hrun, -⟩ := happly
    obtain ⟨view, hview⟩ : ∃ view, (updateRecord stamp changes).run s = .ok view _ :=
      (exists_run_updateRecord_iff hs).mpr ⟨howns, prepared, hprepared, u, hrun, rfl⟩
    exact ⟨view, _, hview, trivial⟩
  | some p =>
    rw [htaken] at happly
    obtain ⟨r, hr, hid, hobject⟩ := howns
    have hfound := Store.requireRecord_eq_ok_iff.mpr
      ⟨Store.record?_eq_some hs.indexed hr, (Parent.object.inj hobject).symm⟩
    rw [hid] at hfound
    exact .look hfound (.get (.liftM hprepared (.bind (.transaction (.bind happly)))))

theorem meetsKeys_updateEntry (hs : s.Sound) {id : Id} {given : List (String × Json)}
    {parent : Parent} (howns : s.Owns .entries id parent)
    (hprepared : prepareValues (s.attributesOf parent) given .update = .ok prepared) :
    MeetsKeys s (updateEntry stamp id given)
      (firstTaken? (s.values .entries) id prepared.sets) fun _ _ => True := by
  have happly := meetsKeys_applyValues hs.indexed howns hprepared
  cases htaken : firstTaken? (s.values .entries) id prepared.sets with
  | none =>
    rw [htaken] at happly
    obtain ⟨_, u, hrun, -⟩ := happly
    obtain ⟨view, hview⟩ : ∃ view, (updateEntry stamp id given).run s = .ok view _ :=
      (exists_run_updateEntry_iff hs).mpr ⟨parent, howns, prepared, hprepared, u, hrun, rfl⟩
    exact ⟨view, _, hview, trivial⟩
  | some p =>
    rw [htaken] at happly
    obtain ⟨e, he, rfl, rfl⟩ := howns
    obtain ⟨l, hl, -, -, hlid, -, -⟩ := hs.linked.entries e he
    have hfound := Store.requireEntry_eq_ok_iff.mpr (find?_of_pairwise_ne hs.indexed.entryIds he)
    have hlist := Store.requireList_eq_ok_iff.mpr (Store.list?_eq_some hs.indexed hl)
    rw [hlid] at hlist
    rw [← hlid] at hprepared
    exact .look hfound (.look hlist (.get (.liftM hprepared (.bind (.transaction (.bind happly))))))

theorem meetsKeys_addEntry (hs : s.Sound) {new : NewEntry} {l : RecordList} {r : Record}
    (hlist : l ∈ s.lists) (hlid : l.id = new.listId) (hrecord : r ∈ s.records)
    (hrid : r.id = new.recordId) (hobject : r.objectId = l.objectId)
    (hunlisted : s.isListed new.listId new.recordId = false)
    (hfresh : ∀ e ∈ s.entries, e.id ≠ stamp.fresh 0)
    (hprepared : prepareValues (s.attributesOf (.list new.listId)) new.values .create =
      .ok prepared) :
    MeetsKeys s (addEntry stamp new)
      (firstTaken? (s.values .entries) (stamp.fresh 0) prepared.sets) fun _ _ => True := by
  obtain ⟨listId, recordId, given, actor⟩ := new
  obtain rfl : l.id = listId := hlid
  obtain rfl : r.id = recordId := hrid
  set entry : Entry := ⟨stamp.fresh 0, l.id, r.id, stamp.now, actor, stamp.now⟩ with hentry
  have hapart : ∀ e ∈ s.entries, e.Apart entry := by
    refine fun e he => ⟨hfresh e he, fun hsame => ?_⟩
    have hlisted : s.isListed l.id r.id = true := List.any_eq_true.mpr
      ⟨e, List.mem_filter.mpr ⟨he, beq_iff_eq.mpr hsame.1⟩, beq_iff_eq.mpr hsame.2⟩
    exact Bool.false_ne_true (hunlisted.symm.trans hlisted)
  have hinserted : Store.Change s { s with entries := s.entries ++ [entry] } :=
    .insertEntry ⟨l, hlist, r, hrecord, rfl, rfl, hobject⟩ hapart
  have howns : Store.Owns { s with entries := s.entries ++ [entry] } .entries (stamp.fresh 0)
      (.list l.id) := ⟨_, List.mem_append_right _ (List.mem_singleton.mpr rfl), rfl, rfl⟩
  have hfound := Store.requireList_eq_ok_iff.mpr (Store.list?_eq_some hs.indexed hlist)
  have hthere := Store.requireAnyRecord_eq_ok_iff.mpr (Store.record?_eq_some hs.indexed hrecord)
  refine .later (.look hfound (.later (.look hthere (.later ⟨s, s, rfl, .later ?_⟩))))
  refine .liftM (require_eq_ok_iff.mpr hobject) (.later ?_)
  refine .liftM (require_eq_ok_iff.mpr (by simp [hunlisted])) (.later (.liftM hprepared (.bind ?_)))
  refine .transaction (.later (.write hapart ?_))
  refine (meetsKeys_applyValues (hs.changes (.single hinserted)).indexed howns hprepared).mono ?_
  rintro - t ⟨hut, rows, rfl⟩
  have ht := hs.changes (.head hinserted hut)
  obtain ⟨view, hview⟩ := Store.exists_requireEntryView_eq_ok ht.indexed ht.linked (l := l)
    (e := entry) (by simpa using hlist) (by simp [Store.entriesOf, hentry])
  exact .look hview trivial

/-- An assertion meets the keys that the call it comes to meets. -/
theorem meetsKeys_assertRecord (hs : s.Sound) {assertion : RecordAssertion} {a : Attribute}
    {cell : Cell} {w : ValueWrite} (hobject : ∃ o ∈ s.objects, o.id = assertion.objectId)
    (hmatching : matchingCell (s.attributesOf (.object assertion.objectId)) assertion =
      .ok (a, cell))
    (hcall : s.Writes stamp (assertion.call a (s.oldestWith? assertion.objectId a cell)) w) :
    MeetsKeys s (assertRecord stamp assertion)
      (firstTaken? (s.values w.table) w.owner w.prepared.sets) fun _ _ => True := by
  obtain ⟨o, ho⟩ := Store.exists_requireObject hobject
  refine .later (.look ho (.later ⟨s, s, rfl, .later (.liftM hmatching ?_)⟩))
  dsimp only
  cases holdest : s.oldestWith? assertion.objectId a cell with
  | none =>
    rw [holdest] at hcall
    cases hcall with
    | createRecord object fresh values => exact meetsKeys_createRecord hs object fresh values
  | some r =>
    rw [holdest] at hcall
    cases hcall with
    | updateRecord owns values => exact meetsKeys_updateRecord hs owns values

theorem meetsKeys_ofCall (hs : s.Sound) {call : Call} {w : ValueWrite}
    (hwrites : s.Writes stamp call w) (setup : Setup) :
    MeetsKeys s (ofCall setup stamp call)
      (firstTaken? (s.values w.table) w.owner w.prepared.sets) fun _ _ => True := by
  have answered : ∀ {α : Type} {x : Session α} {f : α → Answer} {taken : Option (Attribute × Cell)},
      MeetsKeys s x taken (fun _ _ => True) →
        MeetsKeys s (answering f x) taken fun _ _ => True :=
    fun hx => .bind (hx.mono fun _ _ _ => .pure trivial)
  cases hwrites with
  | createRecord object fresh values =>
    exact answered (meetsKeys_createRecord hs object fresh values)
  | updateRecord owns values => exact answered (meetsKeys_updateRecord hs owns values)
  | assertRecord object matching comesTo =>
    exact answered (meetsKeys_assertRecord hs object matching comesTo)
  | addEntry list listId record recordId object unlisted fresh values =>
    exact answered (meetsKeys_addEntry hs list listId record recordId object unlisted fresh values)
  | updateEntry owns values => exact answered (meetsKeys_updateEntry hs owns values)

end Session

namespace Store

variable {s : Store} {stamp : Stamp} {call : Call} {w : ValueWrite}

/-- A call that writes values and is in order otherwise succeeds just if none of their keys is
taken, and fails with the conflict of the first that is. -/
theorem perform_of_writes (hs : s.Sound) (hwrites : s.Writes stamp call w) (setup : Setup) :
    match firstTaken? (s.values w.table) w.owner w.prepared.sets with
    | none => ∃ answer t, s.perform setup stamp call = .ok (answer, t)
    | some p => s.perform setup stamp call = .error (.conflict (.valueInUse p.1.slug)) := by
  have hmeets := Session.meetsKeys_ofCall hs hwrites setup
  cases htaken : firstTaken? (s.values w.table) w.owner w.prepared.sets with
  | none =>
    rw [htaken] at hmeets
    obtain ⟨answer, t, hrun, -⟩ := hmeets
    exact ⟨answer, t, perform_eq_ok_iff.mpr hrun⟩
  | some p =>
    rw [htaken] at hmeets
    exact perform_eq_error_iff.mpr hmeets

/-- A record is created with the one value that is given for it, if nobody has its key. -/
theorem exists_perform_createRecord_one (hs : s.Sound) (setup : Setup) (stamp : Stamp)
    (objectId : Id) (actor : Option Id) {a : Attribute} {raw : Json} {cell : Cell}
    (hobject : ∃ o ∈ s.objects, o.id = objectId)
    (hfresh : ∀ r ∈ s.records, r.id ≠ stamp.fresh 0)
    (hattributes : s.attributesOf (.object objectId) = [a])
    (hcell : encodeValue a raw = .ok (some cell))
    (hshort : a.isUnique = true → cell.canonicalKey.length ≤ 255)
    (hfree : keyTaken s.recordValues (stamp.fresh 0) a.id (keyOf a cell) = false) : ∃ answer,
      s.perform setup stamp (.createRecord ⟨objectId, [(a.slug, raw)], actor⟩) = .ok (answer,
        { s with
          records := s.records ++ [⟨stamp.fresh 0, objectId, none, stamp.now, actor, stamp.now⟩]
          recordValues := s.recordValues ++ [newRow (stamp.fresh 0) (a, cell)] }) := by
  have hslugs := hs.indexed.slugs_attributesOf (.object objectId)
  have hprepares : Prepares (s.attributesOf (.object objectId)) (a.slug, raw) (a, some cell) := by
    refine ⟨hattributes ▸ List.mem_singleton.mpr rfl, rfl, hcell, fun hunique c hc => ?_⟩
    cases hc
    exact hshort hunique
  have hencoded := (encodeAll_eq_ok_iff hslugs).mpr (.cons hprepares .nil)
  have hprepared : prepareValues (s.attributesOf (.object objectId)) [(a.slug, raw)] .create =
      .ok ⟨[(a, cell)], []⟩ := by
    refine bind_eq_ok_iff.mpr ⟨_, hencoded, ?_⟩
    have hset : [a].find? (fun b => b.isRequired && !([(a, cell)].any fun p => p.1.id == b.id)) =
        none := by simp
    rw [hattributes]
    dsimp only [List.filterMap_cons, List.filterMap_nil, Option.map_some]
    rw [hset]
    rfl
  have hwrites : s.Writes stamp (.createRecord ⟨objectId, [(a.slug, raw)], actor⟩) _ :=
    .createRecord hobject hfresh hprepared
  have hperform := perform_of_writes hs hwrites setup
  have hnone : firstTaken? (s.values .records) (stamp.fresh 0) [(a, cell)] = none :=
    firstTaken?_eq_none_iff.mpr (List.forall_mem_singleton.mpr hfree)
  dsimp only at hperform
  rw [hnone] at hperform
  obtain ⟨answer, t, hok⟩ := hperform
  obtain ⟨view, hrun, -⟩ := (perform_answering_eq_ok_iff rfl).mp hok
  obtain ⟨encoded, hencoded', -, rfl, -⟩ :=
    Session.of_run_createRecord_eq_ok hs (List.pairwise_singleton _ _) hrun
  cases hencoded.symm.trans ((encodeAll_eq_ok_iff hslugs).mpr hencoded')
  refine ⟨answer, hok.trans ?_⟩
  rw [rewritten, replaceRows_of_ne (hs.owner_ne hfresh)]
  rfl

end Store

end RecordStore
