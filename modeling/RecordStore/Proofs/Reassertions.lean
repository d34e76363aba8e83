import RecordStore.Proofs.Assertions

/-!
# Records asserted again

Whoever repeats an assertion wants no second record. If an assertion gives no other value for the
attribute that it goes by, its record is the oldest that is known by its key afterwards, and any
other assertion by that key is about the same record. An assertion may however give another value
there: then its record is not known by what the assertion goes by, and when it is made again it
makes another record.
-/

namespace RecordStore.Store

variable {s t : Store} {a : Attribute} {cell : Cell} {setup : Setup} {stamp : Stamp}

/-! ### Conflicts -/

section

variable {assertion : RecordAssertion}

/-- An assertion that fails with a conflict needs an id that is in use, or meets somebody else in
the key of a value. -/
theorem conflict_of_assertRecord (hi : s.Indexed)
    (hmatch : Session.matchingCell (s.attributesOf (.object assertion.objectId)) assertion =
      .ok (a, cell)) {c : Conflict}
    (hfail : s.perform setup stamp (.assertRecord assertion) = .error (.conflict c)) :
    (c = .uniqueIndex ∧ ∃ r ∈ s.records, r.id = stamp.fresh 0) ∨
      ∃ owner, (∀ r, s.oldestWith? assertion.objectId a cell = some r → owner = r.id) ∧
        Clashes (s.attributesOf (.object assertion.objectId)) (assertion.merged a.slug) owner
          s.recordValues c := by
  obtain ⟨t, hrun⟩ := perform_eq_error_iff.mp hfail
  have hassert : (Session.assertRecord stamp assertion).run s = .error (.conflict c) t := by
    rcases Session.run_bind_eq_error.mp hrun with hrun | ⟨_, u, -, hpure⟩
    · exact hrun
    · cases hpure
  have hupsert := Session.run_upsert_of_eq_conflict hmatch hassert
  cases holdest : s.oldestWith? assertion.objectId a cell with
  | none =>
    rw [holdest] at hupsert
    rcases Session.clashes_of_run_createRecord hi hupsert with hused | hclashes
    · exact .inl hused
    · exact .inr ⟨stamp.fresh 0, nofun, hclashes⟩
  | some r =>
    rw [holdest] at hupsert
    exact .inr ⟨r.id, fun q hq => by rw [Option.some.inj hq],
      Session.clashes_of_run_updateRecord hi hupsert⟩

/-- A conflict that has nothing to do with the value that an assertion goes by: an id that is in
use, or the value of an attribute that is named otherwise. -/
def MeetsOthers (s : Store) (assertion : RecordAssertion) (stamp : Stamp) (c : Conflict) : Prop :=
  (c = .uniqueIndex ∧ ∃ r ∈ s.records, r.id = stamp.fresh 0) ∨
    ∃ g ∈ assertion.values, c = .valueInUse g.1

/-- Values of an attribute are read back as they were written. -/
def ReadsBackValues (s : Store) (attributeId : Id) : Prop :=
  ∀ row ∈ s.recordValues, row.attributeId = attributeId → row.cell.kept = row.cell

/-- The key beside a value of a unique attribute is that of the value as it is read back. -/
theorem Reachable.uniqueKey_eq (h : s.Reachable) {parent : Parent} (ha : a ∈ s.attributesOf parent)
    (hunique : a.isUnique = true) (hkept : s.ReadsBackValues a.id) {row : ValueRow}
    (hrow : row ∈ s.recordValues) (hid : row.attributeId = a.id) :
    row.uniqueKey = some row.cell.kept.canonicalKey := by
  obtain ⟨⟨head, hhead, rfl⟩, -⟩ := has_of_mem_attributesOf ha
  obtain ⟨key, hkey, -, hcell⟩ := (h.fitting .records row hrow head hhead hid.symm).keyed hunique
  rw [hkept row hrow hid, or_self] at hcell
  rw [hkey, hcell, hkept row hrow hid]

/-- Whoever has the key of a unique attribute is known by it. -/
theorem Reachable.exists_knownBy (h : s.Reachable) {objectId : Id}
    (ha : a ∈ s.attributesOf (.object objectId)) (hunique : a.isUnique = true)
    (hkept : s.ReadsBackValues a.id) {row : ValueRow} (hrow : row ∈ s.recordValues)
    (hid : row.attributeId = a.id) {key : String} (hkey : row.uniqueKey = some key) :
    ∃ r, s.KnownBy objectId a.id key r := by
  have hrowkey := h.uniqueKey_eq ha hunique hkept hrow hid
  obtain ⟨⟨head, hhead, rfl⟩, hparent⟩ := has_of_mem_attributesOf ha
  obtain ⟨b, hb, hbid, r, hr, howner, hobject⟩ := h.sound.linked.values .records row hrow
  obtain rfl : b = head :=
    eq_of_pairwise_ne h.sound.indexed.attributeIds hb hhead (hbid.trans hid)
  refine ⟨r, hr, ?_, row, hrow, ValueRow.isFor_iff.mpr ⟨howner.symm, hid⟩, ?_⟩
  · exact (Parent.object.inj (hparent.symm.trans hobject)).symm
  · exact Option.some.inj (hrowkey.symm.trans hkey)

/-- Whoever has the key of a cell of a unique attribute is found by the cell. -/
theorem Reachable.exists_oldestWith? (h : s.Reachable) {objectId : Id}
    (ha : a ∈ s.attributesOf (.object objectId)) (hunique : a.isUnique = true)
    (hkept : s.ReadsBackValues a.id) {row : ValueRow} (hrow : row ∈ s.values .records)
    (hid : row.attributeId = a.id) (hkey : row.uniqueKey = some cell.canonicalKey) :
    ∃ r, s.oldestWith? objectId a cell = some r ∧ row.owner = r.id := by
  cases holdest : s.oldestWith? objectId a cell with
  | none =>
    obtain ⟨q, hq⟩ := h.exists_knownBy ha hunique hkept hrow hid hkey
    exact absurd hq ((h.oldestWith?_eq_none_iff ha).mp holdest q)
  | some r =>
    -- what is found has the key in a row of its own, and no two owners have one key
    obtain ⟨-, -, other, hother, hfor, hotherkey⟩ :=
      ((h.oldestWith?_eq_some_iff ha).mp holdest).toKnownBy
    obtain ⟨howner, hotherid⟩ := ValueRow.isFor_iff.mp hfor
    have hkey' := h.uniqueKey_eq ha hunique hkept hother hotherid
    rw [hotherkey] at hkey'
    refine ⟨r, rfl, ?_⟩
    rw [← howner]
    exact h.sound.indexed.owner_eq hrow hother (hid.trans hotherid.symm) hkey hkey'

/-- The value that an assertion goes by is in nobody's way: whoever has its key is the one who is
changed. -/
theorem Reachable.meetsOthers (h : s.Reachable)
    (hmatch : Session.matchingCell (s.attributesOf (.object assertion.objectId)) assertion =
      .ok (a, cell)) (hunnamed : ∀ g ∈ assertion.values, g.1 ≠ a.slug)
    (hkept : s.ReadsBackValues a.id) {c : Conflict}
    (hfail : s.perform setup stamp (.assertRecord assertion) = .error (.conflict c)) :
    s.MeetsOthers assertion stamp c := by
  obtain ⟨ha, -, hcell⟩ := Session.of_matchingCell hmatch
  rcases conflict_of_assertRecord h.sound.indexed hmatch hfail with hused | ⟨owner, howner, hclashes⟩
  · exact .inl hused
  obtain ⟨g, hg, rfl, b, hb, hslug, hunique, d, hd, row, hrow, hid, hkey, hother⟩ := hclashes
  rcases List.mem_cons.mp ((RecordAssertion.merged_perm hunnamed).mem_iff.mp hg) with rfl | hg
  · obtain rfl : a = b :=
      (eq_of_pairwise_ne (h.sound.indexed.slugs_attributesOf _) hb ha hslug).symm
    cases hcell.symm.trans hd
    obtain ⟨r, hr, hrow'⟩ := h.exists_oldestWith? ha hunique hkept hrow hid hkey
    exact absurd (hrow'.trans (howner r hr).symm) hother
  · exact .inr ⟨g, hg, rfl⟩

end

/-! ### Two assertions by one key -/

section

variable {u : Store} {first second : RecordAssertion} {cell' : Cell} {r r' : Record}
  {now now' : Timestamp}

/-- An assertion goes by a cell of an attribute, and gives no other value for that. -/
structure GoesBy (s : Store) (assertion : RecordAssertion) (a : Attribute) (cell : Cell) :
    Prop where
  matching : Session.matchingCell (s.attributesOf (.object assertion.objectId)) assertion =
    .ok (a, cell)
  distinct : assertion.values.Pairwise fun g g' => g.1 ≠ g'.1
  unnamed : ∀ g ∈ assertion.values, g.1 ≠ a.slug

namespace Asserted

/-- After an assertion whose value is read back as it was written, its record is the oldest that is
known by that. -/
theorem oldest (h : s.Asserted first a cell now r t) (hi : s.Indexed) (hi' : t.Indexed)
    (hby : s.GoesBy first a cell) (hcell : cell.kept = cell) :
    t.Oldest first.objectId a.id cell.canonicalKey r := by
  obtain ⟨ha, -, hencoded⟩ := Session.of_matchingCell hby.matching
  refine h.oldest_self hi' ((h.knownBy_self_iff hi ha).mpr ⟨cell, ?_, by rw [hcell]⟩)
  rw [RecordAssertion.own_of_unnamed hby.unnamed, hencoded]

theorem readsBackValues (h : s.Asserted first a cell now r t) (hby : s.GoesBy first a cell)
    (hkept : s.ReadsBackValues a.id) (hcell : cell.kept = cell) : t.ReadsBackValues a.id := by
  obtain ⟨ha, -, hencoded⟩ := Session.of_matchingCell hby.matching
  have hown := first.own_mem_merged a.slug
  rw [RecordAssertion.own_of_unnamed hby.unnamed] at hown
  intro row hrow hid
  by_cases howner : row.owner = r.id
  · have hnew := (h.written.set _ hown a ha rfl cell hencoded row).mp
      ⟨hrow, ValueRow.isFor_iff.mpr ⟨howner, hid⟩⟩
    rw [hnew]
    exact hcell
  · refine hkept row ((h.written.others row fun _ _ b _ _ => ?_).mp hrow) hid
    exact Bool.eq_false_iff.mpr fun hfor => howner (ValueRow.isFor_iff.mp hfor).1

end Asserted

/-- An assertion by the key that the one before it went by changes the record that is the oldest
known by it, and leaves what only the one before has named. -/
theorem Asserted.again (h : s.Asserted first a cell now r t)
    (h' : t.Asserted second a cell' now' r' u) (hs : s.Indexed) (ht : t.Indexed)
    (hfirst : s.GoesBy first a cell) (hsecond : s.GoesBy second a cell')
    (hobject : second.objectId = first.objectId) (hkey : cell'.canonicalKey = cell.canonicalKey)
    (hcell : cell.kept = cell) :
    r'.id = r.id ∧ u.records = (t.touched .records r.id now').records ∧
      (∀ g ∈ second.values, ∃ p, Prepares (s.attributesOf (.object first.objectId)) g p) ∧
      Holds (s.attributesOf (.object first.objectId))
        ((a.slug, second.matchingValue) :: second.values) r.id u.recordValues ∧
      Holds (s.attributesOf (.object first.objectId))
        (first.values.filter fun g => (second.values.lookup g.1).isNone) r.id u.recordValues := by
  have holdest := h.oldest hs ht hfirst hcell
  have hwritten := h'.written
  have htaken := h'.taken
  have hupserts := h'.upserts
  have hmerged := fun g => (RecordAssertion.merged_perm hsecond.unnamed).mem_iff (a := g)
  rw [h.attributes, hobject] at hwritten htaken
  rw [hobject, hkey] at hupserts
  cases hupserts with
  | created unknown => exact absurd holdest.toKnownBy (unknown _)
  | changed oldest same records =>
    rw [← holdest.eq ht oldest] at same records
    rw [same] at hwritten
    refine ⟨same, records, fun g hg => ?_, hwritten.toHolds.mono fun g => (hmerged g).mpr, ?_⟩
    · exact htaken g ((hmerged g).mpr (List.mem_cons_of_mem _ hg))
    refine hwritten.holds (hs.ids_attributesOf _) (fun g hg g' hg' => ?_)
      (h.written.toHolds.mono fun g hg => ?_)
    · obtain ⟨hg, hnone⟩ := List.mem_filter.mp hg
      rcases List.mem_cons.mp ((hmerged g').mp hg') with rfl | hg'
      · exact hfirst.unnamed g hg
      · have hlookup := List.lookup_eq_none_iff.mp (Option.isNone_iff_eq_none.mp hnone) g' hg'
        simpa using hlookup
    · exact (RecordAssertion.merged_perm hfirst.unnamed).mem_iff.mpr
        (List.mem_cons_of_mem _ (List.mem_filter.mp hg).1)

/-- Two assertions by one key are about one record. The first creates it if no record is known by
the key, and otherwise changes the oldest one that is; the second changes the same record. What the
second names is stored as it says, what only the first names as the first said, and neither meets a
conflict in the value that it goes by. -/
theorem perform_assertRecord_twice (h : s.Reachable) (hfirst : s.GoesBy first a cell)
    (hsecond : s.GoesBy second a cell') (hobject : second.objectId = first.objectId)
    (hkey : cell'.canonicalKey = cell.canonicalKey) (hkept : s.ReadsBackValues a.id)
    (hcell : cell.kept = cell) (setup setup' : Setup) (stamp stamp' : Stamp) :
    (∀ c, s.perform setup stamp (.assertRecord first) = .error (.conflict c) →
      s.MeetsOthers first stamp c) ∧
    ∀ view t, s.perform setup stamp (.assertRecord first) = .ok (.record view, t) →
      s.Upserts first.objectId a.id cell.canonicalKey stamp.now view.record t ∧
      (∀ c, t.perform setup' stamp' (.assertRecord second) = .error (.conflict c) →
        t.MeetsOthers second stamp' c) ∧
      ∀ view' u, t.perform setup' stamp' (.assertRecord second) = .ok (.record view', u) →
        view'.record.id = view.record.id ∧
        u.records = (t.touched .records view.record.id stamp'.now).records ∧
        (∀ g ∈ second.values, ∃ p, Prepares (s.attributesOf (.object first.objectId)) g p) ∧
        Holds (s.attributesOf (.object first.objectId))
          ((a.slug, second.matchingValue) :: second.values) view.record.id u.recordValues ∧
        Holds (s.attributesOf (.object first.objectId))
          (first.values.filter fun g => (second.values.lookup g.1).isNone) view.record.id
          u.recordValues := by
  refine ⟨fun c hfail => h.meetsOthers hfirst.matching hfirst.unnamed hkept hfail,
    fun view t hok => ?_⟩
  have ht := h.perform hok
  have hdone := h.asserted hfirst.matching hfirst.distinct hok
  have hmatch : Session.matchingCell (t.attributesOf (.object second.objectId)) second =
      .ok (a, cell') := by rw [hdone.attributes, hsecond.matching]
  refine ⟨hdone.upserts, fun c hfail => ?_, fun view' u hok' => ?_⟩
  · exact ht.meetsOthers hmatch hsecond.unnamed (hdone.readsBackValues hfirst hkept hcell) hfail
  · exact hdone.again (ht.asserted hmatch hsecond.distinct hok') h.sound.indexed ht.sound.indexed
      hfirst hsecond hobject hkey hcell

end

/-- Asserts that a deal is won, and by whom. -/
def winning : RecordAssertion :=
  ⟨exampleId 0 0, "won", .bool true, [("who", .str "B")], none⟩

/-- Asserts once more that it is won, in other words. -/
def winningAgain : RecordAssertion := ⟨exampleId 0 0, "won", .str "TRUE", [], none⟩

def exampleWon : Attribute :=
  ⟨⟨exampleId 1 0, .object (exampleId 0 0), "won", "Won", .checkbox, .obj [], false, false, true,
    false, 0, ⟨1⟩⟩, [], []⟩

def winningStep (step : UInt8) (assertion : RecordAssertion) : Step :=
  exampleStep step (.assertRecord assertion)

theorem exists_perform_winning :
    ∃ view t, exampleNamed.perform (winningStep 8 winning).setup (winningStep 8 winning).stamp
        (.assertRecord winning) = .ok (.record view, t) ∧
      t.records.map (·.id) = [exampleId 2 0, exampleId 3 0] ∧
      ∃ view' u, t.perform (winningStep 9 winningAgain).setup (winningStep 9 winningAgain).stamp
        (.assertRecord winningAgain) = .ok (.record view', u) :=
  ⟨_, _, by cbv, by cbv, _, _, by cbv⟩

/-- The deal that is won already is changed twice, and keeps the name that the first assertion
gives. -/
theorem perform_winning_twice :
    exampleNamed.Reachable ∧ exampleNamed.GoesBy winning exampleWon (.boolean true) ∧
      exampleNamed.GoesBy winningAgain exampleWon (.boolean true) ∧
      exampleNamed.ReadsBackValues exampleWon.id ∧
      ∃ view t view' u, exampleNamed.perform (winningStep 8 winning).setup
          (winningStep 8 winning).stamp (.assertRecord winning) = .ok (.record view, t) ∧
        t.perform (winningStep 9 winningAgain).setup (winningStep 9 winningAgain).stamp
          (.assertRecord winningAgain) = .ok (.record view', u) ∧
        view'.record.id = view.record.id ∧
        Holds (exampleNamed.attributesOf (.object (exampleId 0 0))) [("who", .str "B")]
          view.record.id u.recordValues := by
  have hfirst : exampleNamed.GoesBy winning exampleWon (.boolean true) :=
    ⟨by cbv, List.pairwise_singleton _ _, by decide⟩
  have hsecond : exampleNamed.GoesBy winningAgain exampleWon (.boolean true) :=
    ⟨by cbv, .nil, fun _ hg => absurd hg List.not_mem_nil⟩
  have hkept : exampleNamed.ReadsBackValues exampleWon.id := by
    intro row hrow hid
    rcases List.mem_append.mp hrow with hrow | hrow
    · rcases List.mem_pair.mp hrow with rfl | rfl <;> rfl
    · rw [List.mem_singleton.mp hrow] at hid
      exact absurd hid (by decide)
  obtain ⟨view, t, hok, -, view', u, hok'⟩ := exists_perform_winning
  obtain ⟨-, hall⟩ := perform_assertRecord_twice reachable_exampleNamed hfirst hsecond rfl rfl
    hkept rfl (winningStep 8 winning).setup (winningStep 9 winningAgain).setup
    (winningStep 8 winning).stamp (winningStep 9 winningAgain).stamp
  obtain ⟨-, -, htwice⟩ := hall view t hok
  obtain ⟨hsame, -, -, -, hkeeps⟩ := htwice view' u hok'
  exact ⟨reachable_exampleNamed, hfirst, hsecond, hkept, view, t, view', u, hok, hok', hsame,
    hkeeps⟩

/-! ### One assertion again and again -/

section

variable {assertion : RecordAssertion} {r : Record} {now : Timestamp}

/-- Where a record is known by what an assertion goes by, the assertion creates none. -/
theorem Asserted.map_id (h : s.Asserted assertion a cell now r t)
    (hknown : ∃ q, s.KnownBy assertion.objectId a.id cell.canonicalKey q) :
    t.records.map (·.id) = s.records.map (·.id) := by
  cases h.upserts with
  | created unknown =>
    obtain ⟨q, hq⟩ := hknown
    exact absurd hq (unknown q)
  | changed _ _ records =>
    rw [records, touched, List.map_map]
    refine List.map_congr_left fun q _ => ?_
    rw [Function.comp_apply]
    split <;> rfl

/-- One more assertion creates no record where one is known by what it goes by, and one still is, if
the assertion restates it. -/
theorem Reachable.after_assertRecord (h : s.Reachable)
    (hmatch : Session.matchingCell (s.attributesOf (.object assertion.objectId)) assertion =
      .ok (a, cell)) (hdistinct : assertion.values.Pairwise fun g g' => g.1 ≠ g'.1)
    (hrestates : assertion.Restates a cell)
    (hknown : ∃ q, s.KnownBy assertion.objectId a.id cell.canonicalKey q) (setup : Setup)
    (stamp : Stamp) (ht : s.after setup stamp (.assertRecord assertion) = t) :
    t.attributesOf = s.attributesOf ∧ t.records.map (·.id) = s.records.map (·.id) ∧
      ∃ q, t.KnownBy assertion.objectId a.id cell.canonicalKey q := by
  cases hperform : s.perform setup stamp (.assertRecord assertion) with
  | error e =>
    rw [after_eq_of_perform_eq_error h hperform] at ht
    exact ht ▸ ⟨rfl, rfl, hknown⟩
  | ok result =>
    obtain ⟨answer, u⟩ := result
    obtain ⟨view, hrun, rfl⟩ := (perform_answering_eq_ok_iff rfl).mp hperform
    have hu : u = t := by rw [← ht, after, perform_eq_ok_iff.mp hperform]
    subst hu
    have hdone := h.asserted hmatch hdistinct hperform
    obtain ⟨ha, -, -⟩ := Session.of_matchingCell hmatch
    exact ⟨hdone.attributes, hdone.map_id hknown, view.record,
      (hdone.knownBy_self_iff h.sound.indexed ha).mpr hrestates⟩

/-- An assertion that restates what it goes by creates no record, however often it is made, once
one is known by that. -/
theorem Reachable.map_id_run (h : s.Reachable)
    (hmatch : Session.matchingCell (s.attributesOf (.object assertion.objectId)) assertion =
      .ok (a, cell)) (hdistinct : assertion.values.Pairwise fun g g' => g.1 ≠ g'.1)
    (hrestates : assertion.Restates a cell)
    (hknown : ∃ q, s.KnownBy assertion.objectId a.id cell.canonicalKey q) {steps : List Step}
    (hsteps : ∀ step ∈ steps, step.call = .assertRecord assertion) :
    (s.run steps).records.map (·.id) = s.records.map (·.id) := by
  induction steps generalizing s with
  | nil => rfl
  | cons step rest ih =>
    obtain ⟨hcall, hrest⟩ := List.forall_mem_cons.mp hsteps
    have hreach : (s.after step.setup step.stamp step.call).Reachable := h.run [step]
    obtain ⟨hattributes, hids, hknown'⟩ := h.after_assertRecord hmatch hdistinct hrestates hknown
      step.setup step.stamp (congrArg (s.after step.setup step.stamp) hcall.symm)
    rw [← hattributes] at hmatch
    rw [← hids]
    exact ih hreach hmatch hknown' hrest

/-- An assertion that has succeeded can be made any number of times and creates no other record, if
the value that it writes under the name that it goes by has the key that it goes by: then, and only
then, its record is known by that. Where no record is known by it, the same assertion creates
another. -/
theorem run_assertRecord_again (h : s.Reachable)
    (hmatch : Session.matchingCell (s.attributesOf (.object assertion.objectId)) assertion =
      .ok (a, cell)) (hdistinct : assertion.values.Pairwise fun g g' => g.1 ≠ g'.1)
    {view : RecordView}
    (hok : s.perform setup stamp (.assertRecord assertion) = .ok (.record view, t)) :
    (t.KnownBy assertion.objectId a.id cell.canonicalKey view.record ↔
      assertion.Restates a cell) ∧
    (assertion.Restates a cell → ∀ steps : List Step,
      (∀ step ∈ steps, step.call = .assertRecord assertion) →
        (t.run steps).records.map (·.id) = t.records.map (·.id)) ∧
    ((∀ q, ¬ t.KnownBy assertion.objectId a.id cell.canonicalKey q) →
      ∀ setup' stamp' view' u,
        t.perform setup' stamp' (.assertRecord assertion) = .ok (.record view', u) →
          u.records = t.records ++ [view'.record]) := by
  have ht := h.perform hok
  have hdone := h.asserted hmatch hdistinct hok
  obtain ⟨ha, -, -⟩ := Session.of_matchingCell hmatch
  have hknown : t.KnownBy assertion.objectId a.id cell.canonicalKey view.record ↔
      assertion.Restates a cell := hdone.knownBy_self_iff h.sound.indexed ha
  rw [← hdone.attributes] at hmatch
  refine ⟨hknown, fun hrestates steps hsteps => ?_, fun hunknown setup' stamp' view' u hok' => ?_⟩
  · have hsome : ∃ q, t.KnownBy assertion.objectId a.id cell.canonicalKey q :=
      ⟨_, hknown.mpr hrestates⟩
    exact ht.map_id_run hmatch hdistinct hrestates hsome hsteps
  · cases (ht.asserted hmatch hdistinct hok').upserts with
    | created _ _ _ records => exact records
    | changed oldest => exact absurd oldest.toKnownBy (hunknown _)

end

/-- The deal that is won already stays the only one, however often it is asserted. -/
theorem run_winning_again :
    exampleNamed.Reachable ∧ winning.Restates exampleWon (.boolean true) ∧
      ∃ view t, exampleNamed.perform (winningStep 8 winning).setup (winningStep 8 winning).stamp
          (.assertRecord winning) = .ok (.record view, t) ∧
        ∀ steps : List Step, (∀ step ∈ steps, step.call = .assertRecord winning) →
          (t.run steps).records.map (·.id) = [exampleId 2 0, exampleId 3 0] := by
  have hmatch : Session.matchingCell (exampleNamed.attributesOf (.object winning.objectId))
      winning = .ok (exampleWon, .boolean true) := by cbv
  have hrestates : winning.Restates exampleWon (.boolean true) := ⟨.boolean true, by cbv, rfl⟩
  obtain ⟨view, t, hok, hids, -⟩ := exists_perform_winning
  obtain ⟨-, hagain, -⟩ :=
    run_assertRecord_again reachable_exampleNamed hmatch (List.pairwise_singleton _ _) hok
  refine ⟨reachable_exampleNamed, hrestates, view, t, hok, fun steps hsteps => ?_⟩
  rw [hagain hrestates steps hsteps, hids]

/-- Asserts a deal by one name and gives it another. -/
def misnaming : RecordAssertion :=
  ⟨exampleId 0 0, "who", .str "X", [("who", .str "Y")], none⟩

def misnamingStep (step : UInt8) : Step := exampleStep step (.assertRecord misnaming)

/-- Made once more, the same assertion makes another deal. -/
theorem length_run_misnaming :
    exampleNamed.Reachable ∧ ∃ answer t, exampleNamed.perform (misnamingStep 8).setup
        (misnamingStep 8).stamp (.assertRecord misnaming) = .ok (answer, t) ∧
      (t.run [misnamingStep 9]).records.length = t.records.length + 1 :=
  ⟨reachable_exampleNamed, _, _, by cbv, by cbv⟩

end RecordStore.Store
