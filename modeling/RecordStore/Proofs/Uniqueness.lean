import Mathlib
import RecordStore.Proofs.KeyedWrites

/-!
# Uniqueness switched on and off

When an attribute becomes unique, its values get their keys one after the other. Each key is held
against those given out before it, and the unique index holds it against all rows, whether they are
done or not. Main statement: as none of them has a key beforehand, the values alone decide whether
this succeeds, in whatever order they are visited; and nobody is given a value that somebody else
has as long as the attribute is unique, and no longer.
-/

namespace RecordStore

/-! ### Values that differ -/

/-- Rows whose values have different keys, all of them short enough to be stored. -/
structure Distinct (rows : List ValueRow) : Prop where
  nodup : (rows.map fun r => r.cell.canonicalKey).Nodup
  short : ∀ row ∈ rows, row.cell.canonicalKey.length ≤ 255

theorem Distinct.perm {rows rows' : List ValueRow} (h : Distinct rows) (hperm : rows.Perm rows') :
    Distinct rows' :=
  ⟨(hperm.map _).nodup_iff.mp h.nodup, fun row hrow => h.short row (hperm.mem_iff.mpr hrow)⟩

theorem distinct_nil : Distinct [] := ⟨.nil, fun _ h => by cases h⟩

theorem distinct_cons_iff {row : ValueRow} {rest : List ValueRow} :
    Distinct (row :: rest) ↔ row.cell.canonicalKey.length ≤ 255 ∧
      (∀ r ∈ rest, r.cell.canonicalKey ≠ row.cell.canonicalKey) ∧ Distinct rest := by
  constructor
  · rintro ⟨hnodup, hshort⟩
    obtain ⟨hrow, hrest⟩ := List.forall_mem_cons.mp hshort
    rw [List.map_cons, List.nodup_cons, List.mem_map, not_exists] at hnodup
    exact ⟨hrow, fun r hr heq => hnodup.1 r ⟨hr, heq⟩, hnodup.2, hrest⟩
  · rintro ⟨hrow, hnew, hnodup, hshort⟩
    refine ⟨?_, List.forall_mem_cons.mpr ⟨hrow, hshort⟩⟩
    rw [List.map_cons, List.nodup_cons, List.mem_map]
    exact ⟨fun ⟨r, hr, heq⟩ => hnew r hr heq, hnodup⟩

/-- The values of an attribute among rows. -/
def valuesOf (id : Id) (rows : List ValueRow) : List ValueRow :=
  rows.filter fun r => r.attributeId == id

theorem mem_valuesOf {id : Id} {rows : List ValueRow} {r : ValueRow} :
    r ∈ valuesOf id rows ↔ r ∈ rows ∧ r.attributeId = id := by
  rw [valuesOf, List.mem_filter, beq_iff_eq]

namespace Session

variable {s : Store} {table : ValueTable} {a : Attribute} {seen : List String}
  {rest : List ValueRow}

/-! ### Giving out keys -/

/-- If rows get their keys, these are different, short and new. -/
theorem yields_distinct_rekeyRows (hread : ∀ r ∈ rest, r.read? a.toAttributeHead = some r.cell) :
    Yields s (rekeyRows table a seen rest) fun _ _ =>
      Distinct rest ∧ ∀ r ∈ rest, r.cell.canonicalKey ∉ seen := by
  induction rest generalizing s seen with
  | nil => exact .pure ⟨distinct_nil, fun r hr => by cases hr⟩
  | cons row rest ih =>
    obtain ⟨hrow, hothers⟩ := List.forall_mem_cons.mp hread
    rw [rekeyRows, hrow]
    refine .liftM fun key hkey => .liftM fun _ hunseen => .bind (.write fun _ => ?_)
    obtain ⟨hshort, rfl⟩ := uniqueKeyOf_eq_ok.mp hkey
    refine (ih hothers).mono ?_
    rintro - - ⟨hdistinct, hnew⟩
    refine ⟨distinct_cons_iff.mpr ⟨hshort, fun r hr heq => ?_, hdistinct⟩,
      List.forall_mem_cons.mpr ⟨require_eq_ok_iff.mp hunseen, fun r hr hmem => ?_⟩⟩
    · exact hnew r hr (heq ▸ List.mem_cons_self)
    · exact hnew r hr (List.mem_cons_of_mem _ hmem)

/-- The keys that rows of an attribute have are all among those seen. -/
def NoneStale (id : Id) (seen : List String) (rows : List ValueRow) : Prop :=
  ∀ r ∈ rows, r.attributeId = id → ∀ key, r.uniqueKey = some key → key ∈ seen

theorem NoneStale.keyRow {id owner : Id} {rows : List ValueRow} (h : NoneStale id seen rows)
    (key : String) : NoneStale id (key :: seen) (keyRow owner id (some key) rows) := by
  intro r hr hid k hk
  obtain ⟨q, hq, rfl⟩ := List.mem_map.mp hr
  by_cases hfor : q.isFor owner id = true
  · rw [if_pos hfor] at hk
    cases hk
    exact List.mem_cons_self
  · rw [if_neg hfor] at hid hk
    exact List.mem_cons_of_mem _ (h q hq hid k hk)

/-- Where no stale key is in the way, rows get their keys if these are different, short and new. -/
theorem succeeds_rekeyRows (hread : ∀ r ∈ rest, r.read? a.toAttributeHead = some r.cell)
    (hstale : NoneStale a.id seen (s.values table)) (hdistinct : Distinct rest)
    (hnew : ∀ r ∈ rest, r.cell.canonicalKey ∉ seen) :
    Succeeds s (rekeyRows table a seen rest) fun _ _ => True := by
  induction rest generalizing s seen with
  | nil => exact .pure trivial
  | cons row rest ih =>
    obtain ⟨hrow, hothers⟩ := List.forall_mem_cons.mp hread
    obtain ⟨hunseen, hnew⟩ := List.forall_mem_cons.mp hnew
    obtain ⟨hshort, hfirst, hdistinct⟩ := distinct_cons_iff.mp hdistinct
    have hfree : keyTaken (s.values table) row.owner a.id (some row.cell.canonicalKey) = false := by
      refine keyTaken_eq_false_iff.mpr fun k hk r hr hid hkey => absurd ?_ hunseen
      rw [Option.some.inj hk]
      exact hstale r hr hid k hkey
    rw [rekeyRows, hrow]
    refine .bind (.liftM (uniqueKeyOf_eq_ok.mpr ⟨hshort, rfl⟩) (.bind ?_))
    refine .liftM (require_eq_ok_iff.mpr hunseen) (.bind (.write hfree ?_))
    refine ih hothers ?_ hdistinct fun r hr hmem => ?_
    · rw [Store.values_setValues]
      exact hstale.keyRow _
    · rcases List.mem_cons.mp hmem with heq | hmem
      · exact hfirst r hr heq
      · exact hnew r hr hmem

/-- In whatever order the values of an attribute are visited, they get their keys just if these are
different and short. -/
theorem exists_run_rekeyRows_iff
    (hread : ∀ r ∈ s.values table, r.attributeId = a.id → r.read? a.toAttributeHead = some r.cell)
    (hunkeyed : ∀ r ∈ s.values table, r.attributeId = a.id → r.uniqueKey = none)
    {visited : List ValueRow} (hvisited : visited.Perm (valuesOf a.id (s.values table))) :
    (∃ t, (rekeyRows table a [] visited).run s = .ok () t) ↔
      Distinct (valuesOf a.id (s.values table)) := by
  have hvisible : ∀ r ∈ visited, r.read? a.toAttributeHead = some r.cell := by
    intro r hr
    obtain ⟨hr, hid⟩ := mem_valuesOf.mp (hvisited.mem_iff.mp hr)
    exact hread r hr hid
  constructor
  · rintro ⟨t, hrun⟩
    exact (yields_distinct_rekeyRows hvisible hrun).1.perm hvisited
  · intro hdistinct
    have hstale : NoneStale a.id [] (s.values table) := by
      intro r hr hid key hkey
      rw [hunkeyed r hr hid] at hkey
      cases hkey
    obtain ⟨_, t, hrun, -⟩ := succeeds_rekeyRows hvisible hstale (hdistinct.perm hvisited.symm)
      fun _ _ => List.not_mem_nil
    exact ⟨t, hrun⟩

end Session

/-! ### Switching -/

/-- An attribute that is unique or not, and otherwise as it is. -/
def Attribute.switched (a : Attribute) (isUnique : Bool) : Attribute :=
  { a with toAttributeHead := { a.toAttributeHead with isUnique } }

/-- A row without its key. -/
def ValueRow.bare (row : ValueRow) : ValueRow := { row with uniqueKey := none }

/-- Asks for an attribute to be unique or not, and for nothing else. -/
def AttributeChanges.ofUniqueness (isUnique : Bool) : AttributeChanges :=
  ⟨none, none, none, none, none, some isUnique, none, none⟩

namespace Store

variable {s t : Store} {a : Attribute} {setup : Setup} {stamp : Stamp}

/-- A store in which an attribute is unique or not, and its values have keys or have none. -/
def switched (s : Store) (a : Attribute) (isUnique : Bool) : Store :=
  (s.withReplaced (a.switched isUnique).toAttributeHead).setValues a.parent.valueTable
    ((s.values a.parent.valueTable).map fun r =>
      r.rekeyed (a.switched isUnique).toAttributeHead)

theorem changedAttribute_ofUniqueness {a : AttributeHead} (isUnique : Bool)
    (hsets : a.isSet = true → a.type.allowsSets = true) :
    s.changedAttribute a (.ofUniqueness isUnique) = .ok { a with isUnique } := by
  simp only [changedAttribute, AttributeChanges.ofUniqueness, changedSlug, changedName,
    changedType, changedSettings, Option.getD_none, Option.getD_some, ok_bind]
  exact bind_eq_ok_iff.mpr ⟨(), require_eq_ok_iff.mpr hsets, rfl⟩

theorem exists_perform_updateAttribute_iff (hi : s.Indexed) (has : s.Has a)
    {changes : AttributeChanges} {next : AttributeHead}
    (hnext : s.changedAttribute a.toAttributeHead changes = .ok next) :
    (∃ answer, s.perform setup stamp (.updateAttribute a.id changes) = .ok (answer, t)) ↔
      (Session.replaceAttribute a { a with toAttributeHead := next }).run s = .ok () t := by
  have hfound := has.requireAttribute hi
  rw [exists_perform_answering_iff rfl]
  constructor
  · rintro ⟨changed, hrun⟩
    obtain ⟨b, hb, hrun⟩ := Session.run_look_bind_eq_ok.mp hrun
    cases hfound.symm.trans hb
    obtain ⟨c, hc, hrun⟩ := Session.run_look_bind_eq_ok.mp hrun
    cases hnext.symm.trans hc
    obtain ⟨_, u, hrun, hpure⟩ := Session.run_bind_eq_ok.mp hrun
    cases hpure
    exact Session.run_transaction_eq_ok.mp hrun
  · intro hrun
    refine ⟨_, Session.run_look_bind_eq_ok.mpr ⟨a, hfound, Session.run_look_bind_eq_ok.mpr
      ⟨next, hnext, Session.run_bind_eq_ok.mpr ⟨(), t, ?_, rfl⟩⟩⟩⟩
    exact Session.run_transaction_eq_ok.mpr hrun

theorem run_replaceAttribute_switched_iff (h : s.Reachable) (has : s.Has a) {isUnique : Bool}
    (hne : isUnique ≠ a.isUnique) :
    (Session.replaceAttribute a (a.switched isUnique)).run s = .ok () t ↔
      (Session.rekey a.parent.valueTable (a.switched isUnique)).run
        (s.withReplaced (a.switched isUnique).toAttributeHead) = .ok () t := by
  have hstays : storageChanges a.toAttributeHead (a.switched isUnique).toAttributeHead = false :=
    storageChanges_eq_false_iff.mpr ⟨rfl, .inl rfl⟩
  have hguard : ¬ (storageChanges a.toAttributeHead (a.switched isUnique).toAttributeHead = true ∧
      s.hasValues a.toAttributeHead = true) := by
    rw [hstays]
    exact fun hchanges => Bool.false_ne_true hchanges.1
  have hapart : (s.attributes.map
      (Session.replaced (a.switched isUnique).toAttributeHead)).Pairwise AttributeHead.Apart := by
    obtain ⟨b, hb, rfl⟩ := has
    exact pairwise_replaced h.sound.indexed hb
      (changedAttribute_ofUniqueness isUnique (h.allowsSets b hb))
  have hswitched : (a.switched isUnique).isUnique ≠ a.isUnique := hne
  rw [Session.replaceAttribute, Session.run_get_bind_eq_ok, Session.run_liftM_bind_eq_ok]
  constructor
  · rintro ⟨_, -, hrun⟩
    obtain ⟨_, u, hwrite, hrun⟩ := Session.run_bind_eq_ok.mp hrun
    obtain ⟨-, rfl⟩ := Session.run_write_eq_ok.mp hwrite
    rwa [if_pos hswitched] at hrun
  · intro hrun
    refine ⟨(), require_eq_ok_iff.mpr hguard, Session.run_bind_eq_ok.mpr
      ⟨(), _, Session.run_write_eq_ok.mpr ⟨hapart, rfl⟩, ?_⟩⟩
    rwa [if_pos hswitched]

theorem exists_perform_switched_iff (h : s.Reachable) (has : s.Has a) {isUnique : Bool}
    (hne : isUnique ≠ a.isUnique) :
    (∃ answer, s.perform setup stamp (.updateAttribute a.id (.ofUniqueness isUnique)) =
        .ok (answer, t)) ↔
      (Session.rekey a.parent.valueTable (a.switched isUnique)).run
        (s.withReplaced (a.switched isUnique).toAttributeHead) = .ok () t := by
  have hnext : s.changedAttribute a.toAttributeHead (.ofUniqueness isUnique) =
      .ok { a.toAttributeHead with isUnique } := by
    obtain ⟨b, hb, rfl⟩ := has
    exact changedAttribute_ofUniqueness isUnique (h.allowsSets b hb)
  rw [exists_perform_updateAttribute_iff h.sound.indexed has hnext]
  exact run_replaceAttribute_switched_iff h has hne

theorem Reachable.fits (h : s.Reachable) (has : s.Has a) {table : ValueTable} {row : ValueRow}
    (hrow : row ∈ s.values table) (hid : row.attributeId = a.id) : row.Fits a.toAttributeHead := by
  obtain ⟨b, hb, rfl⟩ := has
  exact (h.fitting table row hrow b hb hid.symm).congr rfl rfl

/-! ### What a switch leaves -/

/-- Stored values read back as they were written. -/
def Verbatim (s : Store) : Prop := ∀ table, ∀ row ∈ s.values table, row.cell.kept = row.cell

/-- A switch may give keys to values and take them away, but the values stay. -/
theorem map_bare_values_switched (s : Store) (a : Attribute) (isUnique : Bool)
    (table : ValueTable) : ((s.switched a isUnique).values table).map ValueRow.bare =
      (s.values table).map ValueRow.bare := by
  by_cases htable : table = a.parent.valueTable
  · rw [htable, switched, values_setValues, List.map_map]
    refine List.map_congr_left fun r _ => ?_
    simp [ValueRow.bare]
  · rw [switched, values_setValues_of_ne _ _ _ htable, values_withReplaced]

theorem rekeyed_switched_false (r : ValueRow) (a : Attribute) :
    r.rekeyed (a.switched false).toAttributeHead =
      if r.attributeId = a.id then r.bare else r := rfl

/-- Where an attribute is not unique already, taking away its keys leaves all as it is. -/
theorem Reachable.switched_false (h : s.Reachable) (has : s.Has a) (hplain : a.isUnique = false) :
    s.switched a false = s.withReplaced (a.switched false).toAttributeHead := by
  have hrows : (s.values a.parent.valueTable).map
      (fun r => r.rekeyed (a.switched false).toAttributeHead) = s.values a.parent.valueTable := by
    refine (List.map_congr_left fun r hr => ?_).trans (List.map_id _)
    rw [id_eq, rekeyed_switched_false]
    split
    · rw [ValueRow.bare, ← (h.fits has hr ‹_›).unkeyed hplain]
    · rfl
  rw [switched, hrows, ← values_withReplaced s (a.switched false).toAttributeHead,
    setValues_values]

/-- Switching uniqueness off always succeeds. -/
theorem exists_perform_switched_false (h : s.Reachable) (has : s.Has a) (setup : Setup)
    (stamp : Stamp) : ∃ answer,
      s.perform setup stamp (.updateAttribute a.id (.ofUniqueness false)) =
        .ok (answer, s.switched a false) := by
  cases hunique : a.isUnique with
  | true =>
    have hne : false ≠ a.isUnique := by simp [hunique]
    refine (exists_perform_switched_iff h has hne).mpr ?_
    rw [switched, ← values_withReplaced s (a.switched false).toAttributeHead]
    simp only [rekeyed_switched_false]
    rfl
  | false =>
    have hnext : s.changedAttribute a.toAttributeHead (.ofUniqueness false) =
        .ok (a.switched false).toAttributeHead := by
      obtain ⟨b, hb, rfl⟩ := has
      exact changedAttribute_ofUniqueness false (h.allowsSets b hb)
    rw [h.switched_false has hunique]
    exact exists_perform_eq_ok h.sound.indexed has hnext hunique.symm
      (storageChanges_eq_false_iff.mpr ⟨rfl, .inl rfl⟩) setup stamp

/-- Switching uniqueness on succeeds just if the values are distinct. -/
theorem exists_perform_switched_true_iff (h : s.Reachable) (hverbatim : s.Verbatim) (has : s.Has a)
    (hplain : a.isUnique = false) {visited : List ValueRow}
    (hvisited : visited.Perm (valuesOf a.id (s.values a.parent.valueTable))) :
    (∃ t, (Session.rekeyRows a.parent.valueTable (a.switched true) [] visited).run
        (s.withReplaced (a.switched true).toAttributeHead) = .ok () t) ↔
      Distinct (valuesOf a.id (s.values a.parent.valueTable)) := by
  have hread : ∀ r ∈ (s.withReplaced (a.switched true).toAttributeHead).values
      a.parent.valueTable, r.attributeId = a.id →
        r.read? (a.switched true).toAttributeHead = some r.cell := by
    rw [values_withReplaced]
    intro r hr hid
    have hslot : r.cell.slot = (a.switched true).slot := (h.fits has hr hid).slot
    rw [ValueRow.read?_eq_some hslot, hverbatim _ r hr]
  have hunkeyed : ∀ r ∈ (s.withReplaced (a.switched true).toAttributeHead).values
      a.parent.valueTable, r.attributeId = a.id → r.uniqueKey = none := by
    rw [values_withReplaced]
    exact fun r hr hid => (h.fits has hr hid).unkeyed hplain
  rw [← values_withReplaced s (a.switched true).toAttributeHead] at hvisited ⊢
  exact Session.exists_run_rekeyRows_iff (a := a.switched true) hread hunkeyed hvisited

/-! ### Writes from then on -/

/-- Nobody is given a value of an attribute whose key is that of somebody else's value. -/
def Guards (s : Store) (id : Id) : Prop :=
  ∀ ⦃setup stamp call w⦄, s.Writes stamp call w → ∀ p ∈ w.prepared.sets, p.1.id = id →
    (∃ row ∈ s.values w.table, row.attributeId = id ∧ row.owner ≠ w.owner ∧
      row.cell.canonicalKey = p.2.canonicalKey) →
      ∃ slug, s.perform setup stamp call = .error (.conflict (.valueInUse slug))

/-- No value of an attribute is refused for what others have: writes meet the keys of other
attributes only. -/
def Permits (s : Store) (id : Id) : Prop :=
  ∀ ⦃setup stamp call w⦄, s.Writes stamp call w →
    (∀ p ∈ w.prepared.sets, p.1.id ≠ id →
      keyTaken (s.values w.table) w.owner p.1.id (keyOf p.1 p.2) = false) →
      ∃ answer t, s.perform setup stamp call = .ok (answer, t)

theorem Reachable.guards (h : s.Reachable) (hverbatim : s.Verbatim) {b : AttributeHead}
    (hb : b ∈ s.attributes) (hunique : b.isUnique = true) : s.Guards b.id := by
  rintro setup stamp call w hwrites p hp hid ⟨row, hrow, hrid, howner, hsame⟩
  have hpunique : p.1.isUnique = true := by
    obtain ⟨c, hc, hcp⟩ := hwrites.has p hp
    rw [← hcp] at hid ⊢
    have hcb : c = b := eq_of_pairwise_ne h.sound.indexed.attributeIds hc hb hid
    rw [hcb]
    exact hunique
  obtain ⟨cell, hread, hkey, -⟩ :=
    (keyedUniquely_of_reachable h hverbatim).keyed w.table row hrow b hb hrid.symm hunique
  rw [ValueRow.read?_eq_some (h.fitting w.table row hrow b hb hrid.symm).slot,
    hverbatim w.table row hrow, Option.some.injEq] at hread
  have htaken : firstTaken? (s.values w.table) w.owner w.prepared.sets ≠ none := by
    intro hnone
    have hfree := keyTaken_keyOf_iff.mp (firstTaken?_eq_none_iff.mp hnone p hp) hpunique row hrow
      (hrid.trans hid.symm)
    exact howner (hfree (by rw [hkey, ← hread, hsame]))
  have hperform := perform_of_writes h.sound hwrites setup
  cases hfirst : firstTaken? (s.values w.table) w.owner w.prepared.sets with
  | none => exact absurd hfirst htaken
  | some q =>
    rw [hfirst] at hperform
    exact ⟨q.1.slug, hperform⟩

theorem Reachable.permits (h : s.Reachable) {id : Id}
    (hplain : ∀ b ∈ s.attributes, b.id = id → b.isUnique = false) : s.Permits id := by
  intro setup stamp call w hwrites hothers
  have hfree : firstTaken? (s.values w.table) w.owner w.prepared.sets = none := by
    refine firstTaken?_eq_none_iff.mpr fun p hp => ?_
    by_cases hid : p.1.id = id
    · obtain ⟨c, hc, hcp⟩ := hwrites.has p hp
      have hunique : p.1.isUnique = false := by
        rw [← hcp] at hid ⊢
        exact hplain c hc hid
      rw [keyOf, hunique]
      rfl
    · exact hothers p hp hid
  have hperform := perform_of_writes h.sound hwrites setup
  rwa [hfree] at hperform

/-! ### Main statement -/

/-- How uniqueness of an attribute is switched on. -/
structure SwitchesOn (s : Store) (a : Attribute) (setup : Setup) (stamp : Stamp) : Prop where
  /-- The values alone decide whether it is. -/
  decided : (∃ answer t, s.perform setup stamp (.updateAttribute a.id (.ofUniqueness true)) =
    .ok (answer, t)) ↔ Distinct (valuesOf a.id (s.values a.parent.valueTable))
  /-- The order in which they are visited makes no difference. -/
  anyOrder : ∀ visited, visited.Perm (valuesOf a.id (s.values a.parent.valueTable)) →
    ((∃ t, (Session.rekeyRows a.parent.valueTable (a.switched true) [] visited).run
      (s.withReplaced (a.switched true).toAttributeHead) = .ok () t) ↔
        Distinct (valuesOf a.id (s.values a.parent.valueTable))) ∧
    Session.Yields (s.withReplaced (a.switched true).toAttributeHead)
      (Session.rekeyRows a.parent.valueTable (a.switched true) [] visited)
      fun _ t => t = s.switched a true
  /-- The values stay, and as long as the attribute is unique nobody is given one of another. -/
  guarded : ∀ answer t, s.perform setup stamp (.updateAttribute a.id (.ofUniqueness true)) =
    .ok (answer, t) → t = s.switched a true ∧
      (∀ table, (t.values table).map ValueRow.bare = (s.values table).map ValueRow.bare) ∧
      ∀ steps, (t.run steps).Verbatim → ∀ b ∈ (t.run steps).attributes, b.id = a.id →
        b.isUnique = true → (t.run steps).Guards a.id
  /-- If it is not, all is as before. -/
  undone : ∀ e, s.perform setup stamp (.updateAttribute a.id (.ofUniqueness true)) = .error e →
    s.after setup stamp (.updateAttribute a.id (.ofUniqueness true)) = s

/-- Uniqueness of an attribute is switched off: the values stay, and as long as the attribute is
not unique it does not matter what others have. -/
def SwitchesOff (s : Store) (a : Attribute) (setup : Setup) (stamp : Stamp) : Prop :=
  ∃ answer t, s.perform setup stamp (.updateAttribute a.id (.ofUniqueness false)) =
    .ok (answer, t) ∧ t = s.switched a false ∧
      (∀ table, (t.values table).map ValueRow.bare = (s.values table).map ValueRow.bare) ∧
      ∀ steps, (∀ b ∈ (t.run steps).attributes, b.id = a.id → b.isUnique = false) →
        (t.run steps).Permits a.id

theorem switchesOn (h : s.Reachable) (hverbatim : s.Verbatim) (has : s.Has a)
    (hplain : a.isUnique = false) (setup : Setup) (stamp : Stamp) :
    s.SwitchesOn a setup stamp := by
  have hne : true ≠ a.isUnique := by simp [hplain]
  have hyields : ∀ visited, visited.Perm (valuesOf a.id (s.values a.parent.valueTable)) →
      Session.Yields (s.withReplaced (a.switched true).toAttributeHead)
        (Session.rekeyRows a.parent.valueTable (a.switched true) [] visited)
        fun _ t => t = s.switched a true := by
    intro visited hvisited
    have hi : (s.withReplaced (a.switched true).toAttributeHead).Indexed := by
      obtain ⟨b, hb, rfl⟩ := has
      exact { h.sound.indexed with
        attributes := pairwise_replaced h.sound.indexed hb
          (changedAttribute_ofUniqueness true (h.allowsSets b hb)) }
    refine (Session.yields_rekeyRows_visiting hi rfl fun r => ?_).mono fun _ t ht => ?_
    · rw [hvisited.mem_iff, mem_valuesOf, values_withReplaced]
      rfl
    · rw [ht.1, values_withReplaced]
      rfl
  have hperform : ∀ t, (∃ answer,
      s.perform setup stamp (.updateAttribute a.id (.ofUniqueness true)) = .ok (answer, t)) ↔
        (Session.rekeyRows a.parent.valueTable (a.switched true) []
          (valuesOf a.id (s.values a.parent.valueTable))).run
            (s.withReplaced (a.switched true).toAttributeHead) = .ok () t := by
    intro t
    rw [exists_perform_switched_iff h has hne,
      ← values_withReplaced s (a.switched true).toAttributeHead]
    exact Iff.rfl
  refine ⟨?_, fun visited hvisited => ⟨?_, hyields visited hvisited⟩, ?_, ?_⟩
  · rw [exists_comm, ← exists_perform_switched_true_iff h hverbatim has hplain (.refl _)]
    exact exists_congr hperform
  · exact exists_perform_switched_true_iff h hverbatim has hplain hvisited
  · intro answer t hok
    have ht := hyields _ (.refl _) ((hperform t).mp ⟨answer, hok⟩)
    refine ⟨ht, fun table => ht ▸ map_bare_values_switched s a true table, ?_⟩
    intro steps hkept b hb hid hunique
    exact hid ▸ ((h.perform hok).run steps).guards hkept hb hunique
  · exact fun e hfail => after_eq_of_perform_eq_error h hfail

theorem switchesOff (h : s.Reachable) (has : s.Has a) (setup : Setup) (stamp : Stamp) :
    s.SwitchesOff a setup stamp := by
  obtain ⟨answer, hok⟩ := exists_perform_switched_false h has setup stamp
  refine ⟨answer, _, hok, rfl, map_bare_values_switched s a false, fun steps hplain => ?_⟩
  exact ((h.perform hok).run steps).permits hplain

/-- An attribute that is not unique becomes so just if its values have different keys that are short
enough, in whatever order they are visited; its values stay, and as long as it is unique nobody is
given a value of somebody else. Otherwise nothing changes. It always ceases to be unique when that
is asked for, and then its values stay too and may be alike. -/
theorem switches_of_reachable (h : s.Reachable) (hverbatim : s.Verbatim) (has : s.Has a)
    (setup : Setup) (stamp : Stamp) :
    (a.isUnique = false → s.SwitchesOn a setup stamp) ∧ s.SwitchesOff a setup stamp :=
  ⟨fun hplain => switchesOn h hverbatim has hplain setup stamp, switchesOff h has setup stamp⟩

/-- Asks for the attribute of the example to be unique or not. -/
def switching (step : UInt8) (isUnique : Bool) : Step :=
  exampleStep step (.updateAttribute (exampleId 1 0) (.ofUniqueness isUnique))

/-- Creates a deal that is won. -/
def newWinning (step : UInt8) : Step :=
  exampleStep step (.createRecord ⟨exampleId 0 0, [("won", .bool true)], none⟩)

/-- The attribute of the example, no longer unique. -/
def plainWon : AttributeHead :=
  ⟨exampleId 1 0, .object (exampleId 0 0), "won", "Won", .checkbox, .obj [], false, false, false,
    false, 0, ⟨1⟩⟩

/-- The deals of the example, which need not differ. -/
def plainStore : Store := { exampleStore with
  attributes := [plainWon]
  recordValues := [⟨exampleId 2 0, exampleId 1 0, .boolean true, none⟩,
    ⟨exampleId 3 0, exampleId 1 0, .boolean false, none⟩] }

/-- The same deals and one more, which does not differ from the first. -/
def alikeStore : Store := { plainStore with
  records := plainStore.records ++ [⟨exampleId 7 0, exampleId 0 0, none, ⟨7⟩, none, ⟨7⟩⟩]
  recordValues := plainStore.recordValues ++
    [⟨exampleId 7 0, exampleId 1 0, .boolean true, none⟩] }

theorem run_switching : exampleStore.run [switching 6 false] = plainStore := by cbv

theorem run_newWinning : plainStore.run [newWinning 7] = alikeStore := by cbv

theorem reachable_plainStore : plainStore.Reachable :=
  run_switching ▸ reachable_exampleStore.run [switching 6 false]

theorem reachable_alikeStore : alikeStore.Reachable :=
  run_newWinning ▸ reachable_plainStore.run [newWinning 7]

theorem switched_exampleStore : exampleStore.switched
    (exampleStore.withChoices { plainWon with isUnique := true }) false = plainStore := by cbv

theorem switched_plainStore :
    plainStore.switched (plainStore.withChoices plainWon) true = exampleStore := by cbv

theorem verbatim_of_recordValues {s : Store}
    (hrecords : ∀ row ∈ s.recordValues, row.cell.kept = row.cell) (hentries : s.entryValues = []) :
    s.Verbatim := by
  rintro (_ | _) row hrow
  · exact hrecords row hrow
  · rw [values, hentries] at hrow
    cases hrow

theorem writes_newWinning : exampleStore.Writes (newWinning 7).stamp (newWinning 7).call
    ⟨.records, exampleId 7 0,
      ⟨[(exampleStore.withChoices { plainWon with isUnique := true }, .boolean true)], []⟩⟩ := by
  refine .createRecord ⟨_, .head _, rfl⟩ ?_ (by cbv)
  decide

/-- The two deals of the example differ: their attribute can cease to be unique and become so again,
and then there cannot be another deal that is won. If there is one already, it stays as it is. -/
theorem switching_won :
    (exampleStore.Reachable ∧ exampleStore.Verbatim ∧
      exampleStore.Has (exampleStore.withChoices { plainWon with isUnique := true }) ∧
      ∃ answer, exampleStore.perform (switching 6 false).setup (switching 6 false).stamp
        (switching 6 false).call = .ok (answer, plainStore)) ∧
    (plainStore.Reachable ∧ plainStore.Verbatim ∧
      plainStore.Has (plainStore.withChoices plainWon) ∧
      ∃ answer t, plainStore.perform (switching 6 true).setup (switching 6 true).stamp
        (switching 6 true).call = .ok (answer, t) ∧
        ∃ slug, t.perform (newWinning 7).setup (newWinning 7).stamp (newWinning 7).call =
          .error (.conflict (.valueInUse slug))) ∧
    (alikeStore.Reachable ∧ alikeStore.Verbatim ∧
      alikeStore.Has (alikeStore.withChoices plainWon) ∧
      ∀ answer t, alikeStore.perform (switching 8 true).setup (switching 8 true).stamp
        (switching 8 true).call ≠ .ok (answer, t)) := by
  have hexample : exampleStore.Verbatim :=
    verbatim_of_recordValues (by simp [exampleStore, Cell.kept]) rfl
  have hplain : plainStore.Verbatim :=
    verbatim_of_recordValues (by simp [plainStore, Cell.kept]) rfl
  have halike : alikeStore.Verbatim :=
    verbatim_of_recordValues (by simp [alikeStore, plainStore, Cell.kept]) rfl
  have hhas : exampleStore.Has (exampleStore.withChoices { plainWon with isUnique := true }) :=
    ⟨_, .head _, rfl⟩
  have hhas' : plainStore.Has (plainStore.withChoices plainWon) := ⟨_, .head _, rfl⟩
  have hhas'' : alikeStore.Has (alikeStore.withChoices plainWon) := ⟨_, .head _, rfl⟩
  refine ⟨⟨reachable_exampleStore, hexample, hhas, ?_⟩, ⟨reachable_plainStore, hplain, hhas', ?_⟩,
    reachable_alikeStore, halike, hhas'', fun answer t hok => ?_⟩
  · obtain ⟨answer, t, hok, rfl, -⟩ := (switches_of_reachable reachable_exampleStore hexample hhas
      (switching 6 false).setup (switching 6 false).stamp).2
    rw [switched_exampleStore] at hok
    exact ⟨answer, hok⟩
  · have hon := (switches_of_reachable reachable_plainStore hplain hhas' (switching 6 true).setup
      (switching 6 true).stamp).1 rfl
    have hdistinct : Distinct (valuesOf (exampleId 1 0) plainStore.recordValues) :=
      ⟨by decide +kernel, by decide +kernel⟩
    obtain ⟨answer, t, hok⟩ := hon.decided.mpr hdistinct
    obtain ⟨ht, -, hguarded⟩ := hon.guarded answer t hok
    rw [switched_plainStore] at ht
    subst ht
    refine ⟨answer, _, hok, hguarded [] hexample _ (.head _) rfl rfl writes_newWinning _ (.head _)
      rfl ⟨_, .head _, rfl, by decide, rfl⟩⟩
  · have hon := (switches_of_reachable reachable_alikeStore halike hhas'' (switching 8 true).setup
      (switching 8 true).stamp).1 rfl
    have hdistinct : Distinct (valuesOf (exampleId 1 0) alikeStore.recordValues) :=
      hon.decided.mp ⟨answer, t, hok⟩
    exact absurd hdistinct.nodup (by decide +kernel)

end Store

end RecordStore
