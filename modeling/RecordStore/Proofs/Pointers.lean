import RecordStore.Proofs.IdSets
import RecordStore.Store.References

/-!
# References from either end

What points to a record is found by going through all values; what a record points to, by reading
its values and looking for the targets. Main statement: in every store that calls can lead to, the
two answers list the same pointers, each of them once, and none of them dangles.
-/

namespace RecordStore

/-! ### Targets of a value -/

theorem eraseDups_of_nodup {α : Type} [BEq α] [LawfulBEq α] {l : List α} (h : l.Nodup) :
    l.eraseDups = l := by
  induction l with
  | nil => rfl
  | cons x rest ih =>
    obtain ⟨hx, hrest⟩ := List.nodup_cons.mp h
    have hothers : (rest.filter fun y => !y == x) = rest :=
      List.filter_eq_self.mpr fun y hy => by
        have hne : y ≠ x := fun heq => hx (heq ▸ hy)
        simp [hne]
    rw [List.eraseDups_cons, hothers, ih hrest]

theorem targets_idSet (ids : List Id) : (idSet ids).targets = ids := by
  rw [idSet, Cell.targets, List.filterMap_map]
  have hread : ((fun m : Json => m.str?.bind Id.ofTrimmed?) ∘ choiceMember) = some := by
    funext id
    rw [Function.comp_apply, choiceMember, Json.str?, Option.bind_some, Id.ofTrimmed?_text]
  rw [hread, List.filterMap_some]

section

variable {a : AttributeHead} {row : ValueRow} (h : OfIds a row.cell)

include h

/-- The targets of a value are the ids that it holds, each of them once. -/
theorem targets_of_ofIds :
    row.cell.targets.Nodup ∧ ∀ target, target ∈ row.cell.targets ↔ row.cell.Holds target := by
  rcases h with ⟨-, id, hcell⟩ | ⟨-, ids, -, hnodup, hcell⟩
  · rw [hcell]
    refine ⟨List.nodup_singleton id, fun target => ?_⟩
    rw [Cell.targets, List.mem_singleton]
    constructor
    · rintro rfl
      exact .single
    · rintro ⟨⟩
      rfl
  · rw [hcell, targets_idSet]
    exact ⟨hnodup, fun target => holds_idSet.symm⟩

theorem pointsTo_iff (target : Id) : row.pointsTo a target = true ↔ row.cell.Holds target := by
  rcases h with ⟨hsingle, id, hcell⟩ | ⟨hset, ids, -, -, hcell⟩
  · rw [ValueRow.pointsTo, hsingle, if_neg Bool.false_ne_true, hcell, Cell.refersTo, beq_iff_eq]
    constructor
    · rintro rfl
      exact .single
    · rintro ⟨⟩
      rfl
  · rw [ValueRow.pointsTo, if_pos hset, ValueRow.members?_of_idSet hset hcell, hcell, holds_idSet]
    dsimp only
    rw [List.any_map, List.any_eq_true]
    constructor
    · rintro ⟨id, hid, htext⟩
      have heq : id.text = target.text := by simpa [choiceMember, Json.str?] using htext
      rwa [← Id.text_injective heq]
    · exact fun hmem => ⟨target, hmem, by simp [choiceMember, Json.str?]⟩

end

namespace Store

variable {s : Store}

/-! ### Pointers -/

/-- A record holds a target under a reference attribute of its object. -/
structure Points (s : Store) (r : Record) (a : AttributeHead) (target : Id) : Prop where
  source : r ∈ s.records
  through : a ∈ s.attributes
  parent : a.parent = .object r.objectId
  type : a.type = .recordReference
  held : ∃ row ∈ s.recordValues, row.owner = r.id ∧ row.attributeId = a.id ∧
    row.cell.Holds target

theorem ofIds_of_recordReference (h : s.Reachable) {row : ValueRow} (hrow : row ∈ s.recordValues)
    {a : AttributeHead} (ha : a ∈ s.attributes) (hid : a.id = row.attributeId)
    (htype : a.type = .recordReference) :
    row.read? a = some row.cell ∧ OfIds a row.cell := by
  have hslot : a.type.slot = .reference := by
    rw [htype]
    rfl
  exact h.ofIds_of_row (show row ∈ s.values .records from hrow) ha hid hslot

/-! ### Pointers to a record -/

theorem relatedBy?_eq_some_iff (h : s.Reachable) {row : ValueRow} (hrow : row ∈ s.recordValues)
    {target : Id} {q : RelatedRecord} :
    s.relatedBy? target row = some q ↔ ∃ r ∈ s.records, ∃ a ∈ s.attributes,
      a.parent = .object r.objectId ∧ a.type = .recordReference ∧ row.owner = r.id ∧
        row.attributeId = a.id ∧ row.cell.Holds target ∧
          q = ⟨r.id, r.objectId, a.id, a.slug⟩ := by
  have hi := h.sound.indexed
  simp only [relatedBy?, Option.bind_eq_bind, Option.bind_eq_some_iff]
  constructor
  · rintro ⟨a, hfind, r, hr, hq⟩
    obtain ⟨ha, hid⟩ := mem_of_find?_key hfind
    obtain ⟨hr, hrid⟩ := mem_of_find?_key hr
    obtain ⟨ha, htype⟩ := List.mem_filter.mp ha
    obtain ⟨-, htype⟩ := of_decide_eq_true htype
    split at hq
    · rename_i hpoints
      cases hq
      obtain ⟨b, hb, hbid, o, ho, hoid, hparent⟩ := h.sound.linked.values .records row hrow
      have hba : b = a := eq_of_pairwise_ne hi.attributeIds hb ha (hbid.trans hid.symm)
      have hor : o = r := eq_of_pairwise_ne hi.records ho hr (hoid.trans hrid.symm)
      subst hba hor
      have hids := (ofIds_of_recordReference h hrow ha hid htype).2
      exact ⟨o, hr, b, ha, hparent, htype, hrid.symm, hid.symm,
        (pointsTo_iff hids target).mp hpoints, rfl⟩
    · cases hq
  · rintro ⟨r, hr, a, ha, hparent, htype, howner, hid, hholds, rfl⟩
    have hids := (ofIds_of_recordReference h hrow ha hid.symm htype).2
    have hmem : a ∈ s.referenceAttributes := by
      simp [referenceAttributes, ha, hparent, htype, Parent.valueTable]
    have hapart : s.referenceAttributes.Pairwise fun b c => b.id ≠ c.id :=
      hi.attributeIds.filter _
    refine ⟨a, ?_, r, ?_, if_pos ((pointsTo_iff hids target).mpr hholds)⟩
    · rw [hid]
      exact find?_of_pairwise_ne (f := AttributeHead.id) hapart hmem
    · rw [howner]
      exact record?_eq_some hi hr

theorem mem_relatedRecords (h : s.Reachable) {target : Id} {q : RelatedRecord} :
    q ∈ s.relatedRecords target ↔ ∃ r a, s.Points r a target ∧
      q = ⟨r.id, r.objectId, a.id, a.slug⟩ := by
  rw [relatedRecords, List.mem_mergeSort, List.mem_filterMap]
  constructor
  · rintro ⟨row, hrow, hq⟩
    obtain ⟨r, hr, a, ha, hparent, htype, howner, hid, hholds, rfl⟩ :=
      (relatedBy?_eq_some_iff h hrow).mp hq
    exact ⟨r, a, ⟨hr, ha, hparent, htype, row, hrow, howner, hid, hholds⟩, rfl⟩
  · rintro ⟨r, a, ⟨hr, ha, hparent, htype, row, hrow, howner, hid, hholds⟩, rfl⟩
    exact ⟨row, hrow, (relatedBy?_eq_some_iff h hrow).mpr
      ⟨r, hr, a, ha, hparent, htype, howner, hid, hholds, rfl⟩⟩

/-- Of what points to a record, each is listed once. -/
theorem pairwise_relatedRecords (h : s.Reachable) (target : Id) :
    (s.relatedRecords target).Pairwise fun p q =>
      (p.recordId, p.attributeId) ≠ (q.recordId, q.attributeId) := by
  rw [relatedRecords, List.Perm.pairwise_iff (fun hpq => hpq.symm) (List.mergeSort_perm _ _),
    List.pairwise_filterMap]
  refine (h.sound.indexed.valueKeys .records).imp_of_mem fun {row other} hrow hother hne => ?_
  intro p hp q hq heq
  obtain ⟨r, -, a, -, -, -, howner, hid, -, rfl⟩ := (relatedBy?_eq_some_iff h hrow).mp hp
  obtain ⟨r', -, a', -, -, -, howner', hid', -, rfl⟩ := (relatedBy?_eq_some_iff h hother).mp hq
  obtain ⟨hrecord, hattribute⟩ := Prod.mk.inj heq
  dsimp only at hrecord hattribute
  exact hne (by rw [howner, howner', hid, hid', hrecord, hattribute])

/-! ### Pointers of a record -/

/-- A record points to the targets of its value that are there. -/
theorem referencesBy_of_row (h : s.Reachable) {row : ValueRow} (hrow : row ∈ s.recordValues)
    {a : AttributeHead} (ha : a ∈ s.attributes) (htype : a.type = .recordReference)
    (hid : a.id = row.attributeId) :
    s.referencesBy row.owner (s.withChoices a) = row.cell.targets.filterMap fun target =>
      (s.record? target).map fun t => ⟨a.id, a.slug, target, t.objectId⟩ := by
  obtain ⟨hread, hids⟩ := ofIds_of_recordReference h hrow ha hid htype
  have hcell : cellOf? s.recordValues row.owner (s.withChoices a).toAttributeHead =
      some row.cell :=
    (h.sound.indexed.cellOf?_eq (show row ∈ s.values .records from hrow) hid).trans hread
  rw [referencesBy, hcell]
  dsimp only
  rw [eraseDups_of_nodup (targets_of_ofIds hids).1]
  rfl

theorem referencesBy_eq_nil_or (s : Store) (id : Id) (a : AttributeHead) :
    s.referencesBy id (s.withChoices a) = [] ∨
      ∃ row ∈ s.recordValues, row.owner = id ∧ row.attributeId = a.id := by
  by_cases hrow : ∃ row ∈ s.recordValues, row.isFor id a.id = true
  · obtain ⟨row, hmem, hfor⟩ := hrow
    exact .inr ⟨row, hmem, ValueRow.isFor_iff.mp hfor⟩
  · have hcell : cellOf? s.recordValues id (s.withChoices a).toAttributeHead = none :=
      cellOf?_eq_none fun row hmem => Bool.eq_false_iff.mpr fun hfor => hrow ⟨row, hmem, hfor⟩
    exact .inl (by rw [referencesBy, hcell])

theorem mem_referencesBy (h : s.Reachable) {r : Record} (hr : r ∈ s.records) {a : AttributeHead}
    (ha : a ∈ s.attributes) (hparent : a.parent = .object r.objectId)
    (htype : a.type = .recordReference) {p : ForwardReference} :
    p ∈ s.referencesBy r.id (s.withChoices a) ↔ ∃ t ∈ s.records, s.Points r a t.id ∧
      p = ⟨a.id, a.slug, t.id, t.objectId⟩ := by
  have htargets : ∀ row ∈ s.recordValues, row.attributeId = a.id →
      ∀ target, target ∈ row.cell.targets ↔ row.cell.Holds target := fun row hrow hid =>
    (targets_of_ofIds (ofIds_of_recordReference h hrow ha hid.symm htype).2).2
  constructor
  · intro hp
    rcases s.referencesBy_eq_nil_or r.id a with hnil | ⟨row, hrow, howner, hid⟩
    · rw [hnil] at hp
      cases hp
    · rw [← howner, referencesBy_of_row h hrow ha htype hid.symm, List.mem_filterMap] at hp
      obtain ⟨target, htarget, hp⟩ := hp
      obtain ⟨t, hfind, rfl⟩ := Option.map_eq_some_iff.mp hp
      obtain ⟨ht, rfl⟩ := mem_of_find?_key hfind
      exact ⟨t, ht, ⟨hr, ha, hparent, htype, row, hrow, howner, hid,
        (htargets row hrow hid _).mp htarget⟩, rfl⟩
  · rintro ⟨t, ht, ⟨-, -, -, -, row, hrow, howner, hid, hholds⟩, rfl⟩
    rw [← howner, referencesBy_of_row h hrow ha htype hid.symm, List.mem_filterMap]
    refine ⟨t.id, (htargets row hrow hid _).mpr hholds, ?_⟩
    rw [record?_eq_some h.sound.indexed ht, Option.map_some]

theorem pairwise_referencesBy (h : s.Reachable) (id : Id) {a : AttributeHead}
    (ha : a ∈ s.attributes) (htype : a.type = .recordReference) :
    (s.referencesBy id (s.withChoices a)).Pairwise fun p q => p.targetId ≠ q.targetId := by
  rcases s.referencesBy_eq_nil_or id a with hnil | ⟨row, hrow, rfl, hid⟩
  · rw [hnil]
    exact .nil
  · rw [referencesBy_of_row h hrow ha htype hid.symm, List.pairwise_filterMap]
    have hids := (ofIds_of_recordReference h hrow ha hid.symm htype).2
    refine (targets_of_ofIds hids).1.imp fun {target other} hne p hp q hq => ?_
    obtain ⟨t, -, rfl⟩ := Option.map_eq_some_iff.mp hp
    obtain ⟨u, -, rfl⟩ := Option.map_eq_some_iff.mp hq
    exact hne

theorem attributeId_of_mem_referencesBy {id : Id} {a : Attribute} {p : ForwardReference}
    (hp : p ∈ s.referencesBy id a) : p.attributeId = a.id := by
  rw [referencesBy] at hp
  split at hp
  · cases hp
  · obtain ⟨target, -, hp⟩ := List.mem_filterMap.mp hp
    obtain ⟨t, -, rfl⟩ := Option.map_eq_some_iff.mp hp
    rfl

theorem forwardReferences_eq_ok (hi : s.Indexed) {r : Record} (hr : r ∈ s.records) :
    s.forwardReferences r.objectId r.id =
      .ok (((s.attributesOf (.object r.objectId)).filter fun a => a.type = .recordReference).flatMap
        (s.referencesBy r.id)) := by
  have hrecord : s.requireRecord r.objectId r.id = .ok r := by
    simp [requireRecord, record?_eq_some hi hr]
  exact bind_eq_ok_iff.mpr ⟨r, hrecord, rfl⟩

/-- The records that a record points to are those that are there. -/
theorem mem_forwardReferences (h : s.Reachable) {r : Record} (hr : r ∈ s.records)
    {found : List ForwardReference} (hfound : s.forwardReferences r.objectId r.id = .ok found)
    {p : ForwardReference} :
    p ∈ found ↔ ∃ a, ∃ t ∈ s.records, s.Points r a t.id ∧
      p = ⟨a.id, a.slug, t.id, t.objectId⟩ := by
  rw [forwardReferences_eq_ok h.sound.indexed hr] at hfound
  cases hfound
  rw [List.mem_flatMap]
  constructor
  · rintro ⟨b, hb, hp⟩
    obtain ⟨hb, htype⟩ := List.mem_filter.mp hb
    obtain ⟨⟨a, ha, rfl⟩, hparent⟩ := has_of_mem_attributesOf hb
    obtain ⟨t, ht, hpoints, rfl⟩ :=
      (mem_referencesBy h hr ha hparent (of_decide_eq_true htype)).mp hp
    exact ⟨a, t, ht, hpoints, rfl⟩
  · rintro ⟨a, t, ht, hpoints, rfl⟩
    refine ⟨s.withChoices a, List.mem_filter.mpr ⟨?_, decide_eq_true hpoints.type⟩, ?_⟩
    · exact hpoints.parent ▸ mem_attributesOf hpoints.through
    · exact (mem_referencesBy h hr hpoints.through hpoints.parent hpoints.type).mpr
        ⟨t, ht, hpoints, rfl⟩

theorem pairwise_forwardReferences (h : s.Reachable) {r : Record} (hr : r ∈ s.records)
    {found : List ForwardReference} (hfound : s.forwardReferences r.objectId r.id = .ok found) :
    found.Pairwise fun p q => (p.attributeId, p.targetId) ≠ (q.attributeId, q.targetId) := by
  rw [forwardReferences_eq_ok h.sound.indexed hr] at hfound
  cases hfound
  have hids : (s.attributesOf (.object r.objectId)).Pairwise fun a b => a.id ≠ b.id := by
    rw [attributesOf, List.pairwise_map,
      List.Perm.pairwise_iff (fun hab => hab.symm) (List.mergeSort_perm _ _)]
    exact h.sound.indexed.attributeIds.filter _
  rw [List.pairwise_flatMap]
  constructor
  · intro b hb
    obtain ⟨hb, htype⟩ := List.mem_filter.mp hb
    obtain ⟨⟨a, ha, rfl⟩, -⟩ := has_of_mem_attributesOf hb
    refine (pairwise_referencesBy h r.id ha (of_decide_eq_true htype)).imp fun hne heq => ?_
    exact hne (Prod.mk.inj heq).2
  · refine (hids.filter _).imp fun {a b} hne p hp q hq heq => hne ?_
    rw [← attributeId_of_mem_referencesBy hp, ← attributeId_of_mem_referencesBy hq]
    exact (Prod.mk.inj heq).1

/-! ### Both answers -/

/-- The answers to what a record points to and to what points to it agree. A pointer is listed with
the object of its record and the slug that its attribute has now; it is listed once; and there is a
record where it points to. -/
structure ReferencesAgree (s : Store) : Prop where
  forward : ∀ r ∈ s.records, ∃ found, s.forwardReferences r.objectId r.id = .ok found ∧
    (found.Pairwise fun p q => (p.attributeId, p.targetId) ≠ (q.attributeId, q.targetId)) ∧
      ∀ p, p ∈ found ↔ ∃ a, ∃ t ∈ s.records, s.Points r a t.id ∧
        p = ⟨a.id, a.slug, t.id, t.objectId⟩
  reverse : ∀ target,
    ((s.relatedRecords target).Pairwise fun p q =>
      (p.recordId, p.attributeId) ≠ (q.recordId, q.attributeId)) ∧
      ∀ q, q ∈ s.relatedRecords target ↔ ∃ r a, s.Points r a target ∧
        q = ⟨r.id, r.objectId, a.id, a.slug⟩
  converse : ∀ r ∈ s.records, ∀ t ∈ s.records, ∀ a ∈ s.attributes,
    a.parent = .object r.objectId → a.type = .recordReference →
      ∀ found, s.forwardReferences r.objectId r.id = .ok found →
        ((∃ q ∈ s.relatedRecords t.id, q.recordId = r.id ∧ q.attributeId = a.id) ↔
          ∃ p ∈ found, p.attributeId = a.id ∧ p.targetId = t.id)

theorem points_of_ids (hi : s.Indexed) {r r' : Record} {a a' : AttributeHead} {target : Id}
    (h : s.Points r' a' target) (hr : r ∈ s.records) (ha : a ∈ s.attributes) (hrid : r'.id = r.id)
    (haid : a'.id = a.id) : s.Points r a target := by
  have hrr : r' = r := eq_of_pairwise_ne hi.records h.source hr hrid
  have haa : a' = a := eq_of_pairwise_ne hi.attributeIds h.through ha haid
  rwa [← hrr, ← haa]

/-- After any calls, references are listed alike from either end. -/
theorem referencesAgree_run (steps : List Step) : (empty.run steps).ReferencesAgree := by
  have h : (empty.run steps).Reachable := ⟨steps, rfl⟩
  have hi := h.sound.indexed
  refine ⟨fun r hr => ?_, fun target => ?_, fun r hr t ht a ha hparent htype found hfound => ?_⟩
  · have hfound := forwardReferences_eq_ok hi hr
    exact ⟨_, hfound, pairwise_forwardReferences h hr hfound,
      fun p => mem_forwardReferences h hr hfound⟩
  · exact ⟨pairwise_relatedRecords h target, fun q => mem_relatedRecords h⟩
  · constructor
    · rintro ⟨q, hq, hrecord, hattribute⟩
      obtain ⟨r', a', hpoints, rfl⟩ := (mem_relatedRecords h).mp hq
      have hpoints := points_of_ids hi hpoints hr ha hrecord hattribute
      exact ⟨_, (mem_forwardReferences h hr hfound).mpr ⟨a, t, ht, hpoints, rfl⟩, rfl, rfl⟩
    · rintro ⟨p, hp, hattribute, htarget⟩
      obtain ⟨a', t', ht', hpoints, rfl⟩ := (mem_forwardReferences h hr hfound).mp hp
      have hpoints := points_of_ids hi hpoints hr ha rfl hattribute
      dsimp only at htarget
      rw [htarget] at hpoints
      exact ⟨_, (mem_relatedRecords h).mpr ⟨r, a, hpoints, rfl⟩, rfl, rfl⟩

end Store

end RecordStore
