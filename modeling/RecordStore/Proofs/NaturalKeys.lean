import RecordStore.Proofs.RowOrder
import RecordStore.Proofs.Updates

/-!
# Records known by a value

A record is looked up by the key of a value: not by the key that is stored beside the value, but by
the one of the value as it is read back. Of several records that are known by one key the oldest is
taken, and of records there is one oldest.
-/

namespace RecordStore

/-! ### The oldest record -/

/-- Records by age: by the time of their creation, and by their ids. -/
def compareAges (a b : Record) : Ordering :=
  (compare a.createdAt.micros b.createdAt.micros).then (compare a.id b.id)

theorem totalOn_compareAges (P : Record → Prop) : TotalOn P compareAges :=
  (TotalOn.of_key (f := fun r : Record => r.createdAt.micros) fun _ _ _ _ => rfl).lex
    (.of_key (f := fun r : Record => r.id.bytes) fun _ _ _ _ => rfl)

theorem olderRecord_self (r : Record) : olderRecord r r = true := by
  have hself : compareAges r r = (compareAges r r).swap :=
    (totalOn_compareAges fun _ => True).eq_swap trivial trivial
  change (compareAges r r).isLE = true
  cases hrr : compareAges r r with
  | gt =>
    rw [hrr] at hself
    cases hself
  | _ => rfl

/-- Two records of which each is as old as the other are one. -/
theorem id_eq_of_olderRecord {r q : Record} (h : olderRecord r q = true)
    (h' : olderRecord q r = true) : r.id = q.id := by
  have hswap : compareAges r q = (compareAges q r).swap :=
    (totalOn_compareAges fun _ => True).eq_swap trivial trivial
  have htie : compareAges r q = .eq := by
    change (compareAges r q).isLE = true at h
    change (compareAges q r).isLE = true at h'
    rw [hswap] at h ⊢
    cases hqr : compareAges q r <;> simp_all
  have hids : compare r.id q.id = .eq := (Ordering.then_eq_eq.mp htie).2
  have hbytes : r.id.bytes = q.id.bytes := Std.LawfulEqOrd.eq_of_compare hids
  cases hr : r.id
  cases hq : q.id
  simp_all

/-- The first of records in the order of age is one that is as old as each of them. -/
theorem head?_mergeSort_olderRecord_eq_some {found : List Record} {r : Record}
    (h : (found.mergeSort olderRecord).head? = some r) :
    r ∈ found ∧ ∀ q ∈ found, olderRecord r q = true := by
  obtain ⟨rest, hsorted⟩ := List.head?_eq_some_iff.mp h
  have hmem : ∀ q, q ∈ found ↔ q ∈ r :: rest := fun q => by rw [← hsorted, List.mem_mergeSort]
  have horder : (r :: rest).Pairwise fun a b => olderRecord a b = true := by
    rw [← hsorted]
    exact pairwise_mergeSort_of_totalOn (totalOn_compareAges fun _ => True) fun _ _ => trivial
  refine ⟨(hmem r).mpr List.mem_cons_self, fun q hq => ?_⟩
  rcases List.mem_cons.mp ((hmem q).mp hq) with rfl | hrest
  · exact olderRecord_self q
  · exact (List.pairwise_cons.mp horder).1 q hrest

namespace Store

variable {s : Store} {parent : Parent} {a : Attribute} {objectId : Id} {key : String}

/-! ### What is read back -/

/-- What is read under an attribute of an owner is what its row there has. -/
theorem Reachable.cellOf?_eq_some_iff (h : s.Reachable) (ha : a ∈ s.attributesOf parent)
    {table : ValueTable} {owner : Id} {c : Cell} :
    cellOf? (s.values table) owner a.toAttributeHead = some c ↔
      ∃ row ∈ s.values table, row.isFor owner a.id = true ∧ row.cell.kept = c := by
  obtain ⟨⟨head, hhead, rfl⟩, -⟩ := has_of_mem_attributesOf ha
  have hrow : ∀ row ∈ s.values table, row.isFor owner head.id = true →
      cellOf? (s.values table) owner head = some row.cell.kept := by
    intro row hrow hfor
    obtain ⟨rfl, hid⟩ := ValueRow.isFor_iff.mp hfor
    rw [h.sound.indexed.cellOf?_eq hrow hid.symm, (h.readsAs hrow hhead hid.symm).read]
  constructor
  · intro hcell
    obtain ⟨row, hfind, -⟩ := Option.bind_eq_some_iff.mp hcell
    have hmem := List.mem_of_find?_eq_some hfind
    have hfor : row.isFor owner head.id = true :=
      List.find?_some (p := fun q : ValueRow => q.isFor owner head.id) hfind
    exact ⟨row, hmem, hfor, Option.some.inj ((hrow row hmem hfor).symm.trans hcell)⟩
  · rintro ⟨row, hmem, hfor, rfl⟩
    exact hrow row hmem hfor

/-! ### Looking up -/

/-- A record of an object has a value of an attribute that is read back with a key. -/
structure KnownBy (s : Store) (objectId attributeId : Id) (key : String) (r : Record) : Prop where
  mem : r ∈ s.records
  object : r.objectId = objectId
  value : ∃ row ∈ s.recordValues, row.isFor r.id attributeId = true ∧
    row.cell.kept.canonicalKey = key

/-- The oldest of the records of an object that are known by a key. -/
structure Oldest (s : Store) (objectId attributeId : Id) (key : String) (r : Record) : Prop
    extends KnownBy s objectId attributeId key r where
  oldest : ∀ q, s.KnownBy objectId attributeId key q → olderRecord r q = true

theorem Oldest.eq (hi : s.Indexed) {attributeId : Id} {r q : Record}
    (hr : s.Oldest objectId attributeId key r) (hq : s.Oldest objectId attributeId key q) :
    r = q :=
  eq_of_pairwise_ne hi.records hr.mem hq.mem
    (id_eq_of_olderRecord (hr.oldest q hq.toKnownBy) (hq.oldest r hr.toKnownBy))

theorem Reachable.mem_found_iff (h : s.Reachable) (ha : a ∈ s.attributesOf parent) {r : Record} :
    r ∈ (s.recordsOf objectId).filter (fun r =>
      (cellOf? s.recordValues r.id a.toAttributeHead).any fun c => c.canonicalKey == key) ↔
      s.KnownBy objectId a.id key r := by
  rw [List.mem_filter, recordsOf, List.mem_filter, beq_iff_eq, Option.any_eq_true]
  have hread : ∀ c, cellOf? (s.values .records) r.id a.toAttributeHead = some c ↔ _ :=
    fun c => h.cellOf?_eq_some_iff ha
  constructor
  · rintro ⟨⟨hmem, hobject⟩, c, hc, hkey⟩
    obtain ⟨row, hrow, hfor, rfl⟩ := (hread c).mp hc
    exact ⟨hmem, hobject, row, hrow, hfor, beq_iff_eq.mp hkey⟩
  · rintro ⟨hmem, hobject, row, hrow, hfor, hkey⟩
    exact ⟨⟨hmem, hobject⟩, _, (hread _).mpr ⟨row, hrow, hfor, rfl⟩, beq_iff_eq.mpr hkey⟩

/-- Looking up a cell finds the oldest record that is known by its key. -/
theorem Reachable.oldest_of_oldestWith? (h : s.Reachable) (ha : a ∈ s.attributesOf parent)
    {cell : Cell} {r : Record} (hr : s.oldestWith? objectId a cell = some r) :
    s.Oldest objectId a.id cell.canonicalKey r := by
  obtain ⟨hmem, holdest⟩ := head?_mergeSort_olderRecord_eq_some hr
  exact ⟨(h.mem_found_iff ha).mp hmem, fun q hq => holdest q ((h.mem_found_iff ha).mpr hq)⟩

theorem Reachable.not_knownBy_of_oldestWith? (h : s.Reachable) (ha : a ∈ s.attributesOf parent)
    {cell : Cell} (hnone : s.oldestWith? objectId a cell = none) (r : Record) :
    ¬ s.KnownBy objectId a.id cell.canonicalKey r := by
  intro hknown
  have hmem := (List.mergeSort_perm _ olderRecord).mem_iff.mpr ((h.mem_found_iff ha).mpr hknown)
  rw [List.head?_eq_none_iff.mp hnone] at hmem
  cases hmem

theorem Reachable.oldestWith?_eq_some_iff (h : s.Reachable) (ha : a ∈ s.attributesOf parent)
    {cell : Cell} {r : Record} :
    s.oldestWith? objectId a cell = some r ↔ s.Oldest objectId a.id cell.canonicalKey r := by
  refine ⟨h.oldest_of_oldestWith? ha, fun hr => ?_⟩
  cases hfound : s.oldestWith? objectId a cell with
  | none => exact absurd hr.toKnownBy (h.not_knownBy_of_oldestWith? ha hfound r)
  | some q => rw [(h.oldest_of_oldestWith? ha hfound).eq h.sound.indexed hr]

theorem Reachable.oldestWith?_eq_none_iff (h : s.Reachable) (ha : a ∈ s.attributesOf parent)
    {cell : Cell} : s.oldestWith? objectId a cell = none ↔
      ∀ r, ¬ s.KnownBy objectId a.id cell.canonicalKey r := by
  refine ⟨h.not_knownBy_of_oldestWith? ha, fun hnone => ?_⟩
  cases hfound : s.oldestWith? objectId a cell with
  | none => rfl
  | some q => exact absurd (h.oldest_of_oldestWith? ha hfound).toKnownBy (hnone q)

end Store

end RecordStore
