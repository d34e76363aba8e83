import RecordStore.Proofs.Choices
import RecordStore.Proofs.Loading

/-!
# Rankings

A query ranks the records of an object or the entries of a list: those whose rows it accepts, in
the order of its keys. There is just one such ranking, because in a store that calls have led to
all values of one attribute can be compared: they lie in its slot, and references to choices have
ranks.
-/

namespace RecordStore

/-! ### Rankings of items -/

namespace CompiledQuery

variable {α : Type}

/-- Items as a query ranks them by their rows: those accepted, each once, in the order of the keys.
No other sequence of them is in that order. -/
structure Ranks (q : CompiledQuery) (row : α → Row) (items ranked : List α) : Prop where
  accepted : ranked.Perm (items.filter fun x => q.accepts (row x))
  nodup : ranked.Nodup
  ordered : ranked.Pairwise fun x y => Precedes q.keys (row x) (row y)
  unique : ∀ other : List α, other.Perm (items.filter fun x => q.accepts (row x)) →
    (other.Pairwise fun x y => Precedes q.keys (row x) (row y)) → other = ranked

theorem ranks_rank {q : CompiledQuery} {row : α → Row} {items : List α} {slotOf : Id → Slot}
    (hids : items.Pairwise fun x y => (row x).id ≠ (row y).id)
    (hrows : ∀ x ∈ items, ∀ key ∈ q.keys, key.Compares slotOf (row x)) :
    q.Ranks row items (q.rank row items) := by
  have hperm := q.rank_perm row items
  have haccepted : (items.filter fun x => q.accepts (row x)).Pairwise
      fun x y => (row x).id ≠ (row y).id := hids.filter _
  have hmem : ∀ r ∈ (items.filter fun x => q.accepts (row x)).map row, ∀ key ∈ q.keys,
      key.Compares slotOf r := by
    intro r hr
    obtain ⟨x, hx, rfl⟩ := List.mem_map.mp hr
    exact hrows x (List.mem_filter.mp hx).1
  have hrank : (q.rank row items).map row =
      sortRows q.keys ((items.filter fun x => q.accepts (row x)).map row) := by
    rw [← select_map fun x _ => ⟨rfl, rfl, rfl, rfl, fun _ _ => rfl⟩, select, List.filter_map]
    rfl
  have hordered : (q.rank row items).Pairwise fun x y => Precedes q.keys (row x) (row y) := by
    rw [← List.pairwise_map, hrank]
    exact pairwise_precedes_sortRows hmem (List.pairwise_map.mpr haccepted)
  -- two rankings of the same items differ nowhere, since no two items come before each other
  refine ⟨hperm, ?_, hordered, fun other hother h => ?_⟩
  · refine hperm.nodup_iff.mpr (haccepted.imp fun hne heq => hne ?_)
    rw [heq]
  · refine (hother.trans hperm.symm).eq_of_pairwise (fun x y hx hy hxy hyx => ?_) h hordered
    have hx' := hrows x (List.mem_filter.mp (hother.subset hx)).1
    have hy' := hrows y (List.mem_filter.mp (hperm.subset hy)).1
    exact absurd hyx (hxy.not_swap hx' hy')

end CompiledQuery

/-! ### Rows that can be compared -/

namespace Store

variable {s : Store}

theorem Offers.isSome_lookup {a : AttributeHead} {id : Id} (h : s.Offers a id) :
    choiceRanks (s.withChoices a) = [] ∨
      ((choiceRanks (s.withChoices a)).lookup id).isSome = true := by
  have htype : (s.withChoices a).type = a.type := rfl
  rw [Offers] at h
  cases hcase : a.type with
  | select =>
    rw [hcase] at h
    obtain ⟨o, ho, hattribute, rfl⟩ := h
    refine .inr ?_
    rw [choiceRanks, htype, hcase]
    refine isSome_lookup_lastOfEach (p := (o.id, o.sortOrder.toInt)) (List.mem_map_of_mem ?_)
    simp [withChoices, hcase, ho, hattribute]
  | status =>
    rw [hcase] at h
    obtain ⟨u, hu, hattribute, rfl⟩ := h
    refine .inr ?_
    rw [choiceRanks, htype, hcase]
    refine isSome_lookup_lastOfEach (p := (u.id, u.sortOrder.toInt)) (List.mem_map_of_mem ?_)
    simp [withChoices, hcase, hu, hattribute]
  | _ => exact .inl (by rw [choiceRanks, htype, hcase])

def slotAmong (attributes : List Attribute) (id : Id) : Slot :=
  ((attributes.find? fun a => a.id == id).map fun a => a.slot).getD .text

/-- Loaded values of one attribute can be compared. -/
theorem comparable_of_cellsOf (h : s.Offered) {table : ValueTable} {attributes : List Attribute}
    {owner : Id} {a : Attribute} (ha : s.Has a) {c : Cell}
    (hc : cellsOf (s.values table) attributes owner a.id = some c) :
    Comparable (slotAmong attributes a.id) (choiceRanks a) c := by
  obtain ⟨b, hfind, hb⟩ := Option.bind_eq_some_iff.mp hc
  obtain ⟨row, hrow, hread⟩ := Option.bind_eq_some_iff.mp hb
  have hid : b.id = a.id := (mem_of_find?_key hfind).2
  have hattribute : row.attributeId = b.id :=
    (ValueRow.isFor_iff.mp (by simpa using List.find?_some hrow)).2
  rw [ValueRow.read?] at hread
  split at hread
  · rename_i hslot
    cases hread
    refine ⟨?_, fun id hreference => ?_⟩
    · rw [Cell.slot_kept, hslot, slotAmong, hfind]
      rfl
    · obtain ⟨head, hhead, rfl⟩ := ha
      have hcell : row.cell = .reference id := by
        cases hcase : row.cell <;> simp_all [Cell.kept]
      exact (h table row (List.mem_of_find?_eq_some hrow) head hhead
        (hid.symm.trans hattribute.symm) id (hcell ▸ .single)).isSome_lookup
  · cases hread

theorem compares_of_compileQuery (h : s.Offered) {unknown : UnknownPolicy} {parent : Parent}
    {q : Query} {compiled : CompiledQuery}
    (hcompiled : compileQuery unknown (s.attributesOf parent) q = .ok compiled)
    (table : ValueTable) (owner : Id) {row : Row}
    (hcells : row.cells = cellsOf (s.values table) (s.attributesOf parent) owner) :
    ∀ key ∈ compiled.keys, key.Compares (slotAmong (s.attributesOf parent)) row := by
  obtain ⟨named, hnamed, hkeys⟩ := exists_sortKeys_of_compileQuery hcompiled
  rintro ⟨field, direction⟩ hkey
  rw [hkeys] at hkey
  cases field with
  | value id ranks =>
    have hkey' : ⟨.value id ranks, direction⟩ ∈ named := by
      split at hkey
      · simp at hkey
      · exact hkey
    obtain ⟨a, ha, rfl, rfl⟩ := exists_of_mem_sortKeys hnamed hkey'
    intro c hc
    rw [hcells] at hc
    exact comparable_of_cellsOf h (has_of_mem_attributesOf ha).1 hc
  | _ => trivial

end Store

end RecordStore
