import Mathlib.Data.String.Basic
import RecordStore.Proofs.Runs
import RecordStore.Proofs.RowOrder

/-!
# References with and without ranks

A key of a choice attribute compares two references by the ranks of their choices, and by text as
soon as one of them has no rank. The two orders need not agree: three references can come each
before the next, in a circle. Here it is said exactly when they do not. The key then puts the rows
into an order, and sorting gives one sequence however the rows were listed before. Nothing else
keeps a comparison of rows from being an order.
-/

namespace RecordStore

/-! ### References -/

section

variable {ranks : List (Id × Int)} {P : Id → Prop}

/-- No reference without a rank lies by its text between two whose ranks do not go up. -/
def Untangled (ranks : List (Id × Int)) (P : Id → Prop) : Prop :=
  ∀ ⦃a b u : Id⦄, P a → P b → P u → ∀ ⦃m n : Int⦄, ranks.lookup a = some m →
    ranks.lookup b = some n → ranks.lookup u = none → a.text < u.text → u.text < b.text → m < n

theorem compareReferences_ranked {a b : Id} {m n : Int} (ha : ranks.lookup a = some m)
    (hb : ranks.lookup b = some n) : compareReferences ranks a b = compare m n := by
  rw [compareReferences, ha, hb]

theorem compareReferences_unranked {a b : Id}
    (h : ranks.lookup a = none ∨ ranks.lookup b = none) :
    compareReferences ranks a b = compare a.text b.text := by
  rcases h with ha | hb
  · rw [compareReferences, ha]
  · rw [compareReferences, hb]
    cases ranks.lookup a <;> rfl

theorem compareReferences_swap (ranks : List (Id × Int)) (a b : Id) :
    compareReferences ranks a b = (compareReferences ranks b a).swap := by
  by_cases h : ranks.lookup a = none ∨ ranks.lookup b = none
  · rw [compareReferences_unranked h, compareReferences_unranked h.symm]
    exact Std.OrientedOrd.eq_swap
  · obtain ⟨ha, hb⟩ := not_or.mp h
    obtain ⟨m, hm⟩ := Option.ne_none_iff_exists'.mp ha
    obtain ⟨n, hn⟩ := Option.ne_none_iff_exists'.mp hb
    rw [compareReferences_ranked hm hn, compareReferences_ranked hn hm]
    exact Std.OrientedOrd.eq_swap

theorem isLE_ranked {a b : Id} {m n : Int} (ha : ranks.lookup a = some m)
    (hb : ranks.lookup b = some n) : (compareReferences ranks a b).isLE = true ↔ m ≤ n := by
  rw [compareReferences_ranked ha hb]
  exact Std.isLE_compare

theorem isLE_unranked {a b : Id} (h : ranks.lookup a = none ∨ ranks.lookup b = none) :
    (compareReferences ranks a b).isLE = true ↔ a.text ≤ b.text := by
  rw [compareReferences_unranked h, Ordering.isLE_iff_ne_gt]
  exact compare_le_iff_le

/-- A reference with a rank is not one without, so that their texts differ. -/
theorem text_lt_of_le (ranks : List (Id × Int)) {a b : Id} (hab : a.text ≤ b.text)
    (hne : ranks.lookup a ≠ ranks.lookup b) :
    a.text < b.text := by
  refine lt_of_le_of_ne hab fun htext => hne ?_
  rw [Id.text_injective htext]

theorem Untangled.isLE_trans (h : Untangled ranks P) {a b c : Id} (ha : P a) (hb : P b) (hc : P c)
    (hab : (compareReferences ranks a b).isLE = true)
    (hbc : (compareReferences ranks b c).isLE = true) :
    (compareReferences ranks a c).isLE = true := by
  cases hra : ranks.lookup a with
  | none =>
    rw [isLE_unranked (.inl hra)] at hab ⊢
    cases hrb : ranks.lookup b with
    | none =>
      rw [isLE_unranked (.inl hrb)] at hbc
      exact hab.trans hbc
    | some n =>
      cases hrc : ranks.lookup c with
      | none =>
        rw [isLE_unranked (.inr hrc)] at hbc
        exact hab.trans hbc
      | some p =>
        -- otherwise `a` lies between `c` and `b`, whose ranks do not go up
        rw [isLE_ranked hrb hrc] at hbc
        by_contra hca
        have hlt := text_lt_of_le ranks hab (by simp [hra, hrb])
        exact absurd (h hc hb ha hrc hrb hra (not_le.mp hca) hlt) (by omega)
  | some m =>
    cases hrb : ranks.lookup b with
    | none =>
      rw [isLE_unranked (.inr hrb)] at hab
      rw [isLE_unranked (.inl hrb)] at hbc
      cases hrc : ranks.lookup c with
      | none =>
        rw [isLE_unranked (.inr hrc)]
        exact hab.trans hbc
      | some p =>
        rw [isLE_ranked hra hrc]
        have hlt := text_lt_of_le ranks hab (by simp [hra, hrb])
        have hlt' := text_lt_of_le ranks hbc (by simp [hrb, hrc])
        exact (h ha hc hb hra hrc hrb hlt hlt').le
    | some n =>
      rw [isLE_ranked hra hrb] at hab
      cases hrc : ranks.lookup c with
      | none =>
        -- otherwise `c` lies between `b` and `a`, whose ranks do not go up
        rw [isLE_unranked (.inr hrc)] at hbc ⊢
        by_contra hca
        have hlt := text_lt_of_le ranks hbc (by simp [hrb, hrc])
        exact absurd (h hb ha hc hrb hra hrc hlt (not_le.mp hca)) (by omega)
      | some p =>
        rw [isLE_ranked hrb hrc] at hbc
        rw [isLE_ranked hra hrc]
        exact hab.trans hbc

theorem totalOn_compareReferences_iff :
    TotalOn P (compareReferences ranks) ↔ Untangled ranks P := by
  constructor
  · intro h a b u ha hb hu m n hra hrb hru hau hub
    by_contra hlt
    have hba : (compareReferences ranks b a).isLE = true := (isLE_ranked hrb hra).mpr (by omega)
    have hau' : (compareReferences ranks a u).isLE = true := (isLE_unranked (.inr hru)).mpr hau.le
    have hbu := h.isLE_trans hb ha hu hba hau'
    exact absurd ((isLE_unranked (.inr hru)).mp hbu) (not_le.mpr hub)
  · intro h
    exact {
      eq_swap := compareReferences_swap ranks _ _
      isLE_trans := fun {a b c} => h.isLE_trans a.2 b.2 c.2 }

/-! ### Cells and rows -/

theorem compareCells_swap (ranks : List (Id × Int)) (c d : Cell) :
    compareCells ranks c d = (compareCells ranks d c).swap := by
  cases c with
  | text a =>
    cases d with
    | text b => exact @Std.OrientedOrd.eq_swap _ _ _ (Text.fold a) (Text.fold b)
    | _ => rfl
  | number a _ =>
    cases d with
    | number b _ =>
      exact @Std.OrientedOrd.eq_swap _ _ _ a.totalPlace b.totalPlace
    | _ => rfl
  | boolean a =>
    cases d with
    | boolean b => exact @Std.OrientedOrd.eq_swap _ _ _ a b
    | _ => rfl
  | date a =>
    cases d with
    | date b => exact @Std.OrientedOrd.eq_swap _ _ _ a b
    | _ => rfl
  | reference a =>
    cases d with
    | reference b => exact compareReferences_swap ranks a b
    | _ => rfl
  | structured a =>
    cases d with
    | structured b => exact @Std.OrientedOrd.eq_swap _ _ _ a.text b.text
    | _ => rfl

theorem totalOn_compareCells_iff (ranks : List (Id × Int)) {P : Cell → Prop} {slot : Slot}
    (hslot : ∀ c, P c → c.slot = slot) :
    TotalOn P (compareCells ranks) ↔ Untangled ranks fun target => P (.reference target) := by
  rw [← totalOn_compareReferences_iff]
  constructor
  · exact fun h => h.comap (f := Cell.reference) fun _ htarget => htarget
  · intro h
    by_cases hreference : slot = .reference
    · have htargets : ∀ c, P c → c = .reference c.target := by
        intro c hc
        obtain ⟨id, rfl⟩ := Cell.form ((hslot c hc).trans hreference)
        rfl
      refine (h.comap (f := Cell.target) fun c hc => htargets c hc ▸ hc).congr fun c d hc hd => ?_
      rw [htargets c hc, htargets d hd]
      rfl
    · refine (totalOn_compareCells slot ranks).comap (f := id) fun c hc => ⟨hslot c hc, ?_⟩
      rintro id rfl
      exact absurd (hslot _ hc).symm hreference

theorem Direction.apply_apply (direction : Direction) (o : Ordering) :
    direction.apply (direction.apply o) = o := by
  cases direction <;> cases o <;> rfl

theorem Direction.apply_swap (direction : Direction) {o o' : Ordering} (h : o = o'.swap) :
    direction.apply o = (direction.apply o').swap := by
  subst h
  cases direction <;> cases o' <;> rfl

theorem comparePresent_swap {α : Type} {cmp : α → α → Ordering}
    (h : ∀ a b, cmp a b = (cmp b a).swap) (direction : Direction) (a b : Option α) :
    comparePresent direction cmp a b = (comparePresent direction cmp b a).swap := by
  cases a with
  | none => cases b <;> rfl
  | some a =>
    cases b with
    | none => rfl
    | some b => exact direction.apply_swap (h a b)

end

namespace SortKey

/-- The references that rows have for a key are compared in an order. -/
def Untangled (key : SortKey) (rows : List Row) : Prop :=
  match key.field with
  | .value id ranks => RecordStore.Untangled ranks fun target =>
      ∃ row ∈ rows, row.cells id = some (.reference target)
  | _ => True

/-- The values that rows have for a key lie in one slot. -/
def InSlot (key : SortKey) (slot : Slot) (rows : List Row) : Prop :=
  ∀ id ranks, key.field = .value id ranks → ∀ row ∈ rows, ∀ c, row.cells id = some c →
    c.slot = slot

theorem totalOn_iff_untangled {key : SortKey} {slot : Slot} {rows : List Row}
    (hslot : key.InSlot slot rows) :
    TotalOn (· ∈ rows) key.compareRows ↔ key.Untangled rows := by
  obtain ⟨field, direction⟩ := key
  cases field with
  | value id ranks =>
    have hcells : ∀ c, (∃ row ∈ rows, row.cells id = some c) → c.slot = slot := by
      rintro c ⟨row, hrow, hc⟩
      exact hslot id ranks rfl row hrow c hc
    refine Iff.trans ?_ (totalOn_compareCells_iff ranks hcells)
    constructor
    · intro h
      have happlied : TotalOn (fun c => ∃ row ∈ rows, row.cells id = some c)
          fun c d => direction.apply (compareCells ranks c d) := by
        have hsame : ∀ {a b : Row} {c d : Cell}, a.cells id = some c → b.cells id = some d →
            direction.apply (compareCells ranks c d) =
              SortKey.compareRows ⟨.value id ranks, direction⟩ a b := by
          intro a b c d hc hd
          change _ = comparePresent direction (compareCells ranks) (a.cells id) (b.cells id)
          rw [hc, hd]
          rfl
        refine { eq_swap := ?_, isLE_trans := ?_ }
        · rintro ⟨c, a, ha, hc⟩ ⟨d, b, hb, hd⟩
          dsimp only
          rw [hsame hc hd, hsame hd hc]
          exact h.eq_swap ha hb
        · rintro ⟨c, a, ha, hc⟩ ⟨d, b, hb, hd⟩ ⟨e, r, hr, he⟩ hcd hde
          dsimp only at hcd hde ⊢
          rw [hsame hc hd] at hcd
          rw [hsame hd he] at hde
          rw [hsame hc he]
          exact h.isLE_trans ha hb hr hcd hde
      exact (happlied.apply direction).congr fun c d _ _ => (direction.apply_apply _).symm
    · intro h
      exact (h.comparePresent direction).comap fun row hrow c hc => ⟨row, hrow, hc⟩
  | createdAt | updatedAt | position =>
    refine iff_of_true ?_ trivial
    exact (SortKey.totalOn_compareRows ⟨_, direction⟩ fun _ => slot).comap fun _ _ => trivial

theorem compareRows_swap (key : SortKey) (a b : Row) :
    key.compareRows a b = (key.compareRows b a).swap := by
  obtain ⟨field, direction⟩ := key
  cases field with
  | createdAt =>
    exact direction.apply_swap
      (@Std.OrientedOrd.eq_swap _ _ _ a.createdAt.micros b.createdAt.micros)
  | updatedAt =>
    exact direction.apply_swap
      (@Std.OrientedOrd.eq_swap _ _ _ a.updatedAt.micros b.updatedAt.micros)
  | position => exact comparePresent_swap (fun _ _ => Std.OrientedCmp.eq_swap) direction _ _
  | value id ranks => exact comparePresent_swap (compareCells_swap ranks) direction _ _

end SortKey

/-! ### Several keys -/

theorem exists_of_mem_keys {unknown : UnknownPolicy} {attributes : List Attribute}
    {sorts : List SortSpec} {keys : List SortKey}
    (h : compileSorts unknown attributes sorts = .ok keys) {id : Id} {ranks : List (Id × Int)}
    {direction : Direction} (hkey : ⟨.value id ranks, direction⟩ ∈ keys) :
    ∃ a ∈ attributes, a.id = id := by
  obtain ⟨named, hnamed, rfl⟩ := compileSorts_eq_ok_iff.mp h
  split at hkey
  · cases List.mem_singleton.mp hkey
  · obtain ⟨a, ha, hid, -⟩ := exists_of_mem_sortKeys hnamed hkey
    exact ⟨a, ha, hid⟩

theorem compareRows_swap (keys : List SortKey) (a b : Row) :
    compareRows keys a b = (compareRows keys b a).swap := by
  induction keys with
  | nil => exact (totalOn_ids fun _ => True).eq_swap trivial trivial
  | cons key rest ih =>
    rw [compareRows, compareRows, key.compareRows_swap, ih, Ordering.swap_then]

/-- Keys that each order the rows order them together, ties broken by the ids. -/
theorem totalOn_compareRows_of_forall {keys : List SortKey} {P : Row → Prop}
    (h : ∀ key ∈ keys, TotalOn P key.compareRows) : TotalOn P (compareRows keys) := by
  induction keys with
  | nil => exact totalOn_ids P
  | cons key rest ih =>
    exact (h key List.mem_cons_self).lex (ih fun k hk => h k (List.mem_cons_of_mem _ hk))

/-- Rows of different ids have one sequence if they have an order. -/
theorem sortRows_eq_of_perm {keys : List SortKey} {rows others : List Row}
    (h : TotalOn (· ∈ rows) (compareRows keys)) (hids : rows.Pairwise fun a b => a.id ≠ b.id)
    (hperm : others.Perm rows) : sortRows keys others = sortRows keys rows := by
  have hsorted : ∀ l : List Row, l.Perm rows →
      (sortRows keys l).Pairwise fun a b => compareRows keys a b = .lt := by
    intro l hl
    have hle : (sortRows keys l).Pairwise fun a b => (compareRows keys a b).isLE = true :=
      pairwise_mergeSort_of_totalOn h fun _ ha => hl.mem_iff.mp ha
    have hne : (sortRows keys l).Pairwise fun a b => a.id ≠ b.id :=
      ((sortRows_perm keys l).trans hl).symm.pairwise hids fun hab => hab.symm
    refine (hle.and hne).imp fun {a b} ⟨hle, hne⟩ => ?_
    refine (Ordering.isLE_iff_eq_lt_or_eq_eq.mp hle).resolve_right fun heq => ?_
    exact hne (id_eq_of_compareRows_eq heq)
  refine List.Perm.eq_of_pairwise (fun a b _ _ hab hba => ?_) (hsorted others hperm)
    (hsorted rows (.refl rows))
    (((sortRows_perm keys others).trans hperm).trans (sortRows_perm keys rows).symm)
  rw [compareRows_swap, hba] at hab
  cases hab

/-- The comparison of compiled sorts is antisymmetric and ties only what has one id. It is an
order, and leaves no choice to sorting, if no key's ranks are contradicted by the text of what has
no rank; and a key by itself is an order only then. -/
theorem orders_of_compileSorts {unknown : UnknownPolicy} {attributes : List Attribute}
    {sorts : List SortSpec} {keys : List SortKey} {rows : List Row}
    (hkeys : compileSorts unknown attributes sorts = .ok keys)
    (hslots : ∀ a ∈ attributes, a.id ∈ sortedAttributeIds keys → ∀ row ∈ rows,
      ∀ c, row.cells a.id = some c → c.slot = a.slot) :
    (∀ a b, compareRows keys a b = (compareRows keys b a).swap) ∧
    (∀ a b, compareRows keys a b = .eq → a.id = b.id) ∧
    (∀ key ∈ keys, TotalOn (· ∈ rows) key.compareRows ↔ key.Untangled rows) ∧
    ((∀ key ∈ keys, key.Untangled rows) →
      TotalOn (· ∈ rows) (compareRows keys) ∧
      ((rows.Pairwise fun a b => a.id ≠ b.id) →
        ∀ others, others.Perm rows → sortRows keys others = sortRows keys rows)) := by
  have hiff : ∀ key ∈ keys, TotalOn (· ∈ rows) key.compareRows ↔ key.Untangled rows := by
    intro key hkey
    suffices hslot : ∃ slot, key.InSlot slot rows from
      SortKey.totalOn_iff_untangled hslot.choose_spec
    obtain ⟨field, direction⟩ := key
    cases field with
    | value id ranks =>
      obtain ⟨a, ha, rfl⟩ := exists_of_mem_keys hkeys hkey
      refine ⟨a.slot, fun id' ranks' heq row hrow c hc => ?_⟩
      cases heq
      exact hslots a ha (List.mem_filterMap.mpr ⟨_, hkey, rfl⟩) row hrow c hc
    | createdAt | updatedAt | position =>
      refine ⟨.text, fun id ranks heq => ?_⟩
      cases heq
  refine ⟨compareRows_swap keys, fun a b => id_eq_of_compareRows_eq, hiff, fun huntangled => ?_⟩
  have htotal := totalOn_compareRows_of_forall fun key hkey => (hiff key hkey).mpr
    (huntangled key hkey)
  exact ⟨htotal, fun hids others hperm => sortRows_eq_of_perm htotal hids hperm⟩

/-! ### Stages in a circle -/

section

open Store (exampleId)

/-- The choices of a deal's stage, not in the order of their ids. -/
def stage : Attribute where
  id := exampleId 0 9
  parent := .object (exampleId 0 0)
  slug := "stage"
  title := "Stage"
  type := .select
  settings := .null
  isSystem := false
  isRequired := false
  isUnique := false
  isSet := false
  sortOrder := 0
  createdAt := ⟨0⟩
  options := [⟨exampleId 1 3, exampleId 0 9, "Lead", none, 0⟩,
    ⟨exampleId 1 4, exampleId 0 9, "Offer", none, 1⟩,
    ⟨exampleId 1 1, exampleId 0 9, "Won", none, 2⟩]
  statuses := []

def stageKey : SortKey :=
  ⟨.value (exampleId 0 9) [(exampleId 1 1, 2), (exampleId 1 4, 1), (exampleId 1 3, 0)], .ascending⟩

def stageRow (place choice : UInt8) : Row :=
  ⟨exampleId 0 place, ⟨0⟩, ⟨0⟩, none,
    fun id => if id = exampleId 0 9 then some (.reference (exampleId 1 choice)) else none⟩

theorem slot_stageRow {place choice : UInt8} {c : Cell}
    (h : (stageRow place choice).cells stage.id = some c) : c.slot = stage.slot := by
  cases h
  rfl

theorem compileSorts_stage :
    compileSorts .reject [stage] [⟨"stage", .ascending⟩] = .ok [stageKey] := by
  cbv

theorem untangled_stages : stageKey.Untangled [stageRow 1 3, stageRow 2 4, stageRow 3 5] := by
  have htargets : ∀ target, (∃ row ∈ [stageRow 1 3, stageRow 2 4, stageRow 3 5],
      row.cells (exampleId 0 9) = some (.reference target)) →
      target = exampleId 1 3 ∨ target = exampleId 1 4 ∨ target = exampleId 1 5 := by
    rintro target ⟨row, hrow, hc⟩
    simp only [List.mem_cons, List.not_mem_nil, or_false] at hrow
    rcases hrow with rfl | rfl | rfl <;> cases hc <;> simp
  intro a b u _ hb hu m n _ hrb hru _ hub
  exfalso
  rcases htargets u hu with rfl | rfl | rfl
  · cases hru
  · cases hru
  · rcases htargets b hb with rfl | rfl | rfl
    · exact absurd hub (by decide +kernel)
    · exact absurd hub (by decide +kernel)
    · cases hrb

/-- A choice without a rank that lies by text after all others leaves the rows an order. -/
theorem orders_of_stages :
    TotalOn (· ∈ [stageRow 1 3, stageRow 2 4, stageRow 3 5]) (compareRows [stageKey]) := by
  have hslots : ∀ a ∈ [stage], a.id ∈ sortedAttributeIds [stageKey] →
      ∀ row ∈ [stageRow 1 3, stageRow 2 4, stageRow 3 5], ∀ c,
        row.cells a.id = some c → c.slot = a.slot := by
    rintro a ha - row hrow c hc
    cases List.mem_singleton.mp ha
    simp only [List.mem_cons, List.not_mem_nil, or_false] at hrow
    rcases hrow with rfl | rfl | rfl <;> exact slot_stageRow hc
  refine ((orders_of_compileSorts compileSorts_stage hslots).2.2.2 fun key hkey => ?_).1
  cases List.mem_singleton.mp hkey
  exact untangled_stages

/-- Sorting compares neighbours, and what the halves begin with. -/
theorem sortRows_of_neighbours {keys : List SortKey} {a b c d : Row}
    (hab : (compareRows keys a b).isLE = true) (hbc : (compareRows keys b c).isLE = true)
    (hcd : (compareRows keys c d).isLE = true) (hac : (compareRows keys a c).isLE = true) :
    sortRows keys [a, b, c, d] = [a, b, c, d] := by
  simp [sortRows, List.mergeSort, hab, hbc, hcd, hac]

/-- A choice without a rank closes a circle, so that one list of rows sorts into two sequences. -/
theorem circle_of_stages :
    compileSorts .reject [stage] [⟨"stage", .ascending⟩] = .ok [stageKey] ∧
      (∀ a ∈ [stage], a.id ∈ sortedAttributeIds [stageKey] →
        ∀ row ∈ [stageRow 1 2, stageRow 2 3, stageRow 3 4, stageRow 4 1], ∀ c,
          row.cells a.id = some c → c.slot = a.slot) ∧
      (([stageRow 1 2, stageRow 2 3, stageRow 3 4, stageRow 4 1].map Row.id).Nodup) ∧
      compareRows [stageKey] (stageRow 1 2) (stageRow 2 3) = .lt ∧
      compareRows [stageKey] (stageRow 2 3) (stageRow 4 1) = .lt ∧
      compareRows [stageKey] (stageRow 4 1) (stageRow 1 2) = .lt ∧
      sortRows [stageKey] [stageRow 1 2, stageRow 2 3, stageRow 3 4, stageRow 4 1] =
        [stageRow 1 2, stageRow 2 3, stageRow 3 4, stageRow 4 1] ∧
      sortRows [stageKey] [stageRow 2 3, stageRow 3 4, stageRow 4 1, stageRow 1 2] =
        [stageRow 2 3, stageRow 3 4, stageRow 4 1, stageRow 1 2] := by
  have h12 : compareRows [stageKey] (stageRow 1 2) (stageRow 2 3) = .lt := by decide +kernel
  have h23 : compareRows [stageKey] (stageRow 2 3) (stageRow 3 4) = .lt := by decide +kernel
  have h34 : compareRows [stageKey] (stageRow 3 4) (stageRow 4 1) = .lt := by decide +kernel
  have h41 : compareRows [stageKey] (stageRow 4 1) (stageRow 1 2) = .lt := by decide +kernel
  have h13 : compareRows [stageKey] (stageRow 1 2) (stageRow 3 4) = .lt := by decide +kernel
  have h24 : compareRows [stageKey] (stageRow 2 3) (stageRow 4 1) = .lt := by decide +kernel
  refine ⟨compileSorts_stage, ?_, by decide +kernel, h12, h24, h41, ?_, ?_⟩
  · rintro a ha - row hrow c hc
    cases List.mem_singleton.mp ha
    simp only [List.mem_cons, List.not_mem_nil, or_false] at hrow
    rcases hrow with rfl | rfl | rfl | rfl <;> exact slot_stageRow hc
  · apply sortRows_of_neighbours <;> simp only [h12, h23, h34, h13, Ordering.isLE_lt]
  · apply sortRows_of_neighbours <;> simp only [h23, h34, h41, h24, Ordering.isLE_lt]

end

end RecordStore
