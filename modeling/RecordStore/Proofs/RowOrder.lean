import RecordStore.Query.Basic
import Mathlib.Data.List.Nodup

/-!
# The order of rows

Which of two rows comes first is said here without a comparison function: by the first key that
tells them apart, where a row that lacks a key's value comes last whatever the direction, and by
their ids if there is no such key. Sorting brings rows into this order, provided that values of a
key can be compared with one another: that they lie in one slot, and that references either all
have ranks or all have none.
-/

namespace RecordStore

/-! ### Comparisons that order -/

/-- A comparison orders the things of which something holds: totally, up to ties. -/
def TotalOn {α : Type} (P : α → Prop) (cmp : α → α → Ordering) : Prop :=
  Std.TransCmp fun a b : { a // P a } => cmp a b

namespace TotalOn

variable {α β : Type} {P : α → Prop} {Q : β → Prop} {cmp cmp' : α → α → Ordering}

theorem eq_swap (h : TotalOn P cmp) {a b : α} (ha : P a) (hb : P b) :
    cmp a b = (cmp b a).swap :=
  h.toOrientedCmp.eq_swap (a := ⟨a, ha⟩) (b := ⟨b, hb⟩)

theorem isLE_trans (h : TotalOn P cmp) {a b c : α} (ha : P a) (hb : P b) (hc : P c)
    (hab : (cmp a b).isLE = true) (hbc : (cmp b c).isLE = true) : (cmp a c).isLE = true :=
  @Std.TransCmp.isLE_trans _ _ h ⟨a, ha⟩ ⟨b, hb⟩ ⟨c, hc⟩ hab hbc

theorem of_transCmp [h : Std.TransCmp cmp] : TotalOn P cmp where
  eq_swap := h.eq_swap
  isLE_trans := h.isLE_trans

theorem congr (h : TotalOn P cmp) (heq : ∀ a b, P a → P b → cmp' a b = cmp a b) :
    TotalOn P cmp' := by
  have hsame : (fun a b : { a // P a } => cmp' a b) = fun a b : { a // P a } => cmp a b := by
    funext a b
    exact heq a b a.2 b.2
  rw [TotalOn, hsame]
  exact h

theorem comap {cmp : β → β → Ordering} (h : TotalOn Q cmp) {f : α → β} (hf : ∀ a, P a → Q (f a)) :
    TotalOn P fun a b => cmp (f a) (f b) where
  eq_swap {a b} := h.eq_swap (hf a a.2) (hf b b.2)
  isLE_trans {a b c} := h.isLE_trans (hf a a.2) (hf b b.2) (hf c c.2)

theorem of_key {κ : Type} [Ord κ] [Std.TransOrd κ] {f : α → κ}
    (h : ∀ a b, P a → P b → cmp a b = compare (f a) (f b)) : TotalOn P cmp :=
  ((of_transCmp (P := fun _ => True)).comap fun _ _ => trivial).congr h

theorem apply (h : TotalOn P cmp) (direction : Direction) :
    TotalOn P fun a b => direction.apply (cmp a b) := by
  cases direction with
  | ascending => exact h
  | descending =>
    exact {
      eq_swap := fun {a b} => by
        simp only [Direction.apply]
        rw [h.eq_swap a.2 b.2]
      isLE_trans := fun {a b c} hab hbc => by
        simp only [Direction.apply] at hab hbc ⊢
        rw [← h.eq_swap b.2 a.2] at hab
        rw [← h.eq_swap c.2 b.2] at hbc
        rw [← h.eq_swap c.2 a.2]
        exact h.isLE_trans c.2 b.2 a.2 hbc hab }

/-- What is missing comes after what is there. -/
theorem comparePresent (h : TotalOn P cmp) (direction : Direction) :
    TotalOn (fun o : Option α => ∀ a, o = some a → P a) (comparePresent direction cmp) where
  eq_swap := by
    rintro ⟨_ | a, ha⟩ ⟨_ | b, hb⟩
    · rfl
    · rfl
    · rfl
    · exact (h.apply direction).eq_swap (ha a rfl) (hb b rfl)
  isLE_trans := by
    rintro ⟨_ | a, ha⟩ ⟨_ | b, hb⟩ ⟨_ | c, hc⟩ hab hbc
    · rfl
    · exact hbc
    · rfl
    · cases hab
    · rfl
    · cases hbc
    · rfl
    · exact (h.apply direction).isLE_trans (ha a rfl) (hb b rfl) (hc c rfl) hab hbc

theorem lex (h : TotalOn P cmp) (h' : TotalOn P cmp') :
    TotalOn P fun a b => (cmp a b).then (cmp' a b) := by
  have : Std.TransCmp fun a b : { a // P a } => cmp a b := h
  have : Std.TransCmp fun a b : { a // P a } => cmp' a b := h'
  exact inferInstanceAs (Std.TransCmp
    (compareLex (fun a b : { a // P a } => cmp a b) fun a b => cmp' a b))

end TotalOn

theorem pairwise_mergeSort_of_totalOn {α : Type} {P : α → Prop} {cmp : α → α → Ordering}
    (h : TotalOn P cmp) {l : List α} (hl : ∀ a ∈ l, P a) :
    (l.mergeSort fun a b => (cmp a b).isLE).Pairwise fun a b => (cmp a b).isLE = true := by
  have hval : l.attach.map Subtype.val = l := List.attach_map_subtype_val l
  have hsorted : (l.attach.mergeSort fun a b => (cmp a b).isLE).map Subtype.val =
      l.mergeSort fun a b => (cmp a b).isLE := by
    rw [List.map_mergeSort (s := fun a b => (cmp a b).isLE) fun _ _ _ _ => rfl, hval]
  rw [← hsorted, List.pairwise_map]
  refine List.pairwise_mergeSort (fun a b c hab hbc => ?_) (fun a b => ?_) _
  · exact h.isLE_trans (hl a a.2) (hl b b.2) (hl c c.2) hab hbc
  · rw [h.eq_swap (hl b b.2) (hl a a.2)]
    cases cmp a b <;> rfl

/-! ### Values that can be compared -/

/-- Cells that can be compared with one another: of one slot, and references only if all of them
have ranks or none has. -/
def Comparable (slot : Slot) (ranks : List (Id × Int)) (c : Cell) : Prop :=
  c.slot = slot ∧ ∀ id, c = .reference id → ranks = [] ∨ (ranks.lookup id).isSome = true

theorem totalOn_compareReferences (ranks : List (Id × Int)) :
    TotalOn (fun id => ranks = [] ∨ (ranks.lookup id).isSome = true) (compareReferences ranks) := by
  by_cases hranks : ranks = []
  · subst hranks
    exact .of_key (f := Id.text) fun _ _ _ _ => rfl
  · refine .of_key (f := fun id => (ranks.lookup id).getD 0) fun a b ha hb => ?_
    obtain ⟨m, hm⟩ := Option.isSome_iff_exists.mp (ha.resolve_left hranks)
    obtain ⟨n, hn⟩ := Option.isSome_iff_exists.mp (hb.resolve_left hranks)
    simp only [compareReferences, hm, hn, Option.getD_some]

theorem Cell.form {c : Cell} {slot : Slot} (h : c.slot = slot) : match slot with
    | .text => ∃ s, c = .text s
    | .number => ∃ value unit, c = .number value unit
    | .boolean => ∃ b, c = .boolean b
    | .date => ∃ micros, c = .date micros
    | .structured => ∃ j, c = .structured j
    | .reference => ∃ id, c = .reference id := by
  subst h
  cases c with
  | number value unit => exact ⟨value, unit, rfl⟩
  | _ content => exact ⟨content, rfl⟩

def Cell.foldedText : Cell → String
  | .text s => Text.fold s
  | _ => ""

def Cell.numberPlace : Cell → Int
  | .number value _ => value.totalPlace
  | _ => 0

def Cell.truth : Cell → Bool
  | .boolean b => b
  | _ => false

def Cell.moment : Cell → Int
  | .date micros => micros
  | _ => 0

def Cell.jsonText : Cell → String
  | .structured j => j.text
  | _ => ""

def Cell.target : Cell → Id
  | .reference id => id
  | _ => default

theorem totalOn_compareCells (slot : Slot) (ranks : List (Id × Int)) :
    TotalOn (Comparable slot ranks) (compareCells ranks) := by
  cases slot with
  | text =>
    refine .of_key (f := Cell.foldedText) fun a b ha hb => ?_
    obtain ⟨s, rfl⟩ := Cell.form ha.1
    obtain ⟨t, rfl⟩ := Cell.form hb.1
    rfl
  | number =>
    refine .of_key (f := Cell.numberPlace) fun a b ha hb => ?_
    obtain ⟨d, u, rfl⟩ := Cell.form ha.1
    obtain ⟨e, v, rfl⟩ := Cell.form hb.1
    rfl
  | boolean =>
    refine .of_key (f := Cell.truth) fun a b ha hb => ?_
    obtain ⟨x, rfl⟩ := Cell.form ha.1
    obtain ⟨y, rfl⟩ := Cell.form hb.1
    rfl
  | date =>
    refine .of_key (f := Cell.moment) fun a b ha hb => ?_
    obtain ⟨m, rfl⟩ := Cell.form ha.1
    obtain ⟨n, rfl⟩ := Cell.form hb.1
    rfl
  | structured =>
    refine .of_key (f := Cell.jsonText) fun a b ha hb => ?_
    obtain ⟨j, rfl⟩ := Cell.form ha.1
    obtain ⟨k, rfl⟩ := Cell.form hb.1
    rfl
  | reference =>
    have htargets : ∀ a, Comparable .reference ranks a →
        ranks = [] ∨ (ranks.lookup a.target).isSome = true := by
      intro a ha
      obtain ⟨x, rfl⟩ := Cell.form ha.1
      exact ha.2 x rfl
    refine ((totalOn_compareReferences ranks).comap htargets).congr fun a b ha hb => ?_
    obtain ⟨x, rfl⟩ := Cell.form ha.1
    obtain ⟨y, rfl⟩ := Cell.form hb.1
    rfl

/-! ### Rows that can be compared -/

/-- A row whose value for a key, if it has one, can be compared. -/
def SortKey.Compares (key : SortKey) (slotOf : Id → Slot) (row : Row) : Prop :=
  match key.field with
  | .value id ranks => ∀ c, row.cells id = some c → Comparable (slotOf id) ranks c
  | _ => True

theorem SortKey.totalOn_compareRows (key : SortKey) (slotOf : Id → Slot) :
    TotalOn (key.Compares slotOf) key.compareRows := by
  obtain ⟨field, direction⟩ := key
  cases field with
  | createdAt =>
    exact (TotalOn.of_key (f := fun row : Row => row.createdAt.micros)
      fun _ _ _ _ => rfl).apply direction
  | updatedAt =>
    exact (TotalOn.of_key (f := fun row : Row => row.updatedAt.micros)
      fun _ _ _ _ => rfl).apply direction
  | position =>
    have hplaces : TotalOn (fun _ : Int => True) compare := .of_transCmp
    exact (hplaces.comparePresent direction).comap fun _ _ _ _ => trivial
  | value id ranks =>
    exact ((totalOn_compareCells (slotOf id) ranks).comparePresent direction).comap
      fun _ hrow => hrow

theorem totalOn_ids (P : Row → Prop) : TotalOn P fun a b => compare a.id b.id :=
  .of_key (f := fun row : Row => row.id.bytes) fun _ _ _ _ => rfl

theorem totalOn_compareRows (keys : List SortKey) (slotOf : Id → Slot) :
    TotalOn (fun row => ∀ key ∈ keys, key.Compares slotOf row) (compareRows keys) := by
  induction keys with
  | nil => exact totalOn_ids _
  | cons key rest ih =>
    have hkey := (key.totalOn_compareRows slotOf).comap (f := fun row : Row => row)
      (P := fun row => ∀ k ∈ key :: rest, k.Compares slotOf row)
      fun _ hrow => (List.forall_mem_cons.mp hrow).1
    have hrest := ih.comap (f := fun row : Row => row)
      (P := fun row => ∀ k ∈ key :: rest, k.Compares slotOf row)
      fun _ hrow => (List.forall_mem_cons.mp hrow).2
    exact hkey.lex hrest

/-! ### What comes first -/

namespace SortField

def isPresent : SortField → Row → Bool
  | .createdAt, _ | .updatedAt, _ => true
  | .position, row => row.position.isSome
  | .value id _, row => (row.cells id).isSome

def order : SortField → Row → Row → Ordering
  | .createdAt, a, b => compare a.createdAt.micros b.createdAt.micros
  | .updatedAt, a, b => compare a.updatedAt.micros b.updatedAt.micros
  | .position, a, b =>
    match a.position, b.position with
    | some m, some n => compare m n
    | _, _ => .eq
  | .value id ranks, a, b =>
    match a.cells id, b.cells id with
    | some c, some d => compareCells ranks c d
    | _, _ => .eq

end SortField

/-- The outcome of a comparison that puts the first thing first. -/
def Direction.first : Direction → Ordering
  | .ascending => .lt
  | .descending => .gt

/-- A row comes before another by the first key that tells them apart, or else by id. -/
inductive Precedes : List SortKey → Row → Row → Prop
  /-- What lacks the value comes last, whatever the direction. -/
  | present {key : SortKey} {rest : List SortKey} {a b : Row}
      (ha : key.field.isPresent a = true) (hb : key.field.isPresent b = false) :
      Precedes (key :: rest) a b
  | value {key : SortKey} {rest : List SortKey} {a b : Row}
      (ha : key.field.isPresent a = true) (hb : key.field.isPresent b = true)
      (order : key.field.order a b = key.direction.first) : Precedes (key :: rest) a b
  | tied {key : SortKey} {rest : List SortKey} {a b : Row}
      (present : key.field.isPresent a = key.field.isPresent b)
      (order : key.field.isPresent a = true → key.field.order a b = .eq)
      (others : Precedes rest a b) : Precedes (key :: rest) a b
  | id {a b : Row} (order : compare a.id b.id = .lt) : Precedes [] a b

theorem SortKey.compareRows_eq (key : SortKey) (a b : Row) :
    key.compareRows a b = match key.field.isPresent a, key.field.isPresent b with
      | true, true => key.direction.apply (key.field.order a b)
      | true, false => .lt
      | false, true => .gt
      | false, false => .eq := by
  obtain ⟨field, direction⟩ := key
  cases field with
  | createdAt => rfl
  | updatedAt => rfl
  | position =>
    cases ha : a.position <;> cases hb : b.position <;>
      simp [SortKey.compareRows, comparePresent, SortField.isPresent, SortField.order, ha, hb]
  | value id ranks =>
    cases ha : a.cells id <;> cases hb : b.cells id <;>
      simp [SortKey.compareRows, comparePresent, SortField.isPresent, SortField.order, ha, hb]

theorem Direction.apply_eq_lt_iff {direction : Direction} {o : Ordering} :
    direction.apply o = .lt ↔ o = direction.first := by
  cases direction <;> cases o <;> decide

theorem Direction.apply_eq_eq_iff {direction : Direction} {o : Ordering} :
    direction.apply o = .eq ↔ o = .eq := by
  cases direction <;> cases o <;> decide

theorem precedes_iff_compareRows {keys : List SortKey} {a b : Row} :
    Precedes keys a b ↔ compareRows keys a b = .lt := by
  induction keys with
  | nil =>
    constructor
    · rintro ⟨⟩
      assumption
    · exact .id
  | cons key rest ih =>
    rw [compareRows, Ordering.then_eq_lt, key.compareRows_eq, ← ih]
    constructor
    · rintro (⟨ha, hb⟩ | ⟨ha, hb, horder⟩ | ⟨hpresent, horder, hothers⟩)
      · simp [ha, hb]
      · simp [ha, hb, Direction.apply_eq_lt_iff, horder]
      · refine .inr ⟨?_, hothers⟩
        cases ha : key.field.isPresent a with
        | true => simp [← hpresent, ha, Direction.apply_eq_eq_iff, horder ha]
        | false => simp [← hpresent, ha]
    · cases ha : key.field.isPresent a <;> cases hb : key.field.isPresent b
      · simpa using fun h => .tied (ha.trans hb.symm) (by simp [ha]) h
      · simp
      · simpa using .present ha hb
      · simp only [Direction.apply_eq_lt_iff, Direction.apply_eq_eq_iff]
        rintro (horder | ⟨horder, hothers⟩)
        · exact .value ha hb horder
        · exact .tied (ha.trans hb.symm) (fun _ => horder) hothers

theorem id_eq_of_compareRows_eq {keys : List SortKey} {a b : Row}
    (h : compareRows keys a b = .eq) : a.id = b.id := by
  induction keys with
  | nil =>
    have hbytes : a.id.bytes = b.id.bytes := Std.LawfulEqOrd.eq_of_compare h
    cases ha : a.id
    cases hb : b.id
    simp_all
  | cons key rest ih =>
    rw [compareRows, Ordering.then_eq_eq] at h
    exact ih h.2

/-- Sorted rows of different ids are in order. -/
theorem pairwise_precedes_sortRows {keys : List SortKey} {slotOf : Id → Slot} {rows : List Row}
    (hrows : ∀ row ∈ rows, ∀ key ∈ keys, key.Compares slotOf row)
    (hids : rows.Pairwise fun a b => a.id ≠ b.id) :
    (sortRows keys rows).Pairwise (Precedes keys) := by
  have hsorted : (sortRows keys rows).Pairwise fun a b => (compareRows keys a b).isLE = true :=
    pairwise_mergeSort_of_totalOn (totalOn_compareRows keys slotOf) hrows
  have hids' : (sortRows keys rows).Pairwise fun a b => a.id ≠ b.id :=
    (sortRows_perm keys rows).symm.pairwise hids fun h => h.symm
  refine (hsorted.and hids').imp fun {a b} ⟨hle, hne⟩ => precedes_iff_compareRows.mpr ?_
  cases hcompare : compareRows keys a b with
  | lt => rfl
  | eq => exact absurd (id_eq_of_compareRows_eq hcompare) hne
  | gt =>
    rw [hcompare] at hle
    cases hle

/-- Of two rows that can be compared at most one comes before the other. -/
theorem Precedes.not_swap {keys : List SortKey} {slotOf : Id → Slot} {a b : Row}
    (ha : ∀ key ∈ keys, key.Compares slotOf a) (hb : ∀ key ∈ keys, key.Compares slotOf b)
    (h : Precedes keys a b) : ¬ Precedes keys b a := by
  intro h'
  have hswap := (totalOn_compareRows keys slotOf).eq_swap ha hb
  rw [precedes_iff_compareRows.mp h, precedes_iff_compareRows.mp h'] at hswap
  cases hswap

end RecordStore
