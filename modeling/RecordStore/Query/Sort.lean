import RecordStore.Query.Filter

/-!
# Sorting

Rows are ordered by several keys in turn and at last by their id, so that no two rows are tied. A
row without a value for a key comes after those with one, whatever the direction. Without any key
the newest row comes first.
-/

namespace RecordStore

/-! ### Sorts as given -/

inductive Direction where
  | ascending | descending
deriving DecidableEq

/-- A sort by an attribute or by one of the names that stand for a row's own data. -/
structure SortSpec where
  name : String
  direction : Direction
deriving DecidableEq

/-! ### Keys -/

inductive SortField where
  | createdAt
  | updatedAt
  | position
  /-- The value of an attribute; the ranks are those of its choices. -/
  | value (attributeId : Id) (ranks : List (Id × Int))
deriving DecidableEq

structure SortKey where
  field : SortField
  direction : Direction
deriving DecidableEq

structure Row where
  id : Id
  createdAt : Timestamp
  updatedAt : Timestamp
  position : Option Int
  cells : Cells

/-! ### Comparing -/

/-- References in the order of the choices' ranks; where one has none, by their text. -/
def compareReferences (ranks : List (Id × Int)) (a b : Id) : Ordering :=
  match ranks.lookup a, ranks.lookup b with
  | some m, some n => compare m n
  | _, _ => compare a.text b.text

/-- Values of one slot; values of different slots are not told apart. -/
def compareCells (ranks : List (Id × Int)) : Cell → Cell → Ordering
  | .text a, .text b => compare (Text.fold a) (Text.fold b)
  | .number a _, .number b _ => compare a.totalPlace b.totalPlace
  | .boolean a, .boolean b => compare a b
  | .date a, .date b => compare a b
  | .reference a, .reference b => compareReferences ranks a b
  | .structured a, .structured b => compare a.text b.text
  | _, _ => .eq

def Direction.apply : Direction → Ordering → Ordering
  | .ascending, order => order
  | .descending, order => order.swap

/-- Compares what two rows have; a row that has it comes before one that does not. -/
def comparePresent {α : Type} (direction : Direction) (order : α → α → Ordering) :
    Option α → Option α → Ordering
  | some a, some b => direction.apply (order a b)
  | some _, none => .lt
  | none, some _ => .gt
  | none, none => .eq

namespace SortKey

def compareRows (key : SortKey) (a b : Row) : Ordering :=
  match key.field with
  | .createdAt => key.direction.apply (compare a.createdAt.micros b.createdAt.micros)
  | .updatedAt => key.direction.apply (compare a.updatedAt.micros b.updatedAt.micros)
  | .position => comparePresent key.direction compare a.position b.position
  | .value id ranks => comparePresent key.direction (compareCells ranks) (a.cells id) (b.cells id)

end SortKey

def compareRows (keys : List SortKey) (a b : Row) : Ordering :=
  match keys with
  | [] => compare a.id b.id
  | key :: rest => (key.compareRows a b).then (compareRows rest a b)

def sortRows (keys : List SortKey) (rows : List Row) : List Row :=
  rows.mergeSort fun a b => (compareRows keys a b).isLE

theorem sortRows_perm (keys : List SortKey) (rows : List Row) : (sortRows keys rows).Perm rows :=
  List.mergeSort_perm rows _

def sortedAttributeIds (keys : List SortKey) : List Id :=
  keys.filterMap fun key =>
    match key.field with
    | .value id _ => some id
    | _ => none

/-! ### Compiling -/

/-- Pairs with their keys once each; the last value given for a key counts. -/
def lastOfEach (pairs : List (Id × Int)) : List (Id × Int) :=
  pairs.foldl (fun done p => p :: done.filter fun q => q.1 ≠ p.1) []

theorem isSome_lookup_lastOfEach {pairs : List (Id × Int)} {p : Id × Int} (hp : p ∈ pairs) :
    ((lastOfEach pairs).lookup p.1).isSome = true := by
  suffices hfold : ∀ done : List (Id × Int), (p ∈ pairs ∨ ∃ q ∈ done, q.1 = p.1) →
      ∃ q ∈ pairs.foldl (fun done p => p :: done.filter fun q => q.1 ≠ p.1) done, q.1 = p.1 by
    obtain ⟨q, hq, hkey⟩ := hfold [] (.inl hp)
    exact List.lookup_isSome_iff.mpr ⟨q, hq, by simp [hkey]⟩
  clear hp
  induction pairs with
  | nil =>
    intro done h
    exact h.resolve_left List.not_mem_nil
  | cons r rest ih =>
    intro done h
    refine ih _ ?_
    by_cases hr : r.1 = p.1
    · exact .inr ⟨r, List.mem_cons_self, hr⟩
    · rcases h with h | ⟨q, hq, hkey⟩
      · rcases List.mem_cons.mp h with rfl | h
        · exact absurd rfl hr
        · exact .inl h
      · have hne : q.1 ≠ r.1 := fun heq => hr (heq.symm.trans hkey)
        exact .inr ⟨q, List.mem_cons_of_mem _ (by simp [hq, hne]), hkey⟩

def choiceRanks (a : Attribute) : List (Id × Int) :=
  match a.type with
  | .select => lastOfEach (a.options.map fun o => (o.id, o.sortOrder.toInt))
  | .status => lastOfEach (a.statuses.map fun s => (s.id, s.sortOrder.toInt))
  | _ => []

def sortField (unknown : UnknownPolicy) (attributes : List Attribute) (name : String) :
    Except Error (Option SortField) :=
  if name = "$created_at" then .ok (some .createdAt)
  else if name = "$updated_at" then .ok (some .updatedAt)
  else if name = "$position" then .ok (some .position)
  else do
    match ← resolve unknown attributes .sort name with
    | some a => return some (.value a.id (choiceRanks a))
    | none => return none

def sortKeys (unknown : UnknownPolicy) (attributes : List Attribute) :
    List SortSpec → Except Error (List SortKey)
  | [] => .ok []
  | spec :: rest => do
    let field ← sortField unknown attributes spec.name
    let others ← sortKeys unknown attributes rest
    return (field.map (SortKey.mk · spec.direction)).toList ++ others

/-- The keys to sort by; without any, the newest first. -/
def compileSorts (unknown : UnknownPolicy) (attributes : List Attribute) (sorts : List SortSpec) :
    Except Error (List SortKey) := do
  match ← sortKeys unknown attributes sorts with
  | [] => return [⟨.createdAt, .descending⟩]
  | keys => return keys

section

variable {unknown : UnknownPolicy} {attributes : List Attribute} {id : Id}
  {ranks : List (Id × Int)}

theorem compileSorts_eq_ok_iff {sorts : List SortSpec} {keys : List SortKey} :
    compileSorts unknown attributes sorts = .ok keys ↔
      ∃ named, sortKeys unknown attributes sorts = .ok named ∧
        keys = if named = [] then [⟨.createdAt, .descending⟩] else named := by
  rw [compileSorts, bind_eq_ok_iff]
  refine exists_congr fun named => and_congr_right fun _ => ?_
  cases named with
  | nil => exact ⟨fun h => by cases h; rfl, fun h => by rw [h]; rfl⟩
  | cons key rest => exact ⟨fun h => by cases h; rfl, fun h => by rw [h]; rfl⟩

theorem exists_of_sortField {name : String}
    (h : sortField unknown attributes name = .ok (some (.value id ranks))) :
    ∃ a ∈ attributes, a.id = id ∧ ranks = choiceRanks a := by
  unfold sortField at h
  split at h
  · cases h
  split at h
  · cases h
  split at h
  · cases h
  obtain ⟨found, hfound, h⟩ := bind_eq_ok_iff.mp h
  cases found with
  | none => cases h
  | some a =>
    cases h
    refine ⟨a, ?_, rfl, rfl⟩
    unfold resolve at hfound
    split at hfound
    · cases hfound
      exact List.mem_of_find?_eq_some ‹_›
    · split at hfound <;> cases hfound

theorem exists_of_mem_sortKeys {sorts : List SortSpec} {keys : List SortKey}
    (h : sortKeys unknown attributes sorts = .ok keys) {direction : Direction}
    (hkey : ⟨.value id ranks, direction⟩ ∈ keys) :
    ∃ a ∈ attributes, a.id = id ∧ ranks = choiceRanks a := by
  induction sorts generalizing keys with
  | nil =>
    cases h
    cases hkey
  | cons spec rest ih =>
    obtain ⟨field, hfield, h⟩ := bind_eq_ok_iff.mp h
    obtain ⟨others, hothers, h⟩ := bind_eq_ok_iff.mp h
    cases h
    rcases List.mem_append.mp hkey with hkey | hkey
    · cases field with
      | none => cases hkey
      | some f =>
        have hf : SortField.value id ranks = f :=
          congrArg SortKey.field (List.mem_singleton.mp hkey)
        subst hf
        exact exists_of_sortField hfield
    · exact ih hothers hkey

end

end RecordStore
