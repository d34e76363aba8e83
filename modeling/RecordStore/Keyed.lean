/-!
# Keyed lists

Lists of pairs in the order of their keys, each key once.
-/

namespace RecordStore

/-- The pairs with one more, in its place; a pair with the same key gives way. -/
def insertKey {α : Type} (key : String) (value : α) : List (String × α) → List (String × α)
  | [] => [(key, value)]
  | (k, v) :: rest =>
    if key < k then (key, value) :: (k, v) :: rest
    else if key = k then (key, value) :: rest
    else (k, v) :: insertKey key value rest

/-- Pairs brought into key order; of two with one key the later stays. -/
def orderKeys {α : Type} (pairs : List (String × α)) : List (String × α) :=
  pairs.foldl (fun done p => insertKey p.1 p.2 done) []

theorem lookup_insertKey_self {α : Type} (key : String) (value : α) (pairs : List (String × α)) :
    (insertKey key value pairs).lookup key = some value := by
  induction pairs with
  | nil => simp [insertKey]
  | cons p rest ih =>
    obtain ⟨k, v⟩ := p
    by_cases before : key < k
    · simp [insertKey, before]
    · by_cases equal : key = k
      · simp [insertKey, equal]
      · have differ : (key == k) = false := by simp [equal]
        simp [insertKey, before, equal, List.lookup_cons, differ, ih]

theorem lookup_insertKey_of_ne {α : Type} {key other : String} (value : α)
    (pairs : List (String × α)) (h : other ≠ key) :
    (insertKey key value pairs).lookup other = pairs.lookup other := by
  have differ : (other == key) = false := by simp [h]
  induction pairs with
  | nil => simp [insertKey, List.lookup_cons, differ]
  | cons p rest ih =>
    obtain ⟨k, v⟩ := p
    by_cases before : key < k
    · simp [insertKey, before, List.lookup_cons, differ]
    · by_cases equal : key = k
      · subst equal
        simp only [insertKey, if_neg before, if_true, List.lookup_cons, differ]
      · simp only [insertKey, before, equal, if_false, List.lookup_cons, ih]

end RecordStore
