import Mathlib.Data.List.Nodup
import Mathlib.Data.List.Pairwise

/-!
# Look-ups by key

What is found by a key is there and has that key, and where no two rows share a key, each of them
is found by its own.
-/

namespace RecordStore

variable {α : Type} {rows : List α}

theorem eq_of_pairwise_ne {β : Type} {f : α → β} {r q : α}
    (h : rows.Pairwise fun a b => f a ≠ f b) (hr : r ∈ rows) (hq : q ∈ rows)
    (hkey : f r = f q) : r = q :=
  List.inj_on_of_nodup_map (List.pairwise_map.mpr h) hr hq hkey

theorem mem_of_find?_key {β : Type} [DecidableEq β] {f : α → β} {key : β} {r : α}
    (h : rows.find? (fun q => f q == key) = some r) : r ∈ rows ∧ f r = key :=
  ⟨List.mem_of_find?_eq_some h, by simpa using List.find?_some h⟩

theorem find?_of_pairwise_ne {β : Type} [DecidableEq β] {f : α → β} {r : α}
    (h : rows.Pairwise fun a b => f a ≠ f b) (hr : r ∈ rows) :
    rows.find? (fun q => f q == f r) = some r := by
  cases hfind : rows.find? fun q => f q == f r with
  | none => simpa using List.find?_eq_none.mp hfind r hr
  | some q =>
    obtain ⟨hq, hkey⟩ := mem_of_find?_key hfind
    rw [eq_of_pairwise_ne h hq hr hkey]

end RecordStore
