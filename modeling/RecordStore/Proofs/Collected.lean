import RecordStore.Proofs.Operands

/-!
# Members that are collected

The members of a set are collected one after the other, and a member that is the same as one before
it is left out. Main statement: items are collected just if each of them is accepted, and what is
collected are the distinct members made of them.
-/

namespace RecordStore

/-! ### Distinct members -/

/-- The members without those that are the same as one before them. -/
def distinctMembers (members : List Json) : List Json :=
  members.eraseDupsBy fun later earlier => sameMember earlier later

theorem distinctMembers_cons (m : Json) (rest : List Json) :
    distinctMembers (m :: rest) =
      m :: distinctMembers (rest.filter fun n => !sameMember m n) := by
  rw [distinctMembers, List.eraseDupsBy_cons]
  simp only [Bool.decide_eq_false]
  rfl

/-- Members are gone through by setting the first aside, with all that are the same as it. -/
@[elab_as_elim]
theorem distinct_induction {motive : List Json → Prop} (nil : motive [])
    (cons : ∀ m rest, motive (rest.filter fun n => !sameMember m n) → motive (m :: rest))
    (members : List Json) : motive members := by
  induction hlength : members.length using Nat.strongRecOn generalizing members with
  | ind n ih =>
    cases members with
    | nil => exact nil
    | cons m rest =>
      refine cons m rest (ih _ ?_ _ rfl)
      rw [← hlength]
      exact Nat.lt_succ_of_le (List.length_filter_le _ _)

theorem distinctMembers_sublist (members : List Json) :
    (distinctMembers members).Sublist members := by
  induction members using distinct_induction with
  | nil => exact .slnil
  | cons m rest ih =>
    rw [distinctMembers_cons]
    exact (ih.trans List.filter_sublist).cons_cons m

/-- What is collected behind a member is not the same as it. -/
theorem apart_of_mem_distinctMembers {m n : Json} {rest : List Json}
    (h : n ∈ distinctMembers (rest.filter fun k => !sameMember m k)) : sameMember m n = false := by
  have hfilter := (distinctMembers_sublist _).subset h
  simpa using (List.mem_filter.mp hfilter).2

theorem pairwise_distinctMembers (members : List Json) :
    (distinctMembers members).Pairwise fun m n => sameMember m n = false := by
  induction members using distinct_induction with
  | nil => exact .nil
  | cons m rest ih =>
    rw [distinctMembers_cons]
    exact .cons (fun n hn => apart_of_mem_distinctMembers hn) ih

theorem distinctMembers_eq_self {members : List Json}
    (h : members.Pairwise fun m n => sameMember m n = false) :
    distinctMembers members = members := by
  induction h with
  | nil => rfl
  | cons happart _ ih =>
    rw [distinctMembers_cons, List.filter_eq_self.mpr fun n hn => by simp [happart n hn], ih]

/-- A member that is left out is the same as one that is not. -/
theorem hasMember_distinctMembers_of_mem {members : List Json} {m : Json} (h : m ∈ members) :
    hasMember (distinctMembers members) m = true := by
  induction members using distinct_induction with
  | nil => cases h
  | cons n rest ih =>
    rw [distinctMembers_cons, hasMember, List.any_cons, Bool.or_eq_true_iff]
    rcases List.mem_cons.mp h with rfl | h
    · exact .inl (sameMember_self m)
    · cases hsame : sameMember n m with
      | true => exact .inl rfl
      | false => exact .inr (ih (List.mem_filter.mpr ⟨h, by rw [hsame]; rfl⟩))

/-- The first of members that are the same is not left out. -/
theorem mem_distinctMembers_of_first {before : List Json} {m : Json} (after : List Json)
    (hfirst : hasMember before m = false) : m ∈ distinctMembers (before ++ m :: after) := by
  induction before using distinct_induction generalizing after with
  | nil =>
    rw [List.nil_append, distinctMembers_cons]
    exact .head _
  | cons n rest ih =>
    rw [hasMember, List.any_cons, Bool.or_eq_false_iff] at hfirst
    obtain ⟨hn, hrest⟩ := hfirst
    rw [List.cons_append, distinctMembers_cons, List.filter_append, List.filter_cons,
      if_pos (by rw [hn]; rfl)]
    refine .tail _ (ih _ ?_)
    exact List.any_eq_false.mpr fun k hk =>
      List.any_eq_false.mp hrest k (List.mem_filter.mp hk).1

theorem filterMap_eq_self_iff {α : Type} {f : α → Option α} {xs : List α} :
    xs.filterMap f = xs ↔ ∀ x ∈ xs, f x = some x := by
  induction xs with
  | nil => simp
  | cons x rest ih =>
    rw [List.forall_mem_cons, ← ih]
    cases hx : f x with
    | none =>
      rw [List.filterMap_cons_none hx]
      refine iff_of_false (fun h => ?_) nofun
      have hlength := List.length_filterMap_le f rest
      rw [h, List.length_cons] at hlength
      omega
    | some y => rw [List.filterMap_cons_some hx, List.cons.injEq, Option.some.injEq]

/-! ### Members that are joined to a set -/

/-- A set with those of the members that are new to it. -/
def joinMembers (set members : List Json) : List Json :=
  set ++ distinctMembers (members.filter fun m => !hasMember set m)

theorem joinMembers_nil_left (members : List Json) :
    joinMembers [] members = distinctMembers members := by
  have hall : (members.filter fun m => !hasMember [] m) = members :=
    List.filter_eq_self.mpr fun _ _ => rfl
  rw [joinMembers, List.nil_append, hall]

theorem joinMembers_nil_right (set : List Json) : joinMembers set [] = set := List.append_nil set

theorem joinMembers_cons (set : List Json) (m : Json) (rest : List Json) :
    joinMembers set (m :: rest) =
      joinMembers (if hasMember set m then set else set ++ [m]) rest := by
  cases hm : hasMember set m with
  | true => rw [joinMembers, List.filter_cons_of_neg (by simp [hm]), if_pos rfl, joinMembers]
  | false =>
    have hnew : ∀ n, (!hasMember (set ++ [m]) n) = (!sameMember m n && !hasMember set n) := by
      intro n
      rw [hasMember, List.any_append, List.any_cons, List.any_nil, Bool.or_false, Bool.not_or,
        Bool.and_comm]
      rfl
    rw [joinMembers, List.filter_cons_of_pos (by simp [hm]), distinctMembers_cons,
      List.filter_filter, if_neg Bool.false_ne_true, joinMembers, List.append_assoc,
      List.singleton_append]
    simp only [hnew]

section

variable {a : Attribute}

/-! ### Members that are collected -/

/-- The member that is made of an item, if it is accepted and not blank. -/
def Attribute.member? (a : Attribute) (item : Json) : Option Json :=
  (encodeMember a item).toOption.join

theorem member?_of_encodeMember {item : Json} {made : Option Json}
    (h : encodeMember a item = .ok made) : a.member? item = made := by
  rw [Attribute.member?, h]
  cases made <;> rfl

theorem member?_eq_some_iff {item m : Json} :
    a.member? item = some m ↔ encodeMember a item = .ok (some m) := by
  constructor
  · intro h
    rw [Attribute.member?] at h
    cases hmade : encodeMember a item with
    | error e =>
      rw [hmade] at h
      cases h
    | ok made =>
      rw [hmade] at h
      cases made <;> cases h
      rfl
  · exact member?_of_encodeMember

/-- Items are collected just if each of them is accepted, and then the members made of them are
joined to the set. -/
theorem collectMembers_eq_ok_iff {set items members : List Json} :
    collectMembers a set items = .ok members ↔
      (∀ item ∈ items, ∃ made, encodeMember a item = .ok made) ∧
        joinMembers set (items.filterMap a.member?) = members := by
  induction items generalizing set with
  | nil => simp [collectMembers, joinMembers_nil_right]
  | cons item rest ih =>
    rw [collectMembers, bind_eq_ok_iff, List.forall_mem_cons]
    constructor
    · rintro ⟨made, hmade, h⟩
      have hmember := member?_of_encodeMember hmade
      cases made with
      | none =>
        obtain ⟨hrest, hjoined⟩ := ih.mp h
        rw [List.filterMap_cons_none hmember]
        exact ⟨⟨⟨none, hmade⟩, hrest⟩, hjoined⟩
      | some m =>
        obtain ⟨hrest, hjoined⟩ := ih.mp h
        rw [List.filterMap_cons_some hmember, joinMembers_cons]
        exact ⟨⟨⟨some m, hmade⟩, hrest⟩, hjoined⟩
    · rintro ⟨⟨⟨made, hmade⟩, hrest⟩, hjoined⟩
      have hmember := member?_of_encodeMember hmade
      refine ⟨made, hmade, ?_⟩
      cases made with
      | none =>
        rw [List.filterMap_cons_none hmember] at hjoined
        exact ih.mpr ⟨hrest, hjoined⟩
      | some m =>
        rw [List.filterMap_cons_some hmember, joinMembers_cons] at hjoined
        exact ih.mpr ⟨hrest, hjoined⟩

theorem collectMembers_nil_eq_ok_iff {items members : List Json} :
    collectMembers a [] items = .ok members ↔
      (∀ item ∈ items, ∃ made, encodeMember a item = .ok made) ∧
        distinctMembers (items.filterMap a.member?) = members := by
  rw [collectMembers_eq_ok_iff, joinMembers_nil_left]

/-- A member that is collected was made of an item. -/
theorem exists_item_of_mem {items : List Json} {m : Json}
    (hm : m ∈ distinctMembers (items.filterMap a.member?)) :
    ∃ item ∈ items, encodeMember a item = .ok (some m) := by
  obtain ⟨item, hitem, hmember⟩ := List.mem_filterMap.mp ((distinctMembers_sublist _).subset hm)
  exact ⟨item, hitem, member?_eq_some_iff.mp hmember⟩

theorem exists_item_of_collectMembers {items members : List Json}
    (h : collectMembers a [] items = .ok members) {m : Json} (hm : m ∈ members) :
    ∃ item ∈ items, encodeMember a item = .ok (some m) := by
  obtain ⟨-, rfl⟩ := collectMembers_nil_eq_ok_iff.mp h
  exact exists_item_of_mem hm

theorem pairwise_of_collectMembers {items members : List Json}
    (h : collectMembers a [] items = .ok members) :
    members.Pairwise fun m n => sameMember m n = false := by
  obtain ⟨-, rfl⟩ := collectMembers_nil_eq_ok_iff.mp h
  exact pairwise_distinctMembers _

/-- The member made of an item is collected, or one that is the same. -/
theorem hasMember_of_item {items : List Json} {item m : Json} (hitem : item ∈ items)
    (h : encodeMember a item = .ok (some m)) :
    hasMember (distinctMembers (items.filterMap a.member?)) m = true :=
  hasMember_distinctMembers_of_mem
    (List.mem_filterMap.mpr ⟨item, hitem, member?_of_encodeMember h⟩)

end

end RecordStore
