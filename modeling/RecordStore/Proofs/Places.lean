import RecordStore.Proofs.Choices

/-!
# Places of choices

A new choice gets the place after the last one of its attribute, or none where no place of 32 bits
is left, and places do not change. Main statement: whatever calls there were, a stored choice is one
that its attribute offers, no two choices of an attribute have one place, and the place of a choice
is its rank when values are sorted.
-/

namespace RecordStore

/-! ### Orders by place -/

theorem pairwise_lt_mergeSort {α : Type} (place : α → Int32) {l : List α}
    (h : l.Pairwise fun a b => place a ≠ place b) :
    (l.mergeSort fun a b => place a ≤ place b).Pairwise fun a b => place a < place b := by
  have hsorted : (l.mergeSort fun a b => place a ≤ place b).Pairwise
      fun a b => (decide (place a ≤ place b)) = true :=
    List.pairwise_mergeSort
      (fun a b c hab hbc => by
        simp only [decide_eq_true_eq] at hab hbc ⊢
        exact Int32.le_trans hab hbc)
      (fun a b => by
        simp only [Bool.or_eq_true, decide_eq_true_eq]
        exact Int32.le_total (place a) (place b)) l
  have hapart : (l.mergeSort fun a b => place a ≤ place b).Pairwise
      fun a b => place a ≠ place b :=
    (List.Perm.pairwise_iff (fun hab => hab.symm) (List.mergeSort_perm l _)).mpr h
  refine (hsorted.and hapart).imp fun {a b} hab => ?_
  exact Int32.lt_of_le_of_ne (of_decide_eq_true hab.1) hab.2

/-- Keys that come later do not change the value of another key. -/
theorem lookup_foldl_of_ne {pairs done : List (Id × Int)} {key : Id}
    (h : ∀ p ∈ pairs, p.1 ≠ key) :
    (pairs.foldl (fun done p => p :: done.filter fun q => q.1 ≠ p.1) done).lookup key =
      done.lookup key := by
  induction pairs generalizing done with
  | nil => rfl
  | cons r rest ih =>
    obtain ⟨hr, hrest⟩ := List.forall_mem_cons.mp h
    have hne : (key == r.1) = false := beq_eq_false_iff_ne.mpr hr.symm
    have hothers : (done.filter fun q => q.1 ≠ r.1) = done.filter fun q => q.1 != r.1 :=
      List.filter_congr fun q _ => by by_cases hq : q.1 = r.1 <;> simp [hq]
    rw [List.foldl_cons, ih hrest, List.lookup_cons, hne, hothers]
    exact lookup_filter_of_ne done hr.symm

theorem lookup_lastOfEach {pairs : List (Id × Int)}
    (h : pairs.Pairwise fun p q => p.1 ≠ q.1) {p : Id × Int} (hp : p ∈ pairs) :
    (lastOfEach pairs).lookup p.1 = some p.2 := by
  suffices hfold : ∀ done : List (Id × Int),
      (pairs.foldl (fun done p => p :: done.filter fun q => q.1 ≠ p.1) done).lookup p.1 =
        some p.2 from hfold []
  induction pairs with
  | nil => cases hp
  | cons r rest ih =>
    obtain ⟨hr, hrest⟩ := List.pairwise_cons.mp h
    intro done
    rw [List.foldl_cons]
    rcases List.mem_cons.mp hp with rfl | hp
    · rw [lookup_foldl_of_ne fun q hq => (hr q hq).symm, List.lookup_cons, beq_self_eq_true]
    · exact ih hrest hp _

namespace Store

variable {s t : Store}

/-! ### Places -/

/-- No two choices of an attribute have one place. -/
structure Placed (s : Store) : Prop where
  options : s.options.Pairwise fun o p => o.attributeId = p.attributeId → o.sortOrder ≠ p.sortOrder
  statuses : s.statuses.Pairwise fun u v => u.attributeId = v.attributeId →
    u.sortOrder ≠ v.sortOrder

namespace Placed

theorem detachChoice (h : s.Placed) {a : Attribute} {choice : Id}
    (run : (Session.detachChoice a choice).run s = .ok () t) : t.Placed := by
  obtain ⟨⟨rows, rfl⟩, -⟩ := Session.yields_detachChoice s a choice run
  exact ⟨by simpa using h.options, by simpa using h.statuses⟩

theorem change (hchange : Change s t) (hi : s.Indexed) (h : s.Placed) : t.Placed := by
  cases hchange with
  | insertObject | mapObjects | deleteObjects | insertAttribute | insertRecord | mapRecords
  | deleteRecords | insertList | mapLists | deleteLists | insertEntry | mapEntries
  | deleteEntries => exact ⟨h.options, h.statuses⟩
  | replaceAttribute _ _ run =>
    obtain ⟨-, hoptions, hstatuses, -⟩ := Session.rows_replaceAttribute hi _ _ run
    exact ⟨hoptions ▸ h.options, hstatuses ▸ h.statuses⟩
  | deleteAttributes =>
    exact ⟨by simpa [withoutAttributes] using h.options.filter _,
      by simpa [withoutAttributes] using h.statuses.filter _⟩
  | insertOption _ _ place =>
    exact ⟨pairwise_concat h.options fun p hp hid => Int32.ne_of_lt (place p hp hid), h.statuses⟩
  | insertStatus _ _ place =>
    exact ⟨h.options, pairwise_concat h.statuses fun v hv hid => Int32.ne_of_lt (place v hv hid)⟩
  | @removeOption o _ _ _ _ _ _ run =>
    have hless : Placed { s with options := s.options.filter fun p => p.id != o.id } :=
      ⟨h.options.filter _, h.statuses⟩
    exact hless.detachChoice run
  | @removeStatus u _ _ _ _ _ _ run =>
    have hless : Placed { s with statuses := s.statuses.filter fun v => v.id != u.id } :=
      ⟨h.options, h.statuses.filter _⟩
    exact hless.detachChoice run
  | storeValue | deleteValues => exact ⟨by simpa using h.options, by simpa using h.statuses⟩

end Placed

theorem Reachable.placed (h : s.Reachable) : s.Placed :=
  sound_empty.invariant (fun _ _ hchange hs hp => hp.change hchange hs.indexed) h.changes
    ⟨.nil, .nil⟩

/-! ### Choices in their order -/

theorem Placed.options_withChoices (h : s.Placed) (a : AttributeHead) :
    (s.withChoices a).options.Pairwise fun o p => o.sortOrder < p.sortOrder := by
  rw [withChoices]
  split
  · refine pairwise_lt_mergeSort SelectOption.sortOrder (List.pairwise_filter.mpr ?_)
    refine h.options.imp fun {o p} hop ho hp => hop ?_
    rw [beq_iff_eq.mp ho, beq_iff_eq.mp hp]
  · exact .nil

theorem Placed.statuses_withChoices (h : s.Placed) (a : AttributeHead) :
    (s.withChoices a).statuses.Pairwise fun u v => u.sortOrder < v.sortOrder := by
  rw [withChoices]
  dsimp only
  split
  · refine pairwise_lt_mergeSort Status.sortOrder (List.pairwise_filter.mpr ?_)
    refine h.statuses.imp fun {u v} huv hu hv => huv ?_
    rw [beq_iff_eq.mp hu, beq_iff_eq.mp hv]
  · exact .nil

/-- The rank of an option is its place. -/
theorem Indexed.rank_option (hi : s.Indexed) {a : AttributeHead} (htype : a.type = .select)
    {o : SelectOption} (ho : o ∈ s.options) (hid : o.attributeId = a.id) :
    (choiceRanks (s.withChoices a)).lookup o.id = some o.sortOrder.toInt := by
  have hoptions : (s.withChoices a).options.Pairwise fun o p => o.id ≠ p.id := by
    simp only [withChoices, htype, if_true]
    exact (List.Perm.pairwise_iff (fun hop => hop.symm) (List.mergeSort_perm _ _)).mpr
      (hi.options.filter _)
  have hmem : o ∈ (s.withChoices a).options := by
    simp [withChoices, htype, ho, hid]
  have hselect : (s.withChoices a).type = .select := htype
  rw [choiceRanks, hselect]
  exact lookup_lastOfEach (p := (o.id, o.sortOrder.toInt)) (List.pairwise_map.mpr hoptions)
    (List.mem_map_of_mem hmem)

theorem Indexed.rank_status (hi : s.Indexed) {a : AttributeHead} (htype : a.type = .status)
    {u : Status} (hu : u ∈ s.statuses) (hid : u.attributeId = a.id) :
    (choiceRanks (s.withChoices a)).lookup u.id = some u.sortOrder.toInt := by
  have hstatuses : (s.withChoices a).statuses.Pairwise fun u v => u.id ≠ v.id := by
    simp only [withChoices, htype, if_true]
    exact (List.Perm.pairwise_iff (fun huv => huv.symm) (List.mergeSort_perm _ _)).mpr
      (hi.statuses.filter _)
  have hmem : u ∈ (s.withChoices a).statuses := by
    simp [withChoices, htype, hu, hid]
  have hstatus : (s.withChoices a).type = .status := htype
  rw [choiceRanks, hstatus]
  exact lookup_lastOfEach (p := (u.id, u.sortOrder.toInt)) (List.pairwise_map.mpr hstatuses)
    (List.mem_map_of_mem hmem)

/-! ### What is stored of choices -/

def HasChoices (a : AttributeHead) : Prop := a.type = .select ∨ a.type = .status

/-- Stored choices are offered: a single value is the id of a choice of its attribute, a set is one
of the texts of such ids, not empty and without repetition. The choices of an attribute have places
of their own, in which order they are shown, and by which their values are ranked. -/
structure ChoicesAgree (s : Store) : Prop where
  single : ∀ table, ∀ row ∈ s.values table, ∀ a ∈ s.attributes, a.id = row.attributeId →
    HasChoices a → a.isSet = false →
      ∃ id, row.cell = .reference id ∧ row.read? a = some (.reference id) ∧ s.Offers a id
  sets : ∀ table, ∀ row ∈ s.values table, ∀ a ∈ s.attributes, a.id = row.attributeId →
    HasChoices a → a.isSet = true → ∃ ids : List Id, ids ≠ [] ∧ ids.Nodup ∧
      row.cell = .structured (.arr (ids.map fun id => .str id.text)) ∧
      row.read? a = some row.cell ∧ ∀ id ∈ ids, s.Offers a id
  placed : s.Placed
  shown : ∀ a ∈ s.attributes,
    ((s.withChoices a).options.Pairwise fun o p => o.sortOrder < p.sortOrder) ∧
      (s.withChoices a).statuses.Pairwise fun u v => u.sortOrder < v.sortOrder
  rankedOptions : ∀ a ∈ s.attributes, a.type = .select → ∀ o ∈ s.options, o.attributeId = a.id →
    (choiceRanks (s.withChoices a)).lookup o.id = some o.sortOrder.toInt
  rankedStatuses : ∀ a ∈ s.attributes, a.type = .status → ∀ u ∈ s.statuses, u.attributeId = a.id →
    (choiceRanks (s.withChoices a)).lookup u.id = some u.sortOrder.toInt

theorem slot_of_hasChoices {a : AttributeHead} (h : HasChoices a) : a.type.slot = .reference := by
  rcases h with htype | htype <;> rw [htype] <;> rfl

/-- Choice integrity: after any calls, what is stored of choices and the choices agree. -/
theorem choicesAgree_run (steps : List Step) : (empty.run steps).ChoicesAgree := by
  have h : (empty.run steps).Reachable := ⟨steps, rfl⟩
  refine ⟨?_, ?_, h.placed, ?_, ?_, ?_⟩
  · intro table row hrow a ha hid hchoices hset
    obtain ⟨hread, ⟨-, id, hcell⟩ | ⟨hsets, -⟩⟩ :=
      h.ofIds_of_row hrow ha hid (slot_of_hasChoices hchoices)
    case set => simp [hset] at hsets
    exact ⟨id, hcell, hcell ▸ hread, h.offered table row hrow a ha hid id (hcell ▸ .single)⟩
  · intro table row hrow a ha hid hchoices hset
    obtain ⟨hread, ⟨hsingle, -⟩ | ⟨-, ids, hne, hnodup, hcell⟩⟩ :=
      h.ofIds_of_row hrow ha hid (slot_of_hasChoices hchoices)
    case single => simp [hset] at hsingle
    refine ⟨ids, hne, hnodup, hcell, hread, fun id hmem => ?_⟩
    exact h.offered table row hrow a ha hid id (hcell ▸ holds_idSet.mpr hmem)
  · exact fun a _ => ⟨h.placed.options_withChoices a, h.placed.statuses_withChoices a⟩
  · exact fun a _ htype o ho hid => h.sound.indexed.rank_option htype ho hid
  · exact fun a _ htype u hu hid => h.sound.indexed.rank_status htype hu hid

end Store

end RecordStore
