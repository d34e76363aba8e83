import Mathlib
import RecordStore.Proofs.Found
import RecordStore.Proofs.IdSets

/-!
# Sets as they are stored

A set is given as an array of items. A member is made of each item that is not blank, and of members
that are the same the first is stored, in the order of these. Main statement: a set is stored just
if some item is not blank, it contains a value just if the member made of one of the items is the
same, and no test tells arrays of the same items apart.
-/

namespace RecordStore

section

variable {a : Attribute} {raw : Json}

/-! ### Sets that are stored -/

/-- What a value has for items: those of an array, and any other value itself. -/
def Json.items : Json → List Json
  | .arr items => items
  | other => [other]

theorem Json.blankItems_iff {items : List Json} :
    blankItems items = true ↔ ∀ item ∈ items, item.isBlank = true := by
  induction items with
  | nil => simp [blankItems]
  | cons item rest ih => rw [blankItems, Bool.and_eq_true, ih, List.forall_mem_cons]

theorem Json.isBlank_iff {j : Json} :
    j.isBlank = true ↔ ∀ item ∈ j.items, item.isBlank = true := by
  cases j with
  | arr items => rw [isBlank, blankItems_iff, Json.items]
  | _ => simp [items]

/-- The cell of a set, which is none where there are no members. -/
def Cell.ofMembers : List Json → Option Cell
  | [] => none
  | members => some (.structured (.arr members))

theorem ofMembers_eq_none_iff {members : List Json} :
    Cell.ofMembers members = none ↔ members = [] := by
  cases members with
  | nil => exact iff_of_true rfl rfl
  | cons m rest => exact iff_of_false nofun nofun

theorem ofMembers_eq_some_iff {members : List Json} {cell : Cell} :
    Cell.ofMembers members = some cell ↔
      members ≠ [] ∧ cell = .structured (.arr members) := by
  cases members with
  | nil => simp [Cell.ofMembers]
  | cons m rest => simp [Cell.ofMembers, eq_comm]

theorem encodeMember_of_blank {item : Json} (hblank : item.isBlank = true) :
    encodeMember a item = .ok none := if_pos hblank

/-- A set is accepted just if all its items are, and what is stored of it is the distinct members
that are made of them. -/
theorem encodeValue_set_eq_ok_iff (hisSet : a.isSet = true) {made : Option Cell} :
    encodeValue a raw = .ok made ↔
      (∀ item ∈ raw.items, ∃ m, encodeMember a item = .ok m) ∧
        Cell.ofMembers (distinctMembers (raw.items.filterMap a.member?)) = made := by
  cases hblank : raw.isBlank with
  | true =>
    have hitems := Json.isBlank_iff.mp hblank
    have hnone : raw.items.filterMap a.member? = [] := List.filterMap_eq_nil_iff.mpr fun item hi =>
      member?_of_encodeMember (encodeMember_of_blank (hitems item hi))
    unfold encodeValue
    rw [if_pos hblank, hnone]
    constructor
    · rintro ⟨⟩
      exact ⟨fun item hi => ⟨none, encodeMember_of_blank (hitems item hi)⟩, rfl⟩
    · rintro ⟨-, rfl⟩
      rfl
  | false =>
    have hencode : encodeValue a raw = (do
        let members ← collectMembers a [] raw.items
        return if members.isEmpty then none else some (.structured (.arr members))) := by
      unfold encodeValue
      rw [hblank, if_neg Bool.false_ne_true, if_pos hisSet]
      rfl
    have hcell : ∀ members : List Json, (if members.isEmpty then none
        else some (Cell.structured (.arr members))) = Cell.ofMembers members := by
      rintro (_ | ⟨m, rest⟩) <;> rfl
    rw [hencode, bind_return_eq_ok_iff]
    simp only [collectMembers_nil_eq_ok_iff, hcell]
    exact ⟨fun ⟨_, ⟨hitems, hmembers⟩, hmade⟩ => ⟨hitems, hmembers ▸ hmade⟩,
      fun ⟨hitems, hmade⟩ => ⟨_, ⟨hitems, rfl⟩, hmade⟩⟩

/-- Distinct members that are written again are stored as they are just if each of them is. -/
theorem encodeValue_members_iff (hisSet : a.isSet = true) {members : List Json}
    (hne : members ≠ []) (hapart : members.Pairwise fun m n => sameMember m n = false) :
    encodeValue a (.arr members) = .ok (some (.structured (.arr members))) ↔
      ∀ m ∈ members, a.member? m = some m := by
  rw [encodeValue_set_eq_ok_iff hisSet, Json.items, ofMembers_eq_some_iff]
  constructor
  · rintro ⟨-, -, hcell⟩
    have hstored : members = distinctMembers (members.filterMap a.member?) := by
      injection hcell with hcell
      injection hcell
    have hsublist := distinctMembers_sublist (members.filterMap a.member?)
    rw [← hstored] at hsublist
    exact filterMap_eq_self_iff.mp
      (hsublist.eq_of_length_le (List.length_filterMap_le _ _)).symm
  · intro hself
    rw [filterMap_eq_self_iff.mpr hself, distinctMembers_eq_self hapart]
    exact ⟨fun m hm => ⟨some m, member?_eq_some_iff.mp (hself m hm)⟩, hne, rfl⟩

/-! ### Members that are texts -/

theorem exists_str_of_encodeMember (hset : a.type.allowsSets = true) {item m : Json}
    (h : encodeMember a item = .ok (some m)) : ∃ s, m = .str s := by
  obtain ⟨-, cell, v, hcell, hv, rfl⟩ := exists_of_encodeMember h
  have hslot := slot_of_encodeSingle hcell
  rcases ValueType.slot_of_allowsSets hset with htype | htype
  · cases cell with
    | text s =>
      cases (decodeSingle_text htype s).symm.trans hv
      exact ⟨s, rfl⟩
    | _ => cases hslot.trans htype
  · cases cell with
    | reference id =>
      cases (decodeSingle_reference htype id).symm.trans hv
      exact ⟨id.text, rfl⟩
    | _ => cases hslot.trans htype

theorem exists_str_of_member? (hset : a.type.allowsSets = true) {items : List Json} :
    ∀ m ∈ items.filterMap a.member?, ∃ s, m = .str s := by
  intro m hm
  obtain ⟨item, -, hitem⟩ := List.mem_filterMap.mp hm
  exact exists_str_of_encodeMember hset (member?_eq_some_iff.mp hitem)

/-- Of an item that is accepted a member is made just if the item is not blank. -/
theorem member?_eq_none_iff (hset : a.type.allowsSets = true) {item : Json} {made : Option Json}
    (h : encodeMember a item = .ok made) : a.member? item = none ↔ item.isBlank = true := by
  rw [member?_of_encodeMember h]
  constructor
  · rintro rfl
    by_contra hgiven
    rw [encodeMember, if_neg hgiven] at h
    obtain ⟨cell, hcell, h⟩ := bind_eq_ok_iff.mp h
    have hname : a.type ≠ .personalName := by
      intro htype
      rw [htype] at hset
      cases hset
    have hplace : a.type ≠ .location := by
      intro htype
      rw [htype] at hset
      cases hset
    obtain ⟨-, cell, rfl⟩ := exists_cell_of_encodeSingle hname hplace hcell
    obtain ⟨v, -, h⟩ := bind_eq_ok_iff.mp h
    cases h
  · intro hblank
    exact (Except.ok.inj ((encodeMember_of_blank hblank).symm.trans h)).symm

theorem sameMember_of_same {s t : String} (h : sameMember (.str s) (.str t) = true)
    (candidate : Json) : sameMember (.str s) candidate = sameMember (.str t) candidate := by
  have hfold : Text.fold s = Text.fold t := beq_iff_eq.mp h
  cases candidate with
  | str u => rw [sameMember, sameMember, Text.alike, Text.alike, hfold]
  | _ => rfl

theorem sameMember_symm_of_texts {m n : Json} (hm : ∃ s, m = .str s) (hn : ∃ s, n = .str s)
    (h : sameMember m n = true) : sameMember n m = true := by
  obtain ⟨s, rfl⟩ := hm
  obtain ⟨t, rfl⟩ := hn
  exact (sameMember_of_same h (.str s)).symm.trans (sameMember_self _)

theorem sameMember_trans_of_texts {m n k : Json} (hm : ∃ s, m = .str s) (hn : ∃ s, n = .str s)
    (h : sameMember m n = true) (h' : sameMember n k = true) : sameMember m k = true := by
  obtain ⟨s, rfl⟩ := hm
  obtain ⟨t, rfl⟩ := hn
  exact (sameMember_of_same h k).trans h'

/-- Of texts that are the same it does not matter to a set which of them it has. -/
theorem hasMember_distinctMembers {members : List Json} (h : ∀ m ∈ members, ∃ s, m = .str s)
    (candidate : Json) :
    hasMember (distinctMembers members) candidate = hasMember members candidate := by
  rw [Bool.eq_iff_iff]
  constructor
  · intro hcandidate
    obtain ⟨m, hm, hsame⟩ := List.any_eq_true.mp hcandidate
    exact List.any_eq_true.mpr ⟨m, (distinctMembers_sublist members).subset hm, hsame⟩
  · intro hcandidate
    obtain ⟨m, hm, hsame⟩ := List.any_eq_true.mp hcandidate
    obtain ⟨n, hn, hnm⟩ := List.any_eq_true.mp (hasMember_distinctMembers_of_mem hm)
    have hntext := h n ((distinctMembers_sublist members).subset hn)
    exact List.any_eq_true.mpr ⟨n, hn, sameMember_trans_of_texts hntext (h m hm) hnm hsame⟩

/-! ### The order of members -/

/-- Where in a list the first member stands that is the same as a given one. -/
def firstPlace (members : List Json) (m : Json) : Nat :=
  members.findIdx fun n => sameMember n m

theorem firstPlace_cons_self (m : Json) (rest : List Json) : firstPlace (m :: rest) m = 0 := by
  rw [firstPlace, List.findIdx_cons, sameMember_self, cond_true]

theorem firstPlace_cons_of_apart {m n : Json} (rest : List Json) (h : sameMember m n = false) :
    firstPlace (m :: rest) n = firstPlace rest n + 1 := by
  rw [firstPlace, List.findIdx_cons, h, cond_false]
  rfl

/-- What is left out of a list does not change which of two others comes first. -/
theorem findIdx_lt_of_filter {α : Type} {keep p q : α → Bool} {xs : List α}
    (hp : ∀ x ∈ xs, p x = true → keep x = true) (hq : ∀ x ∈ xs, q x = true → keep x = true)
    (h : (xs.filter keep).findIdx p < (xs.filter keep).findIdx q) :
    xs.findIdx p < xs.findIdx q := by
  induction xs with
  | nil => exact h
  | cons x rest ih =>
    obtain ⟨hpx, hprest⟩ := List.forall_mem_cons.mp hp
    obtain ⟨hqx, hqrest⟩ := List.forall_mem_cons.mp hq
    rw [List.findIdx_cons, List.findIdx_cons]
    cases hkeep : keep x with
    | true =>
      rw [List.filter_cons_of_pos hkeep, List.findIdx_cons, List.findIdx_cons] at h
      cases hq0 : q x with
      | true =>
        rw [hq0, cond_true] at h
        exact absurd h (Nat.not_lt_zero _)
      | false =>
        cases hp0 : p x with
        | true => exact Nat.succ_pos _
        | false =>
          rw [hp0, hq0, cond_false, cond_false] at h
          exact Nat.succ_lt_succ (ih hprest hqrest (Nat.lt_of_succ_lt_succ h))
    | false =>
      rw [List.filter_cons_of_neg (by simp [hkeep])] at h
      have hp0 : p x = false := Bool.eq_false_iff.mpr fun hx => by simp [hpx hx] at hkeep
      have hq0 : q x = false := Bool.eq_false_iff.mpr fun hx => by simp [hqx hx] at hkeep
      rw [hp0, hq0, cond_false, cond_false]
      exact Nat.succ_lt_succ (ih hprest hqrest h)

/-- Distinct members stand in the order in which they first occur. -/
theorem pairwise_firstPlace {members : List Json} (h : ∀ m ∈ members, ∃ s, m = .str s) :
    (distinctMembers members).Pairwise fun m n => firstPlace members m < firstPlace members n := by
  induction members using distinct_induction with
  | nil => exact .nil
  | cons m rest ih =>
    -- What is set aside with the first member is the same as none that is left.
    have hkept : ∀ n, sameMember m n = false → ∀ x ∈ rest, sameMember x n = true →
        (!sameMember m x) = true := by
      intro n hmn x hx hxn
      cases hsame : sameMember m x with
      | false => rfl
      | true =>
        have hm := h m (.head _)
        cases hmn.symm.trans (sameMember_trans_of_texts hm (h x (.tail _ hx)) hsame hxn)
    rw [distinctMembers_cons]
    refine .cons (fun n hn => ?_) ?_
    · have hmn := apart_of_mem_distinctMembers hn
      rw [firstPlace_cons_self, firstPlace_cons_of_apart rest hmn]
      exact Nat.succ_pos _
    · refine (ih fun n hn => h n (.tail _ (List.mem_filter.mp hn).1)).imp_of_mem ?_
      intro n k hn hk hlt
      have hmn := apart_of_mem_distinctMembers hn
      have hmk := apart_of_mem_distinctMembers hk
      rw [firstPlace_cons_of_apart rest hmn, firstPlace_cons_of_apart rest hmk]
      exact Nat.succ_lt_succ (findIdx_lt_of_filter (hkept n hmn) (hkept k hmk) hlt)

/-- Of the members that are the same as a given one the first is the same as none before it. -/
theorem exists_first {members : List Json} (h : ∀ m ∈ members, ∃ s, m = .str s) {m : Json}
    (hm : m ∈ members) : ∃ before first after, members = before ++ first :: after ∧
      hasMember before first = false ∧ sameMember first m = true := by
  have hfound : (members.find? fun n => sameMember n m).isSome :=
    List.find?_isSome.mpr ⟨m, hm, sameMember_self m⟩
  obtain ⟨first, hfind⟩ := Option.isSome_iff_exists.mp hfound
  obtain ⟨hsame, before, after, rfl, hbefore⟩ := List.find?_eq_some_iff_append.mp hfind
  refine ⟨before, first, after, rfl, List.any_eq_false.mpr fun x hx hxfirst => ?_, hsame⟩
  have hxm := sameMember_trans_of_texts (h x (List.mem_append_left _ hx))
    (h first (List.mem_append_right _ (.head _))) hxfirst hsame
  have hnot := hbefore x hx
  rw [hxm] at hnot
  cases hnot

theorem eq_of_same_of_apart {members : List Json} (h : ∀ m ∈ members, ∃ s, m = .str s)
    (hapart : members.Pairwise fun m n => sameMember m n = false) {m n : Json}
    (hm : m ∈ members) (hn : n ∈ members) (hsame : sameMember m n = true) : m = n := by
  induction hapart with
  | nil => cases hm
  | @cons k rest hk _ ih =>
    rcases List.mem_cons.mp hm with rfl | hmrest
    · rcases List.mem_cons.mp hn with rfl | hnrest
      · rfl
      · cases (hk n hnrest).symm.trans hsame
    · rcases List.mem_cons.mp hn with rfl | hnrest
      · have hback := sameMember_symm_of_texts (h m hm) (h n hn) hsame
        cases (hk m hmrest).symm.trans hback
      · exact ih (fun x hx => h x (.tail _ hx)) hmrest hnrest

/-! ### Tests on sets -/

theorem accepts_contains_ofMembers {id : Id} {m : Json} {members : List Json} :
    Test.accepts ⟨id, .contains, [.member m]⟩ (Cell.ofMembers members) =
      hasMember members m := by
  cases members with
  | nil => rfl
  | cons n rest => exact accepts_contains

theorem operatorHolds_set {members others : List Json}
    (h : ∀ candidate, hasMember members candidate = hasMember others candidate)
    (operator : Operator) (operands : List Operand) :
    operatorHolds operator operands (.structured (.arr members)) =
      operatorHolds operator operands (.structured (.arr others)) := by
  have hmember : Operand.isMemberOf members = Operand.isMemberOf others := by
    funext operand
    cases operand with
    | member candidate => exact h candidate
    | _ => rfl
  cases operands with
  | nil => rfl
  | cons first rest =>
    simp only [operatorHolds]
    unfold setHolds
    rw [hmember]

/-- No test tells sets apart that have the same members. -/
theorem accepts_ofMembers {members others : List Json}
    (h : ∀ candidate, hasMember members candidate = hasMember others candidate) (t : Test) :
    t.accepts (Cell.ofMembers members) = t.accepts (Cell.ofMembers others) := by
  cases members with
  | nil =>
    cases others with
    | nil => rfl
    | cons m rest => cases (h m).trans (hasMember_of_mem (.head rest))
  | cons n rest =>
    cases others with
    | nil => cases (h n).symm.trans (hasMember_of_mem (.head rest))
    | cons m more =>
      simp only [Cell.ofMembers]
      unfold Test.accepts
      simp only [operatorHolds_set h]

/-! ### Sets as they are stored of items -/

/-- The set that is stored of some items: the members made of them, of those that are the same the
first, in the order in which they first occur. -/
structure StoredSet (a : Attribute) (items members : List Json) : Prop where
  inOrder : members.Sublist (items.filterMap a.member?)
  ordered : members.Pairwise fun m n =>
    firstPlace (items.filterMap a.member?) m < firstPlace (items.filterMap a.member?) n
  apart : members.Pairwise fun m n => sameMember m n = false
  /-- A member that is not the same as one before it is stored as it is. -/
  first : ∀ before m after, items.filterMap a.member? = before ++ m :: after →
    hasMember before m = false → m ∈ members
  made : ∀ m ∈ members, ∃ item ∈ items, encodeMember a item = .ok (some m)
  complete : ∀ item ∈ items, item.isBlank = false →
    ∃ m, encodeMember a item = .ok (some m) ∧ hasMember members m = true
  /-- The set is read back as it is stored. -/
  kept : (Cell.structured (.arr members)).kept = .structured (.arr members)

theorem storedSet_distinctMembers (hset : a.type.allowsSets = true) {items : List Json}
    (hitems : ∀ item ∈ items, ∃ made, encodeMember a item = .ok made) :
    StoredSet a items (distinctMembers (items.filterMap a.member?)) where
  inOrder := distinctMembers_sublist _
  ordered := pairwise_firstPlace (exists_str_of_member? hset)
  apart := pairwise_distinctMembers _
  first := by
    intro before m after hmembers hfirst
    rw [hmembers]
    exact mem_distinctMembers_of_first after hfirst
  made _ hm := exists_item_of_mem hm
  complete := by
    intro item hitem hgiven
    obtain ⟨made, hmade⟩ := hitems item hitem
    have hsome : a.member? item ≠ none := fun hnone => by
      simp [(member?_eq_none_iff hset hmade).mp hnone] at hgiven
    obtain ⟨m, hm⟩ := Option.ne_none_iff_exists'.mp hsome
    have hmember := member?_eq_some_iff.mp hm
    exact ⟨m, hmember, hasMember_of_item hitem hmember⟩
  kept := kept_of_texts fun m hm =>
    exists_str_of_member? hset m ((distinctMembers_sublist _).subset hm)

theorem StoredSet.subset (hset : a.type.allowsSets = true) {items members others : List Json}
    (h : StoredSet a items members) (h' : StoredSet a items others) : members ⊆ others := by
  intro m hm
  have htexts : ∀ n ∈ items.filterMap a.member?, ∃ s, n = .str s := exists_str_of_member? hset
  obtain ⟨before, first, after, hmade, hnew, hsame⟩ := exists_first htexts (h.inOrder.subset hm)
  have hfirst := eq_of_same_of_apart (fun n hn => htexts n (h.inOrder.subset hn)) h.apart
    (h.first before first after hmade hnew) hm hsame
  rw [← hfirst]
  exact h'.first before first after hmade hnew

/-- What is said of the set that is stored of some items is true of one array only. -/
theorem StoredSet.unique (hset : a.type.allowsSets = true) {items members others : List Json}
    (h : StoredSet a items members) (h' : StoredSet a items others) : members = others := by
  let places := firstPlace (items.filterMap a.member?)
  have hirrefl : Std.Irrefl fun m n => places m < places n := ⟨fun m => Nat.lt_irrefl _⟩
  have hantisymm : Std.Antisymm fun m n => places m < places n :=
    ⟨fun m n hmn hnm => absurd hnm (Nat.lt_asymm hmn)⟩
  exact List.Subset.antisymm_of_pairwise h.ordered h'.ordered (h.subset hset h')
    (h'.subset hset h)

theorem hasMember_stored_iff (hset : a.type.allowsSets = true) {items : List Json}
    {candidate : Json} :
    hasMember (distinctMembers (items.filterMap a.member?)) candidate = true ↔
      ∃ item ∈ items, item.isBlank = false ∧
        ∃ m, encodeMember a item = .ok (some m) ∧ sameMember m candidate = true := by
  rw [hasMember_distinctMembers (exists_str_of_member? hset), hasMember, List.any_eq_true]
  constructor
  · rintro ⟨m, hm, hsame⟩
    obtain ⟨item, hitem, hmember⟩ := List.mem_filterMap.mp hm
    have hmade := member?_eq_some_iff.mp hmember
    exact ⟨item, hitem, (exists_of_encodeMember hmade).1, m, hmade, hsame⟩
  · rintro ⟨item, hitem, -, m, hm, hsame⟩
    exact ⟨m, List.mem_filterMap.mpr ⟨item, hitem, member?_eq_some_iff.mpr hm⟩, hsame⟩

/-- Members can be asked for just if they could be stored. -/
theorem compileTest_contains_iff (hisSet : a.isSet = true) (hset : a.type.allowsSets = true)
    {t : Test} : compileTest a .contains raw = .ok t ↔
      ∃ m, encodeMember a raw = .ok (some m) ∧ ⟨a.id, .contains, [.member m]⟩ = t := by
  rw [compileTest_contains_eq_ok_iff hisSet, and_iff_right_iff_imp]
  rintro ⟨m, hm, -⟩ items rfl
  obtain ⟨-, cell, -, hcell, -⟩ := exists_of_encodeMember hm
  obtain ⟨s, hs⟩ := exists_str_of_allowsSets hset hcell
  cases hs

/-- An array of items that are accepted is a set. Nothing is stored of it just if all of them are
blank, and else the distinct members made of them in the order in which they first occur, which is
one array only; whether it contains what is asked for is whether a member made of one of the items
is the same; and all arrays of the same items, in whatever order and however often, pass the same
tests. -/
theorem stored_of_items (hisSet : a.isSet = true) (hset : a.type.allowsSets = true)
    {items : List Json} (hitems : ∀ item ∈ items, ∃ made, encodeMember a item = .ok made) :
    ∃ made, encodeValue a (.arr items) = .ok made ∧
      (made = none ↔ ∀ item ∈ items, item.isBlank = true) ∧
      (∀ cell, made = some cell → ∃ members, cell = .structured (.arr members) ∧
        StoredSet a items members ∧ ∀ others, StoredSet a items others → others = members) ∧
      (∀ candidate,
        (∀ n, encodeMember a candidate = .ok (some n) →
          ∃ t, compileTest a .contains candidate = .ok t) ∧
        ∀ t, compileTest a .contains candidate = .ok t →
          ∃ n, encodeMember a candidate = .ok (some n) ∧
            (t.accepts made = true ↔ ∃ item ∈ items, item.isBlank = false ∧
              ∃ m, encodeMember a item = .ok (some m) ∧ sameMember m n = true)) ∧
      ∀ others, (∀ item, item ∈ others ↔ item ∈ items) →
        ∃ again, encodeValue a (.arr others) = .ok again ∧
          ∀ t : Test, t.accepts again = t.accepts made := by
  have hstored := storedSet_distinctMembers hset hitems
  refine ⟨_, (encodeValue_set_eq_ok_iff hisSet).mpr ⟨hitems, rfl⟩, ?_, ?_, fun candidate => ?_,
    fun others hothers => ?_⟩
  · rw [Json.items, ofMembers_eq_none_iff]
    constructor
    · intro hnone item hitem
      by_contra hgiven
      obtain ⟨m, -, hm⟩ := hstored.complete item hitem (Bool.eq_false_iff.mpr hgiven)
      rw [hnone] at hm
      cases hm
    · intro hblank
      refine List.eq_nil_iff_forall_not_mem.mpr fun m hm => ?_
      obtain ⟨item, hitem, hmade⟩ := hstored.made m hm
      cases (hblank item hitem).symm.trans (exists_of_encodeMember hmade).1
  · intro cell hcell
    exact ⟨_, (ofMembers_eq_some_iff.mp hcell).2, hstored,
      fun others hothers => hothers.unique hset hstored⟩
  · refine ⟨fun n hn => ⟨_, (compileTest_contains_iff hisSet hset).mpr ⟨n, hn, rfl⟩⟩, ?_⟩
    intro t ht
    obtain ⟨n, hn, rfl⟩ := (compileTest_contains_iff hisSet hset).mp ht
    refine ⟨n, hn, ?_⟩
    rw [accepts_contains_ofMembers]
    exact hasMember_stored_iff hset
  · refine ⟨_, (encodeValue_set_eq_ok_iff hisSet).mpr
      ⟨fun item hitem => hitems item ((hothers item).mp hitem), rfl⟩, accepts_ofMembers ?_⟩
    intro candidate
    rw [Json.items, Json.items, Bool.eq_iff_iff, hasMember_stored_iff hset,
      hasMember_stored_iff hset]
    simp only [hothers]

end

def phones : Attribute := { websites with slug := "phones", title := "Phones", type := .phone }

theorem encodeMember_phones {s : String} (hblank : Text.isBlank s = false) :
    encodeMember phones (.str s) = .ok (some (.str s)) := by
  rw [encodeMember, Json.isBlank_str, hblank, if_neg Bool.false_ne_true]
  rfl

/-- A number that is given again in other letters is stored once, as it was given first; and given
the other way round, the array passes the same tests. -/
theorem stored_of_phones :
    encodeValue phones (.arr [.str "0800-CALL", .str " ", .str "0800-call", .str "112"]) =
      .ok (some (.structured (.arr [.str "0800-CALL", .str "112"]))) ∧
    (∃ t, compileTest phones .contains (.str "0800-Call") = .ok t ∧
      t.accepts (some (.structured (.arr [.str "0800-CALL", .str "112"]))) = true) ∧
    ∃ again,
      encodeValue phones (.arr [.str "112", .str "0800-call", .str " ", .str "0800-CALL"]) =
        .ok again ∧
      ∀ t : Test, t.accepts again =
        t.accepts (some (.structured (.arr [.str "0800-CALL", .str "112"]))) := by
  have hfirst := encodeMember_phones (s := "0800-CALL") (by decide)
  have hblank : encodeMember phones (.str " ") = .ok none := encodeMember_of_blank (by decide)
  have hagain := encodeMember_phones (s := "0800-call") (by decide)
  have hother := encodeMember_phones (s := "112") (by decide)
  have hitems : ∀ item ∈ [Json.str "0800-CALL", .str " ", .str "0800-call", .str "112"],
      ∃ made, encodeMember phones item = .ok made := by
    simp only [List.forall_mem_cons]
    exact ⟨⟨_, hfirst⟩, ⟨_, hblank⟩, ⟨_, hagain⟩, ⟨_, hother⟩, nofun⟩
  have hsame : sameMember (.str "0800-CALL") (.str "0800-call") = true := by decide +kernel
  have hnew : sameMember (.str "0800-CALL") (.str "112") = false := by decide +kernel
  have hencode :
      encodeValue phones (.arr [.str "0800-CALL", .str " ", .str "0800-call", .str "112"]) =
        .ok (some (.structured (.arr [.str "0800-CALL", .str "112"]))) := by
    refine (encodeValue_set_eq_ok_iff rfl).mpr ⟨hitems, ?_⟩
    rw [Json.items, List.filterMap_cons_some (member?_of_encodeMember hfirst),
      List.filterMap_cons_none (member?_of_encodeMember hblank),
      List.filterMap_cons_some (member?_of_encodeMember hagain),
      List.filterMap_cons_some (member?_of_encodeMember hother), List.filterMap_nil,
      distinctMembers_cons, List.filter_cons_of_neg (by simp [hsame]),
      List.filter_cons_of_pos (by simp [hnew]), List.filter_nil]
    rfl
  obtain ⟨made, hmade, -, -, hcontains, hreordered⟩ :=
    stored_of_items (a := phones) rfl rfl hitems
  cases hencode.symm.trans hmade
  refine ⟨hencode, ?_, ?_⟩
  · have hasked := encodeMember_phones (s := "0800-Call") (by decide)
    obtain ⟨t, ht⟩ := (hcontains _).1 _ hasked
    obtain ⟨n, hn, haccepts⟩ := (hcontains _).2 t ht
    cases hasked.symm.trans hn
    exact ⟨t, ht, haccepts.mpr ⟨_, .head _, by decide, _, hfirst, by decide +kernel⟩⟩
  · exact hreordered (List.reverse _) fun _ => List.mem_reverse

end RecordStore
