import RecordStore.Proofs.Filters
import RecordStore.Proofs.Loading

/-!
# Forms of matchers

The compiler drops parts of a filter, takes a single part for its group and lets a part that accepts
everything decide a disjunction. Main statement: what is left of the tree is in normal form. It
accepts everything only as a whole, and what it joins are always several parts. The attributes that
it gives as those it looks at are named by conditions of the filter, and no other values count.
-/

namespace RecordStore

/-! ### Normal forms -/

namespace Matcher

/-- No part of a matcher accepts everything, and what is joined are at least two parts. -/
inductive Reduced : Matcher → Prop
  | test (t : Test) : Reduced (.test t)
  | and {parts : List Matcher} (several : 2 ≤ parts.length) (each : ∀ part ∈ parts, Reduced part) :
      Reduced (.and parts)
  | or {parts : List Matcher} (several : 2 ≤ parts.length) (each : ∀ part ∈ parts, Reduced part) :
      Reduced (.or parts)

/-- What accepts everything does so as a whole. -/
inductive Normal : Matcher → Prop
  | all : Normal .all
  | reduced {m : Matcher} (reduced : Reduced m) : Normal m

theorem Reduced.isAll {m : Matcher} (h : m.Reduced) : m.isAll = false := by
  cases h <;> rfl

theorem Normal.reduced_of_isAll {m : Matcher} (h : m.Normal) (hall : m.isAll = false) :
    m.Reduced := by
  cases h with
  | all => cases hall
  | reduced hreduced => exact hreduced

theorem two_le_length {α : Type} {parts : List α} (hnil : parts ≠ [])
    (hone : ∀ part, parts ≠ [part]) : 2 ≤ parts.length := by
  match parts with
  | [] => exact absurd rfl hnil
  | [part] => exact absurd rfl (hone part)
  | _ :: _ :: rest => exact Nat.le_add_left 2 rest.length

/-- Parts in normal form are put together into a matcher in normal form. -/
theorem Normal.combine (combinator : Combinator) {parts : List Matcher} (hne : parts ≠ [])
    (h : ∀ part ∈ parts, part.Normal) : (Matcher.combine combinator parts).Normal := by
  unfold Matcher.combine
  cases combinator with
  | and =>
    have hkept : ∀ part ∈ parts.filter fun part => !part.isAll, part.Reduced := by
      intro part hpart
      obtain ⟨hpart, hall⟩ := List.mem_filter.mp hpart
      exact (h part hpart).reduced_of_isAll (by simpa using hall)
    dsimp only
    split
    · exact .all
    · rename_i part hone
      exact .reduced (hkept part (by simp [hone]))
    · rename_i hnil hone
      exact .reduced (.and (two_le_length hnil hone) hkept)
  | or =>
    dsimp only
    split
    · exact .all
    · rename_i hany
      have hreduced : ∀ part ∈ parts, part.Reduced := fun part hpart =>
        (h part hpart).reduced_of_isAll
          (Bool.eq_false_iff.mpr fun hall => hany (List.any_eq_true.mpr ⟨part, hpart, hall⟩))
      split
      · rename_i part
        exact .reduced (hreduced part List.mem_cons_self)
      · rename_i hone
        exact .reduced (.or (two_le_length hne hone) hreduced)

/-! ### What is looked at -/

theorem mem_attributeIdsOf {parts : List Matcher} {id : Id} :
    id ∈ attributeIdsOf parts ↔ ∃ part ∈ parts, id ∈ part.attributeIds := by
  induction parts with
  | nil => simp [attributeIdsOf]
  | cons part rest ih => simp [attributeIdsOf, ih]

/-- What parts look at when they are put together, some of them looks at by itself. -/
theorem exists_of_mem_combine {combinator : Combinator} {parts : List Matcher} {id : Id}
    (h : id ∈ (combine combinator parts).attributeIds) :
    ∃ part ∈ parts, id ∈ part.attributeIds := by
  unfold combine at h
  cases combinator with
  | and =>
    have hkept : ∀ {ms : List Matcher}, (parts.filter fun part => !part.isAll) = ms →
        (∃ part ∈ ms, id ∈ part.attributeIds) → ∃ part ∈ parts, id ∈ part.attributeIds := by
      rintro _ rfl ⟨part, hpart, hid⟩
      exact ⟨part, (List.mem_filter.mp hpart).1, hid⟩
    dsimp only at h
    split at h
    · simp [attributeIds] at h
    · rename_i part hone
      exact hkept hone ⟨part, List.mem_cons_self, h⟩
    · rw [attributeIds] at h
      exact hkept rfl (mem_attributeIdsOf.mp h)
  | or =>
    dsimp only at h
    split at h
    · simp [attributeIds] at h
    · split at h
      · exact ⟨_, List.mem_cons_self, h⟩
      · rw [attributeIds] at h
        exact mem_attributeIdsOf.mp h

end Matcher

/-! ### Compiled trees -/

/-- What the matcher without tests has, and what parts pass on when they are put together. -/
structure Matcher.Inherited (P : Matcher → Prop) : Prop where
  all : P .all
  combine (combinator : Combinator) {parts : List Matcher} (ne : parts ≠ [])
    (each : ∀ part ∈ parts, P part) : P (.combine combinator parts)

namespace Matcher.Inherited

variable {unknown : UnknownPolicy} {attributes : List Attribute} {P : Matcher → Prop}

mutual

/-- What is inherited, and what the tests of all conditions have, every compiled matcher has. -/
theorem of_compileClause (hP : Inherited P) : ∀ (clause : Clause) {m : Option Matcher},
    (∀ c ∈ clause.conditions, ∀ a, (attributes.find? fun a => a.slug == c.slug) = some a →
      P (.test (c.test a))) →
      compileClause unknown attributes clause = .ok m → ∀ part ∈ m, P part
  | .condition c, m, htest, h, part, hpart => by
    obtain ⟨-, rfl⟩ := compileCondition_eq_ok_iff.mp h
    obtain ⟨a, ha, rfl⟩ := Option.map_eq_some_iff.mp hpart
    exact htest c (by simp [Clause.conditions]) a ha
  | .group combinator [], m, _, h, part, hpart => by
    cases h
    cases hpart
    exact hP.all
  | .group combinator (clause :: rest), m, htest, h, part, hpart => by
    obtain ⟨parts, hparts, rfl⟩ :=
      (compileClause_group_eq_ok_iff (List.cons_ne_nil clause rest)).mp h
    have heach := of_compileClauses hP (clause :: rest) htest hparts
    split at hpart
    · cases hpart
    · cases hpart
      exact hP.combine combinator ‹_› heach

theorem of_compileClauses (hP : Inherited P) : ∀ (clauses : List Clause) {parts : List Matcher},
    (∀ c ∈ Clause.conditionsOf clauses, ∀ a,
      (attributes.find? fun a => a.slug == c.slug) = some a → P (.test (c.test a))) →
      compileClauses unknown attributes clauses = .ok parts → ∀ part ∈ parts, P part
  | [], parts, _, h, part, hpart => by
    cases h
    cases hpart
  | clause :: rest, parts, htest, h, part, hpart => by
    rw [Clause.conditionsOf, List.forall_mem_append] at htest
    obtain ⟨m, hm, h⟩ := bind_eq_ok_iff.mp h
    obtain ⟨others, hothers, h⟩ := bind_eq_ok_iff.mp h
    cases h
    rcases List.mem_append.mp hpart with hpart | hpart
    · exact of_compileClause hP clause htest.1 hm part (by simpa using hpart)
    · exact of_compileClauses hP rest htest.2 hothers part hpart

end

theorem of_compileFilter (hP : Inherited P) {filter : Option Filter} {m : Matcher}
    (htest : ∀ c ∈ Filter.conditions filter, ∀ a,
      (attributes.find? fun a => a.slug == c.slug) = some a → P (.test (c.test a)))
    (h : compileFilter unknown attributes filter = .ok m) : P m := by
  cases filter with
  | none =>
    cases h
    exact hP.all
  | some f =>
    obtain ⟨part, hpart, rfl⟩ := compileFilter_some_eq_ok_iff.mp h
    cases part with
    | none => exact hP.all
    | some part => exact hP.of_compileClause (.group f.combinator f.clauses) htest hpart part rfl

end Matcher.Inherited

namespace Matcher

theorem inherited_normal : Inherited Normal where
  all := .all
  combine := Normal.combine

/-- Where all attributes are of some sort that matchers look at, so are those that they look at when
they are put together. -/
theorem inherited_attributeIds (Q : Id → Prop) :
    Inherited fun m => ∀ id ∈ m.attributeIds, Q id where
  all id hid := by
    rw [attributeIds] at hid
    cases hid
  combine combinator parts _ each id hid := by
    obtain ⟨part, hpart, hid⟩ := exists_of_mem_combine hid
    exact each part hpart id hid

end Matcher

/-- A compiled filter is in normal form, and what it looks at are attributes that conditions of the
filter name. Any matcher accepts alike the values of two rows that agree on what it looks at. -/
theorem normal_of_compileFilter (unknown : UnknownPolicy) (attributes : List Attribute)
    (filter : Option Filter) :
    (∀ m, compileFilter unknown attributes filter = .ok m → m.Normal ∧
      ∀ id ∈ m.attributeIds, ∃ c ∈ Filter.conditions filter, ∃ a ∈ attributes,
        a.slug = c.slug ∧ a.id = id) ∧
    ∀ (m : Matcher) (cells cells' : Cells), (∀ id ∈ m.attributeIds, cells id = cells' id) →
      m.accepts cells = m.accepts cells' := by
  refine ⟨fun m h => ⟨?_, ?_⟩, fun m cells cells' => m.accepts_congr⟩
  · exact Matcher.inherited_normal.of_compileFilter (fun c _ a _ => .reduced (.test (c.test a))) h
  · refine (Matcher.inherited_attributeIds _).of_compileFilter (fun c hc a ha id hid => ?_) h
    rw [Matcher.attributeIds, List.mem_singleton] at hid
    have hslug : a.slug = c.slug := by simpa using List.find?_some ha
    exact ⟨c, hc, a, List.mem_of_find?_eq_some ha, hslug, hid.symm⟩

/-! ### A tree with little in it -/

/-- There is a name, or there is none or some, and all else says nothing or is always true. -/
def nestedFilter : Filter :=
  ⟨.and, [.group .and [], .group .or [.condition ⟨"name", .isNotEmpty, .null⟩],
    .group .and [.condition ⟨"ghost", .isEmpty, .null⟩],
    .group .or [.condition ⟨"name", .isEmpty, .null⟩,
      .group .and [.condition ⟨"name", .isNotEmpty, .null⟩, .group .or []]]]⟩

def nestedMatcher : Matcher :=
  .and [.test ⟨default, .isNotEmpty, []⟩,
    .or [.test ⟨default, .isEmpty, []⟩, .test ⟨default, .isNotEmpty, []⟩]]

/-- Two parts are left in each of two groups, and values of other attributes than the one named do
not count. -/
theorem normal_nestedMatcher :
    compileFilter .ignore [exampleAttribute] (some nestedFilter) = .ok nestedMatcher ∧
      nestedMatcher.Normal ∧ nestedMatcher.accepts (fun _ => none) =
        nestedMatcher.accepts fun id => if id = default then none else some (.boolean true) := by
  have hcompiled : compileFilter .ignore [exampleAttribute] (some nestedFilter) =
      .ok nestedMatcher := by cbv
  obtain ⟨hnormal, hreads⟩ := normal_of_compileFilter .ignore [exampleAttribute] (some nestedFilter)
  refine ⟨hcompiled, (hnormal nestedMatcher hcompiled).1, hreads nestedMatcher _ _ fun id hid => ?_⟩
  obtain ⟨-, -, a, ha, -, rfl⟩ := (hnormal nestedMatcher hcompiled).2 id hid
  rw [List.mem_singleton.mp ha]
  exact (if_pos rfl).symm

end RecordStore
