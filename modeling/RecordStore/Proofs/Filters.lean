import Mathlib
import RecordStore.Query.Filter

/-!
# What filters mean

A filter can be read directly: a condition on an unknown attribute says nothing, nor does a group
all of whose members say nothing, and any other group joins what its members say. The compiler
drops, unwraps and absorbs parts on its way. Main statement: it fails just where some condition of
the tree is not allowed, and otherwise its matcher accepts the rows of which the filter holds.
-/

namespace RecordStore

/-! ### Conditions -/

/-- What a value stands for in the domain of an attribute's slot, if it stands for anything. -/
def Attribute.operand? (a : Attribute) (raw : Json) : Option Operand :=
  match a.slot, raw with
  | .structured, raw => (encodeMember a raw).toOption.join.map .member
  | .text, .str s => some (.text (Text.fold s))
  | .number, raw => (coerceNumber a.slug raw).toOption.map .number
  | .boolean, raw => (coerceBool a.slug raw).toOption.map .boolean
  | .date, .str s =>
    (if a.type = .date then Calendar.parseDate s else Calendar.parseTimestamp s).toOption.map .date
  | .reference, .str s => (Id.ofTrimmed? s).map .reference
  | _, _ => none

namespace Condition

/-- The values that a condition compares with. -/
def compared (c : Condition) : List Json :=
  if c.operator.takesOperand then
    match c.operand with
    | .arr items => items
    | one => [one]
  else []

/-- A condition may be put on an attribute: the operator is one of the attribute's, and what it
needs to compare with is there, is not more than it takes, and stands for something. -/
structure Allowed (a : Attribute) (c : Condition) : Prop where
  legal : c.operator ∈ a.operators
  given : c.operator.takesOperand = true → c.operand.isBlank = false
  single : c.operator.takesOperand = true → ∀ items, c.operand = .arr items →
    c.operator = .isIn ∨ c.operator = .isNotIn
  denotes : ∀ raw ∈ c.compared, (a.operand? raw).isSome = true

/-- A condition makes a filter fail: it is not allowed on the attribute that it names, or it names
none where that is rejected. -/
def Refused (unknown : UnknownPolicy) (attributes : List Attribute) (c : Condition) : Prop :=
  match attributes.find? fun a => a.slug == c.slug with
  | some a => ¬ c.Allowed a
  | none => unknown = .reject

def test (c : Condition) (a : Attribute) : Test :=
  ⟨a.id, c.operator, c.compared.filterMap a.operand?⟩

/-- What a condition says of the values of a row; nothing if it names no attribute. -/
def holds? (attributes : List Attribute) (cells : Cells) (c : Condition) : Option Bool :=
  (attributes.find? fun a => a.slug == c.slug).map fun a => (c.test a).accepts (cells a.id)

end Condition

/-! ### Trees -/

/-- What a group says whose members say the given. -/
def Combinator.joins : Combinator → List Bool → Bool
  | .and, said => said.all id
  | .or, said => said.any id

namespace Clause

mutual

/-- The conditions of a clause, however deep. -/
def conditions : Clause → List Condition
  | .condition c => [c]
  | .group _ clauses => conditionsOf clauses

def conditionsOf : List Clause → List Condition
  | [] => []
  | clause :: rest => conditions clause ++ conditionsOf rest

end

mutual

/-- What a clause says of the values of a row. A group without members is true; one whose members
all say nothing says nothing. -/
def holds? (attributes : List Attribute) (cells : Cells) : Clause → Option Bool
  | .condition c => c.holds? attributes cells
  | .group _ [] => some true
  | .group combinator clauses =>
    match said attributes cells clauses with
    | [] => none
    | several => some (combinator.joins several)

/-- What those clauses say that say anything. -/
def said (attributes : List Attribute) (cells : Cells) : List Clause → List Bool
  | [] => []
  | clause :: rest => (holds? attributes cells clause).toList ++ said attributes cells rest

end

end Clause

namespace Filter

def conditions (filter : Option Filter) : List Condition :=
  (filter.map fun f => Clause.conditionsOf f.clauses).getD []

/-- Whether a filter holds of the values of a row; one that says nothing does, and so does none. -/
def holds (attributes : List Attribute) (cells : Cells) (filter : Option Filter) : Bool :=
  (filter.bind fun f => Clause.holds? attributes cells (.group f.combinator f.clauses)).getD true

end Filter

/-! ### Compiling conditions -/

section

variable {unknown : UnknownPolicy} {attributes : List Attribute} {a : Attribute}

theorem coerceOperand_eq_ok_iff {raw : Json} {o : Operand} :
    coerceOperand a raw = .ok o ↔ a.operand? raw = some o := by
  unfold coerceOperand Attribute.operand?
  cases hslot : a.slot with
  | structured =>
    dsimp only
    cases hmember : encodeMember a raw with
    | error e => simp [bind, Except.bind, Except.toOption]
    | ok member => cases member <;> simp [bind, Except.bind, pure, Except.pure, Except.toOption]
  | text =>
    cases raw with
    | str s => simp [expectString, bind, Except.bind, pure, Except.pure]
    | _ => simp [expectString, bind, Except.bind]
  | number =>
    dsimp only
    exact bind_pure_eq_ok_iff
  | boolean =>
    dsimp only
    exact bind_pure_eq_ok_iff
  | date =>
    cases raw with
    | str s =>
      by_cases hdate : a.type = .date
      · simp only [expectString, ok_bind, hdate, if_true]
        exact bind_pure_eq_ok_iff
      · simp only [expectString, ok_bind, hdate, if_false]
        exact bind_pure_eq_ok_iff
    | _ => simp [expectString, bind, Except.bind]
  | reference =>
    cases raw with
    | str s =>
      cases hid : Id.ofTrimmed? s with
      | none => simp [coerceId, expectString, hid, bind, Except.bind]
      | some id => simp [coerceId, expectString, hid, bind, Except.bind, pure, Except.pure]
    | _ => simp [coerceId, expectString, bind, Except.bind]

theorem mapM_coerceOperand_eq_ok_iff {raws : List Json} {os : List Operand} :
    raws.mapM (coerceOperand a) = .ok os ↔
      (∀ raw ∈ raws, (a.operand? raw).isSome = true) ∧ os = raws.filterMap a.operand? := by
  induction raws generalizing os with
  | nil =>
    rw [List.mapM_nil]
    exact ⟨fun h => ⟨by simp, by cases h; rfl⟩, fun h => by rw [h.2]; rfl⟩
  | cons raw rest ih =>
    rw [List.mapM_cons]
    constructor
    · intro h
      obtain ⟨o, ho, h⟩ := bind_eq_ok_iff.mp h
      obtain ⟨others, hothers, h⟩ := bind_eq_ok_iff.mp h
      cases h
      rw [coerceOperand_eq_ok_iff] at ho
      obtain ⟨hrest, rfl⟩ := ih.mp hothers
      exact ⟨List.forall_mem_cons.mpr ⟨by simp [ho], hrest⟩, by simp [ho]⟩
    · rintro ⟨hall, rfl⟩
      obtain ⟨hhere, hrest⟩ := List.forall_mem_cons.mp hall
      obtain ⟨o, ho⟩ := Option.isSome_iff_exists.mp hhere
      refine bind_eq_ok_iff.mpr ⟨o, coerceOperand_eq_ok_iff.mpr ho, ?_⟩
      refine bind_eq_ok_iff.mpr ⟨_, ih.mpr ⟨hrest, rfl⟩, ?_⟩
      simp [ho, pure, Except.pure]

theorem rawOperands_eq_ok_iff {c : Condition} {raws : List Json}
    (htakes : c.operator.takesOperand = true) :
    rawOperands a c.operator c.operand = .ok raws ↔ c.operand.isBlank = false ∧
      (∀ items, c.operand = .arr items → c.operator = .isIn ∨ c.operator = .isNotIn) ∧
      raws = c.compared := by
  unfold rawOperands Condition.compared
  rw [if_pos htakes]
  by_cases hblank : c.operand.isBlank = true
  · simp [hblank]
  · rw [if_neg hblank, Bool.eq_false_iff.mpr hblank]
    cases c.operand with
    | arr items =>
      by_cases hseveral : c.operator = .isIn ∨ c.operator = .isNotIn
      · simp [hseveral, @eq_comm _ raws]
      · simp [hseveral]
    | _ => simp [@eq_comm _ raws]

theorem compileTest_eq_ok_iff {c : Condition} {t : Test} :
    compileTest a c.operator c.operand = .ok t ↔ c.Allowed a ∧ t = c.test a := by
  unfold compileTest
  by_cases hlegal : c.operator ∈ a.operators
  · rw [if_neg (by simpa using hlegal)]
    by_cases htakes : c.operator.takesOperand = true
    · rw [if_pos htakes]
      constructor
      · intro h
        obtain ⟨raws, hraws, h⟩ := bind_eq_ok_iff.mp h
        obtain ⟨os, hos, h⟩ := bind_eq_ok_iff.mp h
        cases h
        obtain ⟨hgiven, hsingle, rfl⟩ := (rawOperands_eq_ok_iff htakes).mp hraws
        obtain ⟨hdenotes, rfl⟩ := mapM_coerceOperand_eq_ok_iff.mp hos
        exact ⟨⟨hlegal, fun _ => hgiven, fun _ => hsingle, hdenotes⟩, rfl⟩
      · rintro ⟨hallowed, rfl⟩
        refine bind_eq_ok_iff.mpr ⟨c.compared, ?_, ?_⟩
        · exact (rawOperands_eq_ok_iff htakes).mpr
            ⟨hallowed.given htakes, hallowed.single htakes, rfl⟩
        · refine bind_eq_ok_iff.mpr ⟨c.compared.filterMap a.operand?, ?_, rfl⟩
          exact mapM_coerceOperand_eq_ok_iff.mpr ⟨hallowed.denotes, rfl⟩
    · have hcompared : c.compared = [] := if_neg htakes
      rw [if_neg htakes, Condition.test, hcompared]
      constructor
      · intro h
        cases h
        refine ⟨⟨hlegal, fun h => absurd h htakes, fun h => absurd h htakes, ?_⟩, rfl⟩
        simp [hcompared]
      · rintro ⟨-, rfl⟩
        rfl
  · rw [if_pos (by simpa using hlegal)]
    simp only [reduceCtorEq, false_iff]
    exact fun h => hlegal h.1.legal

/-- The matcher of a condition, if the condition is not refused. -/
theorem compileCondition_eq_ok_iff {c : Condition} {m : Option Matcher} :
    compileCondition unknown attributes c = .ok m ↔ ¬ c.Refused unknown attributes ∧
      m = (attributes.find? fun a => a.slug == c.slug).map fun a => .test (c.test a) := by
  unfold compileCondition resolve Condition.Refused
  cases hfind : attributes.find? fun a => a.slug == c.slug with
  | some a =>
    dsimp only
    rw [not_not, ok_bind]
    constructor
    · intro h
      obtain ⟨t, ht, h⟩ := bind_eq_ok_iff.mp h
      cases h
      obtain ⟨hallowed, rfl⟩ := compileTest_eq_ok_iff.mp ht
      exact ⟨hallowed, rfl⟩
    · rintro ⟨hallowed, rfl⟩
      exact bind_eq_ok_iff.mpr ⟨c.test a, compileTest_eq_ok_iff.mpr ⟨hallowed, rfl⟩, rfl⟩
  | none =>
    cases unknown with
    | ignore => simp [bind, Except.bind, pure, Except.pure, eq_comm]
    | reject => simp [bind, Except.bind]

theorem Condition.Refused.reject {c : Condition} (h : c.Refused .ignore attributes) :
    c.Refused .reject attributes := by
  unfold Refused at h ⊢
  split at h
  · exact h
  · rfl

/-! ### Compiling trees -/

theorem allAccept_eq {cells : Cells} (parts : List Matcher) :
    Matcher.allAccept cells parts = parts.all (Matcher.accepts cells) := by
  induction parts with
  | nil => rfl
  | cons part rest ih => rw [Matcher.allAccept, List.all_cons, ih]

theorem someAccepts_eq {cells : Cells} (parts : List Matcher) :
    Matcher.someAccepts cells parts = parts.any (Matcher.accepts cells) := by
  induction parts with
  | nil => rfl
  | cons part rest ih => rw [Matcher.someAccepts, List.any_cons, ih]

theorem Matcher.accepts_of_isAll {cells : Cells} {m : Matcher} (h : m.isAll = true) :
    m.accepts cells = true := by
  cases m <;> first | rfl | cases h

/-- However the parts of a group are put together, the matcher joins them. -/
theorem Matcher.accepts_combine (cells : Cells) (combinator : Combinator) (parts : List Matcher) :
    (combine combinator parts).accepts cells = combinator.joins (parts.map (accepts cells)) := by
  unfold combine Combinator.joins
  cases combinator with
  | and =>
    -- what is left out of a conjunction accepts everything
    have hkept : (parts.filter fun part => !part.isAll).all (accepts cells) =
        parts.all (accepts cells) := by
      rw [List.all_filter]
      refine List.all_congr rfl fun part => ?_
      cases hall : part.isAll with
      | true => simp [accepts_of_isAll hall]
      | false => rfl
    dsimp only
    rw [List.all_map, Function.id_comp, ← hkept]
    split
    · rename_i h
      rw [h]
      rfl
    · rename_i part h
      simp [h]
    · rw [accepts, allAccept_eq]
  | or =>
    dsimp only
    rw [List.any_map, Function.id_comp]
    split
    · rename_i h
      obtain ⟨part, hpart, hall⟩ := List.any_eq_true.mp h
      rw [List.any_eq_true.mpr ⟨part, hpart, accepts_of_isAll hall⟩]
      rfl
    · split
      · simp
      · rw [accepts, someAccepts_eq]

theorem compileClause_group_eq_ok_iff {combinator : Combinator} {clauses : List Clause}
    (hne : clauses ≠ []) {m : Option Matcher} :
    compileClause unknown attributes (.group combinator clauses) = .ok m ↔
      ∃ parts, compileClauses unknown attributes clauses = .ok parts ∧
        m = if parts = [] then none else some (.combine combinator parts) := by
  cases clauses with
  | nil => exact absurd rfl hne
  | cons clause rest =>
    rw [compileClause, bind_eq_ok_iff]
    · refine exists_congr fun parts => and_congr_right fun _ => ?_
      cases parts <;> simp [pure, Except.pure, @eq_comm _ m]
    · simp

mutual

theorem exists_compileClause_iff : ∀ clause : Clause,
    (∃ m, compileClause unknown attributes clause = .ok m) ↔
      ∀ c ∈ clause.conditions, ¬ c.Refused unknown attributes
  | .condition c => by
    simp [compileClause, compileCondition_eq_ok_iff, Clause.conditions]
  | .group combinator [] => by simp [compileClause, Clause.conditions, Clause.conditionsOf]
  | .group combinator (clause :: rest) => by
    rw [Clause.conditions, ← exists_compileClauses_iff (clause :: rest)]
    simp only [compileClause_group_eq_ok_iff (List.cons_ne_nil clause rest)]
    exact ⟨fun ⟨_, parts, h, _⟩ => ⟨parts, h⟩, fun ⟨parts, h⟩ => ⟨_, parts, h, rfl⟩⟩

theorem exists_compileClauses_iff : ∀ clauses : List Clause,
    (∃ parts, compileClauses unknown attributes clauses = .ok parts) ↔
      ∀ c ∈ Clause.conditionsOf clauses, ¬ c.Refused unknown attributes
  | [] => by simp [compileClauses, Clause.conditionsOf]
  | clause :: rest => by
    rw [Clause.conditionsOf, List.forall_mem_append, ← exists_compileClause_iff clause,
      ← exists_compileClauses_iff rest]
    constructor
    · rintro ⟨parts, h⟩
      obtain ⟨m, hm, h⟩ := bind_eq_ok_iff.mp h
      obtain ⟨others, hothers, -⟩ := bind_eq_ok_iff.mp h
      exact ⟨⟨m, hm⟩, ⟨others, hothers⟩⟩
    · rintro ⟨⟨m, hm⟩, ⟨others, hothers⟩⟩
      exact ⟨_, bind_eq_ok_iff.mpr ⟨m, hm, bind_eq_ok_iff.mpr ⟨others, hothers, rfl⟩⟩⟩

end

mutual

/-- What a clause says, its matcher says, and where it says nothing it is dropped. -/
theorem holds?_eq_of_compileClause {cells : Cells} : ∀ (clause : Clause) {m : Option Matcher},
    compileClause unknown attributes clause = .ok m →
      clause.holds? attributes cells = m.map (Matcher.accepts cells)
  | .condition c, m, h => by
    obtain ⟨-, rfl⟩ := compileCondition_eq_ok_iff.mp h
    rw [Clause.holds?, Condition.holds?, Option.map_map]
    rfl
  | .group combinator [], m, h => by
    cases h
    rfl
  | .group combinator (clause :: rest), m, h => by
    obtain ⟨parts, hparts, rfl⟩ :=
      (compileClause_group_eq_ok_iff (List.cons_ne_nil clause rest)).mp h
    rw [Clause.holds?, said_eq_of_compileClauses (clause :: rest) hparts]
    · cases parts with
      | nil => rfl
      | cons part others =>
        rw [if_neg (List.cons_ne_nil part others), Option.map_some, Matcher.accepts_combine]
        rfl
    · simp

theorem said_eq_of_compileClauses {cells : Cells} : ∀ (clauses : List Clause)
    {parts : List Matcher}, compileClauses unknown attributes clauses = .ok parts →
      Clause.said attributes cells clauses = parts.map (Matcher.accepts cells)
  | [], parts, h => by
    cases h
    rfl
  | clause :: rest, parts, h => by
    obtain ⟨m, hm, h⟩ := bind_eq_ok_iff.mp h
    obtain ⟨others, hothers, h⟩ := bind_eq_ok_iff.mp h
    cases h
    rw [Clause.said, holds?_eq_of_compileClause clause hm, said_eq_of_compileClauses rest hothers]
    cases m <;> rfl

end

mutual

/-- What is accepted where unknown attributes are rejected names none, so nothing is dropped where
they are ignored. -/
theorem compileClause_ignore : ∀ (clause : Clause) {m : Option Matcher},
    compileClause .reject attributes clause = .ok m →
      compileClause .ignore attributes clause = .ok m
  | .condition c, m, h => by
    obtain ⟨hallowed, hm⟩ := compileCondition_eq_ok_iff.mp h
    exact compileCondition_eq_ok_iff.mpr ⟨fun hrefused => hallowed hrefused.reject, hm⟩
  | .group combinator [], m, h => h
  | .group combinator (clause :: rest), m, h => by
    rw [compileClause_group_eq_ok_iff (List.cons_ne_nil clause rest)] at h ⊢
    obtain ⟨parts, hparts, hm⟩ := h
    exact ⟨parts, compileClauses_ignore (clause :: rest) hparts, hm⟩

theorem compileClauses_ignore : ∀ (clauses : List Clause) {parts : List Matcher},
    compileClauses .reject attributes clauses = .ok parts →
      compileClauses .ignore attributes clauses = .ok parts
  | [], parts, h => h
  | clause :: rest, parts, h => by
    obtain ⟨m, hm, h⟩ := bind_eq_ok_iff.mp h
    obtain ⟨others, hothers, h⟩ := bind_eq_ok_iff.mp h
    refine bind_eq_ok_iff.mpr ⟨m, compileClause_ignore clause hm, ?_⟩
    exact bind_eq_ok_iff.mpr ⟨others, compileClauses_ignore rest hothers, h⟩

end

/-! ### Compiling filters -/

theorem compileFilter_some_eq_ok_iff {f : Filter} {m : Matcher} :
    compileFilter unknown attributes (some f) = .ok m ↔
      ∃ part, compileClause unknown attributes (.group f.combinator f.clauses) = .ok part ∧
        part.getD .all = m := by
  rw [compileFilter, bind_eq_ok_iff]
  simp [pure, Except.pure]

theorem exists_compileFilter_iff {filter : Option Filter} :
    (∃ m, compileFilter unknown attributes filter = .ok m) ↔
      ∀ c ∈ Filter.conditions filter, ¬ c.Refused unknown attributes := by
  cases filter with
  | none => simp [compileFilter, Filter.conditions, pure, Except.pure]
  | some f =>
    rw [show Filter.conditions (some f) = (Clause.group f.combinator f.clauses).conditions from rfl,
      ← exists_compileClause_iff]
    simp only [compileFilter_some_eq_ok_iff]
    exact ⟨fun ⟨_, part, h, _⟩ => ⟨part, h⟩, fun ⟨part, h⟩ => ⟨_, part, h, rfl⟩⟩

theorem holds_eq_of_compileFilter {cells : Cells} {filter : Option Filter} {m : Matcher}
    (h : compileFilter unknown attributes filter = .ok m) :
    Filter.holds attributes cells filter = m.accepts cells := by
  cases filter with
  | none =>
    cases h
    rfl
  | some f =>
    obtain ⟨part, hpart, rfl⟩ := compileFilter_some_eq_ok_iff.mp h
    rw [Filter.holds, Option.bind_some, holds?_eq_of_compileClause _ hpart]
    cases part <;> rfl

theorem compileFilter_ignore {filter : Option Filter} {m : Matcher}
    (h : compileFilter .reject attributes filter = .ok m) :
    compileFilter .ignore attributes filter = .ok m := by
  cases filter with
  | none => exact h
  | some f =>
    obtain ⟨part, hpart, hm⟩ := compileFilter_some_eq_ok_iff.mp h
    exact compileFilter_some_eq_ok_iff.mpr ⟨part, compileClause_ignore _ hpart, hm⟩

end

/-- Filters are compiled to what they mean: that fails just where a condition of the tree is
refused, the matcher accepts the rows of which the filter holds, and what is accepted where unknown
attributes are rejected comes out the same where they are ignored. -/
theorem compileFilter_reads (unknown : UnknownPolicy) (attributes : List Attribute)
    (filter : Option Filter) :
    ((∃ e, compileFilter unknown attributes filter = .error e) ↔
      ∃ c ∈ Filter.conditions filter, c.Refused unknown attributes) ∧
    (∀ m, compileFilter unknown attributes filter = .ok m →
      ∀ cells, m.accepts cells = true ↔ Filter.holds attributes cells filter = true) ∧
    ∀ m, compileFilter .reject attributes filter = .ok m →
      compileFilter .ignore attributes filter = .ok m := by
  refine ⟨?_, fun m h cells => by rw [holds_eq_of_compileFilter h], fun m => compileFilter_ignore⟩
  rw [exists_eq_error_iff, exists_compileFilter_iff]
  simp only [not_forall, not_not, exists_prop]

/-! ### An unknown member -/

def exampleAttribute : Attribute where
  id := default
  parent := .object default
  slug := "name"
  title := "Name"
  type := .text
  settings := .obj []
  isSystem := false
  isRequired := false
  isUnique := false
  isSet := false
  sortOrder := 0
  createdAt := ⟨0⟩
  options := []
  statuses := []

/-- Either a ghost is empty, or there is a name. -/
def exampleFilter : Filter :=
  ⟨.or, [.condition ⟨"ghost", .isEmpty, .null⟩,
    .group .and [.condition ⟨"name", .isNotEmpty, .null⟩]]⟩

/-- A disjunction with an unknown member does not become true: a row without a name is not
accepted. -/
theorem accepts_eq_false_of_ghost : ∃ m,
    compileFilter .ignore [exampleAttribute] (some exampleFilter) = .ok m ∧
      m.accepts (fun _ => none) = false := by
  refine ⟨.test ⟨default, .isNotEmpty, []⟩, by cbv, ?_⟩
  have hreads := (compileFilter_reads .ignore [exampleAttribute] (some exampleFilter)).2.1
    (.test ⟨default, .isNotEmpty, []⟩) (by cbv) fun _ => none
  have hholds : Filter.holds [exampleAttribute] (fun _ => none) (some exampleFilter) = false := by
    cbv
  rw [hholds] at hreads
  exact Bool.eq_false_iff.mpr fun h => nomatch hreads.mp h

end RecordStore
