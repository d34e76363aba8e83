import RecordStore.Proofs.Filters
import RecordStore.Proofs.Refusals
import RecordStore.Query.Basic

/-!
# First failures

Values of a set, operands of a condition and conditions of a filter are gone through in order, and
the first one that fails decides how the whole fails. Main statements: a value leads out of the
calendar just if its first bad item does, and a filter just if its first bad condition does.
-/

namespace RecordStore

/-! ### Going through items -/

section

variable {α β γ δ : Type} {f : α → Except Error β} {e : Error} {xs ys : List α}

/-- The first of the items that fails does so with this error. -/
def FirstFails (f : α → Except Error β) (e : Error) (items : List α) : Prop :=
  ∃ before item after, items = before ++ item :: after ∧ (∀ b ∈ before, ∃ r, f b = .ok r) ∧
    f item = .error e

@[simp] theorem not_firstFails_nil : ¬ FirstFails f e [] := by
  rintro ⟨before, item, after, h, -⟩
  cases before <;> cases h

theorem firstFails_cons_iff {x : α} :
    FirstFails f e (x :: xs) ↔ f x = .error e ∨ (∃ r, f x = .ok r) ∧ FirstFails f e xs := by
  constructor
  · rintro ⟨before, item, after, h, hbefore, hitem⟩
    cases before with
    | nil =>
      cases h
      exact .inl hitem
    | cons b before =>
      cases h
      obtain ⟨hb, hbefore⟩ := List.forall_mem_cons.mp hbefore
      exact .inr ⟨hb, before, item, after, rfl, hbefore, hitem⟩
  · rintro (hx | ⟨hx, before, item, after, rfl, hbefore, hitem⟩)
    · exact ⟨[], x, xs, rfl, nofun, hx⟩
    · exact ⟨x :: before, item, after, rfl, List.forall_mem_cons.mpr ⟨hx, hbefore⟩, hitem⟩

theorem firstFails_append_iff : FirstFails f e (xs ++ ys) ↔
    FirstFails f e xs ∨ (∀ x ∈ xs, ∃ r, f x = .ok r) ∧ FirstFails f e ys := by
  induction xs with
  | nil => simp
  | cons x xs ih =>
    rw [List.cons_append, firstFails_cons_iff, firstFails_cons_iff, ih, List.forall_mem_cons]
    tauto

/-- Either no item fails, or one is the first to fail. -/
theorem forall_ok_iff : (∀ x ∈ xs, ∃ r, f x = .ok r) ↔ ∀ e, ¬ FirstFails f e xs := by
  induction xs with
  | nil => simp
  | cons x xs ih =>
    rw [List.forall_mem_cons, ih]
    cases hx : f x with
    | ok r => simp [firstFails_cons_iff, hx]
    | error e =>
      have hfails : FirstFails f e (x :: xs) := firstFails_cons_iff.mpr (.inl hx)
      simpa using ⟨e, hfails⟩

theorem FirstFails.exists (h : FirstFails f e xs) : ∃ x ∈ xs, f x = .error e := by
  obtain ⟨before, item, after, rfl, -, hitem⟩ := h
  exact ⟨item, by simp, hitem⟩

/-- A computation fails just if one of the items does, and as the first of these. -/
def FailsAs (f : α → Except Error β) (items : List α) (x : Except Error γ) : Prop :=
  ∀ e, x = .error e ↔ FirstFails f e items

namespace FailsAs

variable {x : Except Error γ} {g : γ → Except Error δ}

theorem ok (c : γ) : FailsAs f [] (.ok c) := fun e => by simp

theorem single {item : α} (h : ∀ e, x = .error e ↔ f item = .error e) : FailsAs f [item] x :=
  fun e => by simp [h e, firstFails_cons_iff]

/-- What fails as some items do, and then as others do, fails as all of them in order. -/
theorem append (hx : FailsAs f xs x) (hg : ∀ c, FailsAs f ys (g c)) :
    FailsAs f (xs ++ ys) (x >>= g) := by
  intro e
  rw [firstFails_append_iff, ← hx e, forall_ok_iff]
  cases x with
  | error e' =>
    have hfails : FirstFails f e' xs := (hx e').mp rfl
    have hnot : ¬ ∀ e, ¬ FirstFails f e xs := fun h => h e' hfails
    simp [hnot, bind, Except.bind]
  | ok c =>
    have hnone : ∀ e, ¬ FirstFails f e xs := fun e h => by cases (hx e).mpr h
    simp [hnone, ← hg c e, ok_bind]

theorem bind (hx : FailsAs f xs x) (hg : ∀ c, FailsAs f [] (g c)) : FailsAs f xs (x >>= g) := by
  simpa using hx.append hg

theorem map (hx : FailsAs f xs x) (h : γ → δ) : FailsAs f xs (x >>= fun c => .ok (h c)) :=
  hx.bind fun c => .ok (h c)

end FailsAs

theorem mapM_failsAs (items : List α) : FailsAs f items (items.mapM f) := by
  induction items with
  | nil =>
    rw [List.mapM_nil]
    exact .ok []
  | cons item rest ih =>
    have hitem : FailsAs f [item] (f item) := .single fun e => Iff.rfl
    rw [List.mapM_cons]
    exact hitem.append fun r => ih.map _

end

/-! ### Values -/

section

variable {a : Attribute} {raw : Json}

theorem overflows_of_mishap {p : Prop} {α : Type} {x : Except Error α}
    (hx : FailsOnly (Mishap p) x) (h : x = .error .calendarOverflow) : p :=
  Mishap.overflow_iff.mp (hx _ h)

theorem ne_overflow {α : Type} {x : Except Error α} (hx : FailsOnly (Mishap False) x) :
    x ≠ .error .calendarOverflow := overflows_of_mishap hx

theorem encodeSingle_eq_overflow_iff :
    encodeSingle a raw = .error .calendarOverflow ↔ a.Overflows raw := by
  refine ⟨overflows_of_mishap (encodeSingle_failsOnly a raw), ?_⟩
  rintro ⟨hdate, s, rfl, hleaves⟩
  have hparse := Calendar.parseDate_eq_overflow_iff.mpr hleaves
  simp only [encodeSingle, hdate, expectString, ok_bind, hparse]
  rfl

theorem isBlank_of_overflows (h : a.Overflows raw) : raw.isBlank = false := by
  obtain ⟨-, s, rfl, nanos, hnanos, -⟩ := h
  rw [Json.isBlank_str, ← Bool.not_eq_true]
  intro hblank
  rw [Text.trimChars_of_isBlank hblank] at hnanos
  cases hnanos

theorem encodeMember_eq_overflow_iff :
    encodeMember a raw = .error .calendarOverflow ↔ a.Overflows raw := by
  refine ⟨overflows_of_mishap (encodeMember_failsOnly a raw), fun h => ?_⟩
  rw [encodeMember, if_neg (Bool.eq_false_iff.mp (isBlank_of_overflows h)),
    encodeSingle_eq_overflow_iff.mpr h]
  rfl

theorem collectMembers_failsAs (set items : List Json) :
    FailsAs (encodeMember a) items (collectMembers a set items) := by
  induction items generalizing set with
  | nil => exact .ok set
  | cons item rest ih =>
    have hitem : FailsAs (encodeMember a) [item] (encodeMember a item) := .single fun e => Iff.rfl
    refine hitem.append fun made => ?_
    cases made with
    | none => exact ih set
    | some member => exact ih _

theorem isBlank_of_mem {items : List Json} {item : Json} (h : Json.blankItems items = true)
    (hitem : item ∈ items) : item.isBlank = true := by
  induction items with
  | nil => cases hitem
  | cons first rest ih =>
    rw [Json.blankItems, Bool.and_eq_true] at h
    rcases List.mem_cons.mp hitem with rfl | hrest
    · exact h.1
    · exact ih h.2 hrest

theorem isBlank_of_mem_items {item : Json} (h : raw.isBlank = true) (hitem : item ∈ a.items raw) :
    item.isBlank = true := by
  unfold Attribute.items at hitem
  split at hitem
  · split at hitem
    · exact isBlank_of_mem (by rwa [Json.isBlank] at h) hitem
    · exact List.mem_singleton.mp hitem ▸ h
  · exact List.mem_singleton.mp hitem ▸ h

/-- A value leads out of the calendar just if the first of its items that fails does. -/
theorem encodeValue_eq_overflow_iff : encodeValue a raw = .error .calendarOverflow ↔
    FirstFails (encodeMember a) .calendarOverflow (a.items raw) := by
  cases hblank : raw.isBlank with
  | true =>
    have hnone : ¬ FirstFails (encodeMember a) .calendarOverflow (a.items raw) := by
      intro h
      obtain ⟨item, hitem, hover⟩ := h.exists
      rw [encodeMember, if_pos (isBlank_of_mem_items hblank hitem)] at hover
      cases hover
    simp [encodeValue, hblank, hnone]
  | false =>
    by_cases hset : a.isSet = true
    · rw [encodeValue_of_set hset hblank]
      exact (collectMembers_failsAs [] (a.items raw)).map _ _
    · rw [encodeValue_of_single hset hblank, Attribute.items_of_single hset]
      simp [encodeSingle_eq_overflow_iff, firstFails_cons_iff, encodeMember_eq_overflow_iff]

/-! ### Operands -/

theorem coerceOperand_failsOnly (a : Attribute) (raw : Json) :
    FailsOnly (Mishap (a.Overflows raw)) (coerceOperand a raw) := by
  unfold coerceOperand
  split
  · refine (encodeMember_failsOnly a raw).bind fun made => ?_
    cases made with
    | none => simp
    | some member => exact .ok _
  · exact (expectString_failsOnly a.slug raw).bind fun _ => .ok _
  · exact (coerceNumber_failsOnly a.slug raw).bind fun _ => .ok _
  · exact (coerceBool_failsOnly a.slug raw).bind fun _ => .ok _
  · refine failsOnly_of_text a.slug raw fun s hs => ?_
    split
    · rename_i hdate
      exact ((parseDate_failsOnly s).weaken fun hleaves => ⟨hdate, s, hs, hleaves⟩).bind fun _ =>
        .ok _
    · exact (parseTimestamp_failsOnly s).bind fun _ => .ok _
  · exact (coerceId_failsOnly a.slug raw).bind fun _ => .ok _

theorem coerceOperand_eq_overflow_iff :
    coerceOperand a raw = .error .calendarOverflow ↔ a.Overflows raw := by
  refine ⟨overflows_of_mishap (coerceOperand_failsOnly a raw), fun h => ?_⟩
  have hmember := encodeMember_eq_overflow_iff.mpr h
  obtain ⟨hdate, s, rfl, hleaves⟩ := h
  by_cases hset : a.isSet = true
  · have hslot : a.slot = .structured := if_pos hset
    simp only [coerceOperand, hslot, hmember]
    rfl
  · have hslot : a.slot = .date := by rw [AttributeHead.slot, if_neg hset, hdate]; rfl
    have hparse := Calendar.parseDate_eq_overflow_iff.mpr hleaves
    simp only [coerceOperand, hslot, hdate, expectString, ok_bind, hparse]
    rfl

end

/-! ### Conditions and sorts -/

namespace Condition

/-- A condition leads out of the calendar: but for what it compares with it may be put on the
attribute, and the first of its operands that fails is a timestamp after the last day. -/
structure Overflows (a : Attribute) (c : Condition) : Prop where
  legal : c.operator ∈ a.operators
  given : c.operator.takesOperand = true → c.operand.isBlank = false
  single : c.operator.takesOperand = true → ∀ items, c.operand = .arr items →
    c.operator = .isIn ∨ c.operator = .isNotIn
  first : FirstFails (coerceOperand a) .calendarOverflow c.compared

end Condition

section

variable {unknown : UnknownPolicy} {attributes : List Attribute} {a : Attribute}

theorem rawOperands_failsOnly {p : Prop} (operator : Operator) (raw : Json) :
    FailsOnly (Mishap p) (rawOperands a operator raw) := by
  unfold rawOperands
  split
  · simp
  · split
    · split <;> simp
    · simp

theorem compileTest_eq_overflow_iff {c : Condition} :
    compileTest a c.operator c.operand = .error .calendarOverflow ↔ c.Overflows a := by
  unfold compileTest
  by_cases hlegal : c.operator ∈ a.operators
  · rw [if_neg (by simpa using hlegal)]
    by_cases htakes : c.operator.takesOperand = true
    · rw [if_pos htakes]
      constructor
      · intro h
        rcases bind_eq_error_iff.mp h with hraws | ⟨raws, hraws, h⟩
        · exact absurd hraws (ne_overflow (rawOperands_failsOnly _ _))
        · obtain ⟨hgiven, hsingle, rfl⟩ := (rawOperands_eq_ok_iff htakes).mp hraws
          rcases bind_eq_error_iff.mp h with hfirst | ⟨os, -, h⟩
          · exact ⟨hlegal, fun _ => hgiven, fun _ => hsingle, (mapM_failsAs _ _).mp hfirst⟩
          · cases h
      · rintro ⟨-, hgiven, hsingle, hfirst⟩
        have hraws : rawOperands a c.operator c.operand = .ok c.compared :=
          (rawOperands_eq_ok_iff htakes).mpr ⟨hgiven htakes, hsingle htakes, rfl⟩
        have hoperands := (mapM_failsAs c.compared .calendarOverflow).mpr hfirst
        exact bind_eq_error_iff.mpr (.inr ⟨_, hraws, bind_eq_error_iff.mpr (.inl hoperands)⟩)
    · have hcompared : c.compared = [] := if_neg htakes
      rw [if_neg htakes]
      refine ⟨nofun, fun h => ?_⟩
      have hfirst := h.first
      rw [hcompared] at hfirst
      exact (not_firstFails_nil hfirst).elim
  · rw [if_pos (by simpa using hlegal)]
    exact ⟨nofun, fun h => absurd h.legal hlegal⟩

theorem resolve_failsOnly {p : Prop} (unknown : UnknownPolicy) (attributes : List Attribute)
    (part : QueryPart) (slug : String) :
    FailsOnly (Mishap p) (resolve unknown attributes part slug) := by
  unfold resolve
  split
  · simp
  · split <;> simp

theorem compileCondition_eq_overflow_iff {c : Condition} :
    compileCondition unknown attributes c = .error .calendarOverflow ↔
      ∃ a, (attributes.find? fun a => a.slug == c.slug) = some a ∧ c.Overflows a := by
  unfold compileCondition resolve
  cases hfind : attributes.find? fun a => a.slug == c.slug with
  | some a =>
    dsimp only
    rw [ok_bind]
    constructor
    · intro h
      rcases bind_eq_error_iff.mp h with h | ⟨t, -, h⟩
      · exact ⟨a, rfl, compileTest_eq_overflow_iff.mp h⟩
      · cases h
    · rintro ⟨b, hb, h⟩
      cases hb
      exact bind_eq_error_iff.mpr (.inl (compileTest_eq_overflow_iff.mpr h))
  | none => cases unknown <;> simp [bind, Except.bind, pure, Except.pure]

mutual

theorem compileClause_failsAs : ∀ clause : Clause,
    FailsAs (compileCondition unknown attributes) clause.conditions
      (compileClause unknown attributes clause)
  | .condition c => by
    rw [Clause.conditions, compileClause]
    exact .single fun e => Iff.rfl
  | .group combinator [] => by
    rw [Clause.conditions, Clause.conditionsOf, compileClause]
    exact .ok _
  | .group combinator (clause :: rest) => by
    rw [Clause.conditions, compileClause]
    · refine (compileClauses_failsAs (clause :: rest)).bind fun parts => ?_
      cases parts with
      | nil => exact .ok _
      | cons part others => exact .ok _
    · simp

/-- Clauses fail as the first of their conditions that fails, however deep it lies. -/
theorem compileClauses_failsAs : ∀ clauses : List Clause,
    FailsAs (compileCondition unknown attributes) (Clause.conditionsOf clauses)
      (compileClauses unknown attributes clauses)
  | [] => by
    rw [Clause.conditionsOf, compileClauses]
    exact .ok _
  | clause :: rest => by
    rw [Clause.conditionsOf, compileClauses]
    exact (compileClause_failsAs clause).append fun here => (compileClauses_failsAs rest).map _

end

/-- A filter fails as the first of its conditions that fails. -/
theorem compileFilter_failsAs (filter : Option Filter) :
    FailsAs (compileCondition unknown attributes) (Filter.conditions filter)
      (compileFilter unknown attributes filter) := by
  cases filter with
  | none => exact .ok _
  | some f =>
    have hgroup := @compileClause_failsAs unknown attributes (.group f.combinator f.clauses)
    rw [Clause.conditions] at hgroup
    exact hgroup.map _

theorem sortKeys_failsOnly {p : Prop} (sorts : List SortSpec) :
    FailsOnly (Mishap p) (sortKeys unknown attributes sorts) := by
  induction sorts with
  | nil => exact .ok _
  | cons spec rest ih =>
    refine FailsOnly.bind ?_ fun field => ih.bind fun others => .ok _
    unfold sortField
    split
    · simp
    split
    · simp
    split
    · simp
    refine (resolve_failsOnly unknown attributes .sort spec.name).bind fun found => ?_
    cases found with
    | none => exact .ok _
    | some a => exact .ok _

theorem compileSorts_failsOnly {p : Prop} (sorts : List SortSpec) :
    FailsOnly (Mishap p) (compileSorts unknown attributes sorts) := by
  refine (sortKeys_failsOnly sorts).bind fun keys => ?_
  cases keys with
  | nil => exact .ok _
  | cons key rest => exact .ok _

theorem compileQuery_eq_overflow_iff {q : Query} :
    compileQuery unknown attributes q = .error .calendarOverflow ↔
      FirstFails (compileCondition unknown attributes) .calendarOverflow
        (Filter.conditions q.filter) := by
  rw [← compileFilter_failsAs, compileQuery, bind_eq_error_iff]
  refine or_iff_left ?_
  rintro ⟨matcher, -, h⟩
  rcases bind_eq_error_iff.mp h with h | ⟨keys, -, h⟩
  · exact ne_overflow (compileSorts_failsOnly q.sorts) h
  · cases h

end

end RecordStore
