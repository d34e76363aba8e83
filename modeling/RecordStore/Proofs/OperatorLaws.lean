import Mathlib
import RecordStore.Proofs.Members

/-!
# Laws of operators

Conditions on one attribute bear on each other. Main statement: for every attribute, operand and
row, a negated condition answers the opposite of its positive counterpart, a list of values is
answered by asking for each of them by itself, and the comparisons of numbers and dates answer as
one place in an order does.
-/

namespace RecordStore

/-! ### Answers -/

/-- What a condition on the attribute answers for a row, if it is compiled. -/
def Attribute.answer? (a : Attribute) (operator : Operator) (raw : Json) (row : Cells) :
    Option Bool :=
  (compileTest a operator raw).toOption.map fun t => (Matcher.test t).accepts row

section

variable {a : Attribute} {operator : Operator} {raw : Json} {row : Cells} {answer : Bool}

theorem answer?_eq_some_iff : a.answer? operator raw row = some answer ↔
    ∃ t, compileTest a operator raw = .ok t ∧ t.accepts (row t.attributeId) = answer := by
  rw [Attribute.answer?, Option.map_eq_some_iff]
  cases compileTest a operator raw with
  | ok t => simp [Except.toOption, Matcher.accepts]
  | error e => simp [Except.toOption]

theorem answer?_eq_some_iff_allowed : a.answer? operator raw row = some answer ↔
    (Condition.mk a.slug operator raw).Allowed a ∧
      ((Condition.mk a.slug operator raw).test a).accepts (row a.id) = answer := by
  have hcompiled : ∀ t, compileTest a operator raw = .ok t ↔ _ := fun t =>
    compileTest_eq_ok_iff (c := ⟨a.slug, operator, raw⟩)
  simp only [answer?_eq_some_iff, hcompiled, and_assoc, exists_and_left,
    exists_eq_left]
  rfl

/-- With one operand, an answer is given just if the operand stands for something. -/
theorem answer?_one_eq_some_iff (htakes : operator.takesOperand = true)
    (hone : ¬ (operator = .isIn ∨ operator = .isNotIn)) :
    a.answer? operator raw row = some answer ↔ operator ∈ a.operators ∧ raw.isBlank = false ∧
      (∀ items, raw ≠ .arr items) ∧
        ∃ o, a.operand? raw = some o ∧ Test.accepts ⟨a.id, operator, [o]⟩ (row a.id) = answer := by
  simp only [answer?_eq_some_iff, compileTest_one_eq_ok_iff htakes hone, coerceOperand_eq_ok_iff]
  constructor
  · rintro ⟨t, ⟨hlegal, hblank, hsingle, o, ho, rfl⟩, rfl⟩
    exact ⟨hlegal, hblank, hsingle, o, ho, rfl⟩
  · rintro ⟨hlegal, hblank, hsingle, o, ho, rfl⟩
    exact ⟨_, ⟨hlegal, hblank, hsingle, o, ho, rfl⟩, rfl⟩

/-! ### Negation -/

theorem takesOperand_of_isNegated (h : operator.isNegated = true) :
    operator.takesOperand = true ∧ operator.positive.takesOperand = true := by
  revert h
  cases operator <;> decide

/-- The operators of an attribute come with their positive counterparts. -/
theorem positive_mem_operators_iff (h : operator.isNegated = true) :
    operator.positive ∈ a.operators ↔ operator ∈ a.operators := by
  have hlists : ∀ l ∈ Operator.onSets :: [Slot.text, .number, .boolean, .date, .structured,
      .reference].map Slot.operators, operator.positive ∈ l ↔ operator ∈ l := by
    revert h
    cases operator <;> decide
  refine hlists _ ?_
  rw [AttributeHead.operators]
  split
  · exact .head _
  · refine .tail _ (List.mem_map_of_mem ?_)
    cases a.type.slot <;> decide

theorem compared_positive (h : operator.isNegated = true) (slug : String) (raw : Json) :
    (Condition.mk slug operator.positive raw).compared =
      (Condition.mk slug operator raw).compared := by
  obtain ⟨htakes, htakes'⟩ := takesOperand_of_isNegated h
  simp only [Condition.compared, htakes, htakes']

theorem allowed_positive_iff (h : operator.isNegated = true) :
    (Condition.mk a.slug operator.positive raw).Allowed a ↔
      (Condition.mk a.slug operator raw).Allowed a := by
  obtain ⟨htakes, htakes'⟩ := takesOperand_of_isNegated h
  have hseveral : operator.positive = .isIn ∨ operator.positive = .isNotIn ↔
      operator = .isIn ∨ operator = .isNotIn := by
    revert h
    cases operator <;> decide
  have hcompared := compared_positive h a.slug raw
  constructor
  · rintro ⟨hlegal, hgiven, hsingle, hdenotes⟩
    exact ⟨(positive_mem_operators_iff h).mp hlegal, fun _ => hgiven htakes',
      fun _ items hitems => hseveral.mp (hsingle htakes' items hitems), hcompared ▸ hdenotes⟩
  · rintro ⟨hlegal, hgiven, hsingle, hdenotes⟩
    exact ⟨(positive_mem_operators_iff h).mpr hlegal, fun _ => hgiven htakes,
      fun _ items hitems => hseveral.mpr (hsingle htakes items hitems), hcompared ▸ hdenotes⟩

theorem accepts_of_isNegated (h : operator.isNegated = true) (id : Id) (os : List Operand)
    (cell : Option Cell) :
    Test.accepts ⟨id, operator, os⟩ cell = !Test.accepts ⟨id, operator.positive, os⟩ cell := by
  cases operator with
  | notEquals | notContains | isNotIn =>
    cases cell with
    | none => rfl
    | some cell =>
      simp only [Test.accepts, Operator.positive, Operator.isNegated, Bool.bne_true, Bool.bne_false]
  | _ => cases h

theorem answer?_of_isNegated (h : operator.isNegated = true) :
    a.answer? operator raw row = (a.answer? operator.positive raw row).map (!·) := by
  have haccepts : ((Condition.mk a.slug operator raw).test a).accepts (row a.id) =
      !((Condition.mk a.slug operator.positive raw).test a).accepts (row a.id) := by
    rw [Condition.test, Condition.test, compared_positive h]
    exact accepts_of_isNegated h a.id _ (row a.id)
  refine Option.ext fun answer => ?_
  simp only [Option.map_eq_some_iff, answer?_eq_some_iff_allowed, allowed_positive_iff h, haccepts,
    and_assoc, exists_and_left, exists_eq_left']

/-! ### One of several values -/

/-- The slot in which what an operand stands for lies. -/
def Operand.slot : Operand → Slot
  | .text _ => .text
  | .number _ => .number
  | .boolean _ => .boolean
  | .date _ => .date
  | .reference _ => .reference
  | .member _ => .structured

theorem slot_of_operand? {o : Operand} (h : a.operand? raw = some o) : o.slot = a.slot := by
  unfold Attribute.operand? at h
  split at h
  case h_1 hslot | h_2 hslot | h_3 hslot | h_4 hslot | h_5 hslot | h_6 hslot =>
    rw [hslot]
    simp only [Option.map_eq_some_iff, Option.some.injEq] at h
    obtain ⟨_, -, rfl⟩ := h
    rfl
  case h_7 => cases h

/-- The operator that asks for one value: equality, and of sets membership. -/
def AttributeHead.isOne (a : AttributeHead) : Operator := if a.isSet then .contains else .equals

def AttributeHead.isNotOne (a : AttributeHead) : Operator :=
  if a.isSet then .notContains else .notEquals

theorem operatorHolds_isIn_cons {o : Operand} {rest : List Operand}
    (hrest : ∀ p ∈ rest, p.slot = o.slot) (cell : Cell) :
    operatorHolds .isIn (o :: rest) cell =
      (operatorHolds .isIn [o] cell || operatorHolds .isIn rest cell) := by
  cases rest with
  | nil => rw [operatorHolds.eq_def .isIn [], Bool.or_false]
  | cons p more =>
    have hslot := hrest p (.head _)
    cases cell with
    | structured j => cases j <;> simp [operatorHolds, setHolds]
    | number d unit => simp [operatorHolds, numberHolds]
    | reference id => simp [operatorHolds, referenceHolds]
    | text s => cases o <;> cases p <;> simp [operatorHolds, textHolds, Operand.slot] at hslot ⊢
    | boolean b => cases o <;> cases p <;> simp [operatorHolds]
    | date micros => cases o <;> cases p <;> simp [operatorHolds, orderHolds]

theorem operatorHolds_isIn_singleton {o : Operand} (hboolean : o.slot ≠ .boolean)
    (hdate : o.slot ≠ .date) (cell : Cell) : operatorHolds .isIn [o] cell =
      operatorHolds (if o.slot = .structured then .contains else .equals) [o] cell := by
  cases o with
  | text t => cases cell with
    | text s => simp [operatorHolds, textHolds, Operand.slot, eq_comm]
    | structured j => cases j <;> rfl
    | _ => rfl
  | number e => cases cell with
    | number d unit =>
      simp [operatorHolds, numberHolds, Operand.slot, orderHolds, Double.same, eq_comm,
        compare_beq_eq]
    | structured j => cases j <;> rfl
    | _ => rfl
  | reference r => cases cell with
    | reference id => simp [operatorHolds, referenceHolds, Operand.slot]
    | structured j => cases j <;> rfl
    | _ => rfl
  | member m => cases cell with
    | structured j => cases j <;> simp [operatorHolds, setHolds, Operand.slot]
    | _ => rfl
  | boolean b => exact absurd rfl hboolean
  | date micros => exact absurd rfl hdate

theorem operatorHolds_isIn {slot : Slot} (hboolean : slot ≠ .boolean) (hdate : slot ≠ .date)
    {os : List Operand} (hos : ∀ o ∈ os, o.slot = slot) (cell : Cell) :
    operatorHolds .isIn os cell = os.any fun o => operatorHolds
      (if slot = .structured then .contains else .equals) [o] cell := by
  induction os with
  | nil => rfl
  | cons o rest ih =>
    obtain ⟨rfl, hrest⟩ := List.forall_mem_cons.mp hos
    rw [operatorHolds_isIn_cons hrest, operatorHolds_isIn_singleton hboolean hdate, ih hrest,
      List.any_cons]

theorem isOne_of_isIn (h : Operator.isIn ∈ a.operators) : a.slot ≠ .boolean ∧ a.slot ≠ .date ∧
    a.isOne = if a.slot = .structured then .contains else .equals := by
  rw [AttributeHead.operators] at h
  rw [AttributeHead.slot, AttributeHead.isOne]
  split at h
  · rw [if_pos ‹_›, if_pos ‹_›]
    decide
  · rw [if_neg ‹_›, if_neg ‹_›]
    revert h
    cases a.type.slot <;> decide

theorem isOne_cases (a : Attribute) : a.isOne = .contains ∨ a.isOne = .equals := by
  rw [AttributeHead.isOne]
  split <;> simp

theorem accepts_isOne (a : Attribute) (id : Id) (o : Operand) (cell : Option Cell) :
    Test.accepts ⟨id, a.isOne, [o]⟩ cell = cell.any (operatorHolds a.isOne [o]) := by
  cases cell with
  | none => rcases isOne_cases a with h | h <;> rw [h] <;> rfl
  | some cell => rcases isOne_cases a with h | h <;> rw [h] <;> exact Bool.bne_false _

theorem accepts_isIn (hlegal : Operator.isIn ∈ a.operators) {os : List Operand}
    (hos : ∀ o ∈ os, o.slot = a.slot) (id : Id) (cell : Option Cell) :
    Test.accepts ⟨id, .isIn, os⟩ cell = os.any fun o => Test.accepts ⟨id, a.isOne, [o]⟩ cell := by
  obtain ⟨hboolean, hdate, hisOne⟩ := isOne_of_isIn hlegal
  simp only [accepts_isOne]
  cases cell with
  | none => simp [Test.accepts, Operator.isNegated]
  | some cell =>
    simp only [Option.any_some, hisOne]
    rw [← operatorHolds_isIn hboolean hdate hos]
    exact Bool.bne_false _

theorem answer?_isOne {item : Json} (h : (a.answer? a.isOne item row).isSome = true) :
    ∃ o, a.operand? item = some o ∧
      a.answer? a.isOne item row = some (Test.accepts ⟨a.id, a.isOne, [o]⟩ (row a.id)) := by
  obtain ⟨answer, hanswer⟩ := Option.isSome_iff_exists.mp h
  obtain ⟨-, -, -, o, ho, rfl⟩ := (answer?_one_eq_some_iff
    (by rcases isOne_cases a with hone | hone <;> rw [hone] <;> decide)
    (by rcases isOne_cases a with hone | hone <;> rw [hone] <;> decide)).mp hanswer
  exact ⟨o, ho, hanswer⟩

theorem compared_eq_items (htakes : operator.takesOperand = true) (slug : String) :
    (Condition.mk slug operator raw).compared = raw.items := by
  rw [Condition.compared, if_pos htakes]
  cases raw <;> rfl

/-- A row is answered to be in a list of values just if it is answered to have one of them. -/
theorem answer?_isIn (h : a.answer? .isIn raw row = some answer)
    (hitems : ∀ item ∈ raw.items, (a.answer? a.isOne item row).isSome = true) :
    answer = true ↔ ∃ item ∈ raw.items, a.answer? a.isOne item row = some true := by
  obtain ⟨hallowed, rfl⟩ := answer?_eq_some_iff_allowed.mp h
  have hslots : ∀ o ∈ raw.items.filterMap a.operand?, o.slot = a.slot := by
    intro o ho
    obtain ⟨item, -, hitem⟩ := List.mem_filterMap.mp ho
    exact slot_of_operand? hitem
  rw [Condition.test, compared_eq_items (by decide), accepts_isIn hallowed.legal hslots,
    List.any_filterMap, List.any_eq_true]
  refine exists_congr fun item => and_congr_right fun hitem => ?_
  obtain ⟨o, ho, hanswer⟩ := answer?_isOne (hitems item hitem)
  rw [ho, hanswer]
  simp

theorem answer?_isNotOne (a : Attribute) (item : Json) (row : Cells) :
    a.answer? a.isNotOne item row = (a.answer? a.isOne item row).map (!·) := by
  have hpositive : a.isNotOne.isNegated = true ∧ a.isNotOne.positive = a.isOne := by
    rw [AttributeHead.isNotOne, AttributeHead.isOne]
    split <;> decide
  rw [answer?_of_isNegated hpositive.1, hpositive.2]

theorem answer?_isNotIn (h : a.answer? .isNotIn raw row = some answer)
    (hitems : ∀ item ∈ raw.items, (a.answer? a.isNotOne item row).isSome = true) :
    answer = true ↔ ∀ item ∈ raw.items, a.answer? a.isNotOne item row = some true := by
  rw [answer?_of_isNegated (by decide)] at h
  obtain ⟨isIn, hisIn, rfl⟩ := Option.map_eq_some_iff.mp h
  simp only [answer?_isNotOne, Option.isSome_map] at hitems ⊢
  rw [Bool.not_eq_true', ← Bool.not_eq_true, answer?_isIn hisIn hitems]
  push Not
  refine forall₂_congr fun item hitem => ?_
  obtain ⟨one, hone⟩ := Option.isSome_iff_exists.mp (hitems item hitem)
  rw [hone]
  simp

/-! ### Comparisons -/

/-- The operators that compare with one value where values are ordered. -/
def Operator.comparisons : List Operator :=
  [.less, .lessOrEqual, .equals, .greaterOrEqual, .greater]

theorem answer?_comparison (hslot : a.slot = .number ∨ a.slot = .date)
    (hoperator : operator ∈ Operator.comparisons)
    (h : (a.answer? operator raw row).isSome = true) :
    ∃ o, a.operand? raw = some o ∧ ∀ comparison ∈ Operator.comparisons,
      a.answer? comparison raw row = some (Test.accepts ⟨a.id, comparison, [o]⟩ (row a.id)) := by
  have hlegal : ∀ comparison ∈ Operator.comparisons, comparison ∈ a.operators := by
    rw [AttributeHead.slot] at hslot
    split at hslot
    · simp at hslot
    · rw [AttributeHead.operators, if_neg ‹_›]
      rcases hslot with hslot | hslot <;> rw [hslot] <;> decide
  have hone : ∀ comparison ∈ Operator.comparisons, comparison.takesOperand = true ∧
      ¬ (comparison = .isIn ∨ comparison = .isNotIn) := by decide
  obtain ⟨answer, hanswer⟩ := Option.isSome_iff_exists.mp h
  obtain ⟨-, hblank, hsingle, o, ho, -⟩ :=
    (answer?_one_eq_some_iff (hone _ hoperator).1 (hone _ hoperator).2).mp hanswer
  refine ⟨o, ho, fun comparison hcomparison => ?_⟩
  exact (answer?_one_eq_some_iff (hone _ hcomparison).1 (hone _ hcomparison).2).mpr
    ⟨hlegal _ hcomparison, hblank, hsingle, o, ho, rfl⟩

/-- Of a value and an operand in one ordered slot, all comparisons ask for the same order. -/
theorem exists_order {o : Operand} {cell : Cell} (hcell : cell.slot = .number ∨ cell.slot = .date)
    (ho : o.slot = cell.slot) (id : Id) : ∃ order, ∀ comparison ∈ Operator.comparisons,
      Test.accepts ⟨id, comparison, [o]⟩ (some cell) = orderHolds comparison order := by
  cases cell with
  | number d unit =>
    cases o with
    | number e =>
      refine ⟨compare d.place e.place, ?_⟩
      simp [Operator.comparisons, Test.accepts, operatorHolds, numberHolds, Operator.positive,
        Operator.isNegated]
    | _ => cases ho
  | date micros =>
    cases o with
    | date expected =>
      refine ⟨compare micros expected, ?_⟩
      simp [Operator.comparisons, Test.accepts, operatorHolds, Operator.positive,
        Operator.isNegated]
    | _ => cases ho
  | _ => simp [Cell.slot] at hcell

end

/-! ### Main statement -/

/-- The laws of conditions on an attribute with an operand, for one row. -/
structure OperatorLaws (a : Attribute) (raw : Json) (row : Cells) : Prop where
  /-- A negated condition is compiled just if its positive counterpart is. -/
  negated : ∀ operator : Operator, operator.isNegated = true →
    a.answer? operator raw row = (a.answer? operator.positive raw row).map (!·)
  isIn : ∀ answer, a.answer? .isIn raw row = some answer →
    (∀ item ∈ raw.items, (a.answer? a.isOne item row).isSome = true) →
      (answer = true ↔ ∃ item ∈ raw.items, a.answer? a.isOne item row = some true)
  isNotIn : ∀ answer, a.answer? .isNotIn raw row = some answer →
    (∀ item ∈ raw.items, (a.answer? a.isNotOne item row).isSome = true) →
      (answer = true ↔ ∀ item ∈ raw.items, a.answer? a.isNotOne item row = some true)
  /-- A row with a value has it before, at or after the operand, if any comparison is compiled. -/
  ordered : a.slot = .number ∨ a.slot = .date → ∀ comparison ∈ Operator.comparisons,
    (a.answer? comparison raw row).isSome = true →
      ∀ cell, row a.id = some cell → cell.slot = a.slot →
        ∃ less equal greater, [less, equal, greater].count true = 1 ∧
          a.answer? .less raw row = some less ∧
          a.answer? .equals raw row = some equal ∧
          a.answer? .greater raw row = some greater ∧
          a.answer? .lessOrEqual raw row = some (less || equal) ∧
          a.answer? .greaterOrEqual raw row = some (greater || equal)
  missing : a.slot = .number ∨ a.slot = .date → ∀ comparison ∈ Operator.comparisons,
    (a.answer? comparison raw row).isSome = true → row a.id = none →
      ∀ other ∈ Operator.comparisons, a.answer? other raw row = some false

theorem operatorLaws (a : Attribute) (raw : Json) (row : Cells) : OperatorLaws a raw row where
  negated _ hnegated := answer?_of_isNegated hnegated
  isIn _ h hitems := answer?_isIn h hitems
  isNotIn _ h hitems := answer?_isNotIn h hitems
  ordered := by
    intro hslot comparison hcomparison h cell hcell hcellslot
    obtain ⟨o, ho, hanswers⟩ := answer?_comparison hslot hcomparison h
    obtain ⟨order, horder⟩ := exists_order (hcellslot ▸ hslot)
      ((slot_of_operand? ho).trans hcellslot.symm) a.id
    simp only [hcell] at hanswers
    have hanswer : ∀ other ∈ Operator.comparisons,
        a.answer? other raw row = some (orderHolds other order) := fun other hother =>
      (hanswers other hother).trans (congrArg some (horder other hother))
    refine ⟨orderHolds .less order, orderHolds .equals order, orderHolds .greater order, ?_,
      hanswer _ (by decide), hanswer _ (by decide), hanswer _ (by decide), ?_, ?_⟩
    · cases order <;> decide
    · rw [hanswer _ (by decide)]
      cases order <;> decide
    · rw [hanswer _ (by decide)]
      cases order <;> decide
  missing := by
    intro hslot comparison hcomparison h hnone other hother
    obtain ⟨o, -, hanswers⟩ := answer?_comparison hslot hcomparison h
    rw [hanswers other hother, hnone]
    revert hother
    cases other <;> simp [Operator.comparisons, Test.accepts, Operator.isNegated]

def balance : Attribute := { website with slug := "balance", title := "Balance", type := .number }

example : website.answer? .isIn (.arr [.str "a.io", .str "B.io"])
    (fun _ => some (.text "b.io")) = some true := by decide +kernel

example : balance.answer? .lessOrEqual (.str " 2.5 ")
    (fun _ => some (.number Double.zero none)) = some true := by decide +kernel

end RecordStore
