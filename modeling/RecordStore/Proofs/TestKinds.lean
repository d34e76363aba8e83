import Mathlib
import RecordStore.Proofs.OperatorLaws

/-!
# Tests of one kind

A test is put to a value by cases over operators, operands and cells, and where none of the cases
fits it says no. That answer compares nothing, and a negated operator turns it round. Main
statement: the operands of a compiled test are of the kind of its attribute's slot, there are some
just if the operator takes any, and put to a value of that slot the test compares.
-/

namespace RecordStore

/-! ### Answers that compare -/

namespace Operand

def text? : Operand → Option String
  | .text s => some s
  | _ => none

def number? : Operand → Option Double
  | .number d => some d
  | _ => none

def boolean? : Operand → Option Bool
  | .boolean b => some b
  | _ => none

def date? : Operand → Option Int
  | .date micros => some micros
  | _ => none

def id? : Operand → Option Id
  | .reference id => some id
  | _ => none

def member? : Operand → Option Json
  | .member j => some j
  | _ => none

end Operand

/-- Whether one of the operands passes, if all of them are of the kind that is read. -/
def anyOperand? {α : Type} (read : Operand → Option α) (passes : α → Bool)
    (operands : List Operand) : Option Bool :=
  (operands.mapM read).map fun values => values.any passes

def orderHolds? (operator : Operator) (order : Ordering) : Option Bool :=
  match operator with
  | .equals => some (order == .eq)
  | .greater => some (order == .gt)
  | .greaterOrEqual => some (order != .lt)
  | .less => some (order == .lt)
  | .lessOrEqual => some (order != .gt)
  | _ => none

def textHolds? (operator : Operator) (text : String) (first : Operand) (operands : List Operand) :
    Option Bool := do
  let expected ← first.text?
  match operator with
  | .equals => some (text == expected)
  | .contains => some (Text.holds text expected)
  | .startsWith => some (expected.toList.isPrefixOf text.toList)
  | .endsWith => some (expected.toList.isSuffixOf text.toList)
  | .isIn => anyOperand? Operand.text? (· == text) operands
  | _ => none

def numberHolds? (operator : Operator) (value : Double) (first : Operand)
    (operands : List Operand) : Option Bool :=
  match operator with
  | .isIn => anyOperand? Operand.number? (·.same value) operands
  | _ => do orderHolds? operator (compare value.place (← first.number?).place)

def referenceHolds? (operator : Operator) (id : Id) (first : Operand) (operands : List Operand) :
    Option Bool :=
  match operator with
  | .equals => first.id?.map (· == id)
  | .isIn => anyOperand? Operand.id? (· == id) operands
  | _ => none

def setHolds? (operator : Operator) (members : List Json) (first : Operand)
    (operands : List Operand) : Option Bool :=
  match operator with
  | .contains => first.member?.map (hasMember members)
  | .isIn => anyOperand? Operand.member? (hasMember members) operands
  | _ => none

/-- What an operator says of a cell, if it compares the cell with its operands. It does not where
there is no operand, one of another kind, or an operator that the slot does not know. -/
def operatorHolds? (operator : Operator) (operands : List Operand) (cell : Cell) : Option Bool :=
  match operands with
  | [] => none
  | first :: _ =>
    match cell with
    | .structured (.arr members) => setHolds? operator members first operands
    | .structured _ => none
    | .text s => textHolds? operator (Text.fold s) first operands
    | .number value _ => numberHolds? operator value first operands
    | .date micros => do orderHolds? operator (compare micros (← first.date?))
    | .boolean b => if operator = .equals then first.boolean?.map (· == b) else none
    | .reference id => referenceHolds? operator id first operands

/-- Whether a test accepts a value, if it is answered by a comparison or needs none. -/
def Test.accepts? (t : Test) : Option Cell → Option Bool
  | none => some (t.accepts none)
  | some cell =>
    match t.operator with
    | .isEmpty => some false
    | .isNotEmpty => some true
    | operator => (operatorHolds? operator.positive t.operands cell).map (· != operator.isNegated)

example : operatorHolds? .isIn [.date 0] (.date 0) = none := rfl

example : operatorHolds? .equals [.text "1"] (.number Double.zero none) = none := rfl

/-! ### Values of the slot -/

/-- The operators that compare the values of a slot, none of them negated. -/
def Slot.comparators : Slot → List Operator
  | .text => [.equals, .contains, .startsWith, .endsWith, .isIn]
  | .number => .isIn :: Operator.comparisons
  | .boolean => [.equals]
  | .date => Operator.comparisons
  | .reference => [.equals, .isIn]
  | .structured => [.contains, .isIn]

theorem anyOperand?_eq_some {α : Type} {read : Operand → Option α} {passes : α → Bool}
    {accepts : Operand → Bool} {operands : List Operand}
    (h : ∀ o ∈ operands, (read o).map passes = some (accepts o)) :
    anyOperand? read passes operands = some (operands.any accepts) := by
  induction operands with
  | nil => rfl
  | cons o rest ih =>
    obtain ⟨hhere, hrest⟩ := List.forall_mem_cons.mp h
    obtain ⟨v, hv, hpasses⟩ := Option.map_eq_some_iff.mp hhere
    obtain ⟨vs, hvs, hany⟩ := Option.map_eq_some_iff.mp (ih hrest)
    rw [anyOperand?, List.mapM_cons, hv, hvs, List.any_cons, ← hpasses, ← hany]
    rfl

theorem orderHolds?_eq_some {operator : Operator} (h : operator ∈ Operator.comparisons)
    (order : Ordering) : orderHolds? operator order = some (orderHolds operator order) := by
  revert h
  cases operator <;> first | exact fun _ => rfl | exact fun h => absurd h (by decide)

section

variable {operator : Operator} {first : Operand} {rest : List Operand}

theorem textHolds?_eq_some (hoperator : operator ∈ Slot.comparators .text)
    (hkind : ∀ o ∈ first :: rest, o.slot = .text) (text : String) :
    textHolds? operator text first (first :: rest) =
      some (textHolds operator text first (first :: rest)) := by
  cases first with
  | text expected =>
    cases operator with
    | equals | contains | startsWith | endsWith => rfl
    | isIn =>
      change anyOperand? _ _ _ = some (List.any _ _)
      refine anyOperand?_eq_some fun o ho => ?_
      cases o with
      | text s => rfl
      | _ => cases hkind _ ho
    | _ => exact absurd hoperator (by decide)
  | _ => cases hkind _ (.head _)

theorem numberHolds?_eq_some (hoperator : operator ∈ Slot.comparators .number)
    (hkind : ∀ o ∈ first :: rest, o.slot = .number) (value : Double) :
    numberHolds? operator value first (first :: rest) =
      some (numberHolds operator value first (first :: rest)) := by
  cases first with
  | number expected =>
    by_cases hseveral : operator = .isIn
    · subst hseveral
      change anyOperand? _ _ _ = some (List.any _ _)
      refine anyOperand?_eq_some fun o ho => ?_
      cases o with
      | number d => rfl
      | _ => cases hkind _ ho
    · have hcompares := (List.mem_cons.mp hoperator).resolve_left hseveral
      have hone : numberHolds operator value (.number expected) (.number expected :: rest) =
          orderHolds operator (compare value.place expected.place) := by
        cases operator <;> first | rfl | exact absurd rfl hseveral
      have hone? : numberHolds? operator value (.number expected) (.number expected :: rest) =
          orderHolds? operator (compare value.place expected.place) := by
        cases operator <;> first | rfl | exact absurd rfl hseveral
      rw [hone, hone?, orderHolds?_eq_some hcompares]
  | _ => cases hkind _ (.head _)

theorem referenceHolds?_eq_some (hoperator : operator ∈ Slot.comparators .reference)
    (hkind : ∀ o ∈ first :: rest, o.slot = .reference) (id : Id) :
    referenceHolds? operator id first (first :: rest) =
      some (referenceHolds operator id first (first :: rest)) := by
  cases first with
  | reference expected =>
    cases operator with
    | equals => rfl
    | isIn =>
      change anyOperand? _ _ _ = some (List.any _ _)
      refine anyOperand?_eq_some fun o ho => ?_
      cases o with
      | reference r => rfl
      | _ => cases hkind _ ho
    | _ => exact absurd hoperator (by decide)
  | _ => cases hkind _ (.head _)

theorem setHolds?_eq_some (hoperator : operator ∈ Slot.comparators .structured)
    (hkind : ∀ o ∈ first :: rest, o.slot = .structured) (members : List Json) :
    setHolds? operator members first (first :: rest) =
      some (setHolds operator members first (first :: rest)) := by
  cases first with
  | member candidate =>
    cases operator with
    | contains => rfl
    | isIn =>
      change anyOperand? _ _ _ = some (List.any _ _)
      refine anyOperand?_eq_some fun o ho => ?_
      cases o with
      | member j => rfl
      | _ => cases hkind _ ho
    | _ => exact absurd hoperator (by decide)
  | _ => cases hkind _ (.head _)

end

/-- Where an operator compares values of a slot and its operands are of that kind, a value of the
slot is compared with them. -/
theorem operatorHolds?_eq_some {operator : Operator} {operands : List Operand} {cell : Cell}
    (hoperator : operator ∈ cell.slot.comparators) (hne : operands ≠ [])
    (hkind : ∀ o ∈ operands, o.slot = cell.slot)
    (hset : cell.slot = .structured → ∃ members, cell = .structured (.arr members)) :
    operatorHolds? operator operands cell = some (operatorHolds operator operands cell) := by
  obtain ⟨first, rest, rfl⟩ := List.exists_cons_of_ne_nil hne
  cases cell with
  | text s => exact textHolds?_eq_some hoperator hkind (Text.fold s)
  | number value unit => exact numberHolds?_eq_some hoperator hkind value
  | boolean b =>
    obtain rfl := List.mem_singleton.mp hoperator
    cases first with
    | boolean expected => rfl
    | _ => cases hkind _ (.head _)
  | date micros =>
    cases first with
    | date expected => exact orderHolds?_eq_some hoperator (compare micros expected)
    | _ => cases hkind _ (.head _)
  | structured j =>
    obtain ⟨members, hmembers⟩ := hset rfl
    cases hmembers
    exact setHolds?_eq_some hoperator hkind members
  | reference id => exact referenceHolds?_eq_some hoperator hkind id

/-- Only operators that take an operand have to compare. -/
theorem Test.accepts?_eq_some {t : Test} {cell : Cell}
    (h : t.operator.takesOperand = true → operatorHolds? t.operator.positive t.operands cell =
      some (operatorHolds t.operator.positive t.operands cell)) :
    t.accepts? (some cell) = some (t.accepts (some cell)) := by
  obtain ⟨id, operator, operands⟩ := t
  cases operator with
  | isEmpty | isNotEmpty => rfl
  | _ =>
    simp only [accepts?, accepts]
    rw [h rfl]
    rfl

/-! ### Compiled tests -/

section

variable {a : Attribute} {operator : Operator}

/-- What an operator of an attribute compares, it compares in the attribute's slot. -/
theorem positive_mem_comparators (hlegal : operator ∈ a.operators)
    (htakes : operator.takesOperand = true) : operator.positive ∈ a.slot.comparators := by
  rw [AttributeHead.operators] at hlegal
  rw [AttributeHead.slot]
  split at hlegal
  · rw [if_pos ‹_›]
    revert hlegal htakes
    cases operator <;> decide
  · rw [if_neg ‹_›]
    revert hlegal htakes
    cases a.type.slot <;> cases operator <;> decide

/-- Of a single name, location or interaction it can only be asked whether there is one. -/
theorem operator_of_structured (hlegal : operator ∈ a.operators) (hset : a.isSet = false)
    (hslot : a.type.slot = .structured) : operator = .isEmpty ∨ operator = .isNotEmpty := by
  rw [AttributeHead.operators, hset, hslot] at hlegal
  simpa [Slot.operators] using hlegal

/-- A condition that needs something to compare with has it, and it stands for something. -/
theorem operands_test_ne_nil_iff {c : Condition} (h : c.Allowed a) :
    (c.test a).operands ≠ [] ↔ c.operator.takesOperand = true := by
  refine ⟨fun hne => ?_, fun htakes hnil => ?_⟩
  · by_contra htakes
    exact hne (by rw [Condition.test, Condition.compared, if_neg htakes, List.filterMap_nil])
  · have hblank : c.operand.isBlank = false := h.given htakes
    have hitems : c.compared = c.operand.items := compared_eq_items htakes c.slug
    rw [Bool.eq_false_iff, ne_eq, Json.isBlank_iff, ← hitems] at hblank
    refine hblank fun raw hraw => ?_
    obtain ⟨o, ho⟩ := Option.isSome_iff_exists.mp (h.denotes raw hraw)
    have hmem : o ∈ (c.test a).operands := List.mem_filterMap.mpr ⟨raw, hraw, ho⟩
    rw [hnil] at hmem
    cases hmem

end

/-- A test fits an attribute: its operands are of the kind of the attribute's slot, and put to a
value of that slot it compares. -/
structure Test.Fits (t : Test) (a : Attribute) : Prop where
  attributeId : t.attributeId = a.id
  /-- There is something to compare with just if the operator takes it. -/
  operands : t.operands ≠ [] ↔ t.operator.takesOperand = true
  kind : ∀ o ∈ t.operands, o.slot = a.slot
  existence : a.isSet = false → a.type.slot = .structured →
    t.operator = .isEmpty ∨ t.operator = .isNotEmpty
  compares : ∀ cell : Cell, cell.slot = a.slot →
    (a.isSet = true → ∃ members, cell = .structured (.arr members)) →
      t.accepts? (some cell) = some (t.accepts (some cell))

/-- Whatever condition is compiled, its test fits the attribute: no value that the attribute can
have falls through. -/
theorem fits_of_compileTest {a : Attribute} {operator : Operator} {raw : Json} {t : Test}
    (h : compileTest a operator raw = .ok t) : t.operator = operator ∧ t.Fits a := by
  obtain ⟨hallowed, rfl⟩ := (compileTest_eq_ok_iff (c := ⟨a.slug, operator, raw⟩)).mp h
  have hlegal : operator ∈ a.operators := hallowed.legal
  have hoperands := operands_test_ne_nil_iff hallowed
  have hkind : ∀ o ∈ ((Condition.mk a.slug operator raw).test a).operands, o.slot = a.slot := by
    intro o ho
    obtain ⟨item, -, hitem⟩ := List.mem_filterMap.mp ho
    exact slot_of_operand? hitem
  refine ⟨rfl, rfl, hoperands, hkind, operator_of_structured hlegal, fun cell hcell hmembers => ?_⟩
  refine Test.accepts?_eq_some fun htakes => operatorHolds?_eq_some ?_ (hoperands.mpr htakes) ?_ ?_
  · rw [hcell]
    exact positive_mem_comparators hlegal htakes
  · rw [hcell]
    exact hkind
  · -- a structured value that is no set is only asked for
    intro hstructured
    refine hmembers (Bool.of_not_eq_false fun hset => ?_)
    rw [hcell, AttributeHead.slot, hset, if_neg Bool.false_ne_true] at hstructured
    rcases operator_of_structured hlegal hset hstructured with rfl | rfl <;> cases htakes

/-- The test whether a set of websites has none of two. -/
def withoutBoth : Test :=
  ⟨default, .isNotIn, [.member (.str "a.io"), .member (.str "b.io")]⟩

/-- Both websites are compared as they are stored, and a set with neither passes. -/
theorem fits_websites :
    compileTest websites .isNotIn (.arr [.str "a.io", .str "https://b.io/"]) = .ok withoutBoth ∧
      withoutBoth.Fits websites ∧
      withoutBoth.accepts? (some (.structured (.arr [.str "c.io"]))) = some true := by
  have hmember (s normal : String) (hblank : Text.isBlank s = false)
      (hnormal : normalizeDomain s = normal) :
      coerceOperand websites (.str s) = .ok (.member (.str normal)) :=
    (coerceOperand_set_iff rfl).mpr
      ⟨_, hnormal ▸ encodeMember_domain (a := websites) rfl hblank, rfl⟩
  have hcompiled : compileTest websites .isNotIn (.arr [.str "a.io", .str "https://b.io/"]) =
      .ok withoutBoth := by
    have hbare := hmember "a.io" "a.io" (by decide) (by decide +kernel)
    have hscheme := hmember "https://b.io/" "b.io" (by decide) (by decide +kernel)
    rw [compileTest, if_neg (by decide), if_pos (by decide)]
    refine bind_eq_ok_iff.mpr ⟨[.str "a.io", .str "https://b.io/"], by cbv, ?_⟩
    simp only [List.mapM_cons, List.mapM_nil, hbare, hscheme]
    rfl
  have haccepts : withoutBoth.accepts (some (.structured (.arr [.str "c.io"]))) = true := by
    decide +kernel
  obtain ⟨-, hfits⟩ := fits_of_compileTest hcompiled
  exact ⟨hcompiled, hfits, haccepts ▸ hfits.compares _ rfl fun _ => ⟨_, rfl⟩⟩

end RecordStore
