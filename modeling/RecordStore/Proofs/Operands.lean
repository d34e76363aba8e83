import Mathlib
import RecordStore.Proofs.Filters

/-!
# Tests with one operand

A condition that equals one value, or contains one member, is compiled to a test with one operand.
What such a test accepts is said here once: a cell equals the operand that lies in its slot and
stands for the same content, and a set contains what is the same as one of its members.
-/

namespace RecordStore

/-! ### Members that are the same -/

theorem Double.same_self (d : Double) : d.same d = true := beq_self_eq_true d.place

namespace Json

mutual

theorem same_self : ∀ j : Json, j.same j = true
  | .null => by rw [same]
  | .bool b => by rw [same, beq_self_eq_true]
  | .int n => by rw [same, beq_self_eq_true]
  | .float d => by rw [same, Double.same_self]
  | .str s => by rw [same, beq_self_eq_true]
  | .arr items => by rw [same, sameItems_self items]
  | .obj members => by rw [same, sameMembers_self members]

theorem sameItems_self : ∀ items : List Json, sameItems items items = true
  | [] => by rw [sameItems]
  | item :: rest => by rw [sameItems, same_self item, sameItems_self rest, Bool.and_self]

theorem sameMembers_self : ∀ members : List (String × Json), sameMembers members members = true
  | [] => by rw [sameMembers]
  | (key, value) :: rest => by
    rw [sameMembers, beq_self_eq_true, same_self value, sameMembers_self rest]
    rfl

end

end Json

theorem sameMember_self (m : Json) : sameMember m m = true := by
  cases m with
  | str s => exact beq_self_eq_true (Text.fold s)
  | _ => exact Json.same_self _

theorem hasMember_of_mem {members : List Json} {m : Json} (h : m ∈ members) :
    hasMember members m = true :=
  List.any_eq_true.mpr ⟨m, h, sameMember_self m⟩

/-! ### Operands by slot -/

theorem bind_return_eq_ok_iff {α β : Type} {x : Except Error α} {f : α → β} {b : β} :
    (x >>= fun v => pure (f v)) = .ok b ↔ ∃ v, x = .ok v ∧ f v = b := by
  simp [bind_eq_ok_iff, pure, Except.pure]

section

variable {a : Attribute} {raw : Json} {o : Operand}

theorem coerceOperand_text_iff (hslot : a.slot = .text) : coerceOperand a raw = .ok o ↔
    ∃ s, expectString a.slug raw = .ok s ∧ .text (Text.fold s) = o := by
  rw [coerceOperand, hslot]
  exact bind_return_eq_ok_iff

theorem coerceOperand_number_iff (hslot : a.slot = .number) : coerceOperand a raw = .ok o ↔
    ∃ d, coerceNumber a.slug raw = .ok d ∧ .number d = o := by
  rw [coerceOperand, hslot]
  exact bind_return_eq_ok_iff

theorem coerceOperand_boolean_iff (hslot : a.slot = .boolean) : coerceOperand a raw = .ok o ↔
    ∃ b, coerceBool a.slug raw = .ok b ∧ .boolean b = o := by
  rw [coerceOperand, hslot]
  exact bind_return_eq_ok_iff

theorem coerceOperand_date_iff (htype : a.type = .date) (hslot : a.slot = .date) :
    coerceOperand a raw = .ok o ↔ ∃ s, expectString a.slug raw = .ok s ∧
      ∃ micros, Calendar.parseDate s = .ok micros ∧ .date micros = o := by
  rw [coerceOperand, hslot, bind_eq_ok_iff]
  simp only [if_pos htype, bind_return_eq_ok_iff]

theorem coerceOperand_timestamp_iff (htype : a.type = .timestamp) (hslot : a.slot = .date) :
    coerceOperand a raw = .ok o ↔ ∃ s, expectString a.slug raw = .ok s ∧
      ∃ micros, Calendar.parseTimestamp s = .ok micros ∧ .date micros = o := by
  have hdate : a.type ≠ .date := by rw [htype]; decide
  rw [coerceOperand, hslot, bind_eq_ok_iff]
  simp only [if_neg hdate, bind_return_eq_ok_iff]

theorem coerceOperand_reference_iff (hslot : a.slot = .reference) : coerceOperand a raw = .ok o ↔
    ∃ id, coerceId a.slug raw = .ok id ∧ .reference id = o := by
  rw [coerceOperand, hslot]
  exact bind_return_eq_ok_iff

theorem coerceOperand_set_iff (hisSet : a.isSet = true) : coerceOperand a raw = .ok o ↔
    ∃ m, encodeMember a raw = .ok (some m) ∧ .member m = o := by
  rw [coerceOperand, AttributeHead.slot, if_pos hisSet, bind_eq_ok_iff]
  constructor
  · rintro ⟨made, hmade, h⟩
    cases made <;> cases h
    exact ⟨_, hmade, rfl⟩
  · rintro ⟨m, hm, rfl⟩
    exact ⟨some m, hm, rfl⟩

end

/-! ### Compiling -/

/-- A test with one operand is compiled just when the operator is one of the attribute's and the
value, which is neither blank nor an array, stands for something. -/
theorem compileTest_one_eq_ok_iff {a : Attribute} {operator : Operator} {raw : Json} {t : Test}
    (htakes : operator.takesOperand = true) (hone : ¬ (operator = .isIn ∨ operator = .isNotIn)) :
    compileTest a operator raw = .ok t ↔ operator ∈ a.operators ∧ raw.isBlank = false ∧
      (∀ items, raw ≠ .arr items) ∧
        ∃ o, coerceOperand a raw = .ok o ∧ ⟨a.id, operator, [o]⟩ = t := by
  have hcompared : (∀ items, raw ≠ .arr items) →
      (Condition.mk a.slug operator raw).compared = [raw] := by
    intro harr
    rw [Condition.compared, if_pos htakes]
    split
    · exact absurd ‹_› (harr _)
    · rfl
  rw [show compileTest a operator raw = .ok t ↔ _ from
    compileTest_eq_ok_iff (c := ⟨a.slug, operator, raw⟩), Condition.test]
  simp only [coerceOperand_eq_ok_iff]
  constructor
  · rintro ⟨hallowed, rfl⟩
    have harr : ∀ items, raw ≠ .arr items := fun items h => hone (hallowed.single htakes items h)
    have hdenotes := hallowed.denotes raw (by rw [hcompared harr]; exact .head _)
    obtain ⟨o, ho⟩ := Option.isSome_iff_exists.mp hdenotes
    refine ⟨hallowed.legal, hallowed.given htakes, harr, o, ho, ?_⟩
    simp [hcompared harr, ho]
  · rintro ⟨hlegal, hblank, harr, o, ho, rfl⟩
    refine ⟨⟨hlegal, fun _ => hblank, fun _ items h => absurd h (harr items), ?_⟩, ?_⟩
    · rw [hcompared harr]
      simp [ho]
    · simp [hcompared harr, ho]

/-- A text that is not blank is asked for by its folded form. -/
theorem compileTest_text {a : Attribute} {operator : Operator} (hslot : a.slot = .text)
    (hlegal : operator ∈ Slot.operators .text) (htakes : operator.takesOperand = true)
    (hone : ¬ (operator = .isIn ∨ operator = .isNotIn)) {s : String}
    (hblank : Text.isBlank s = false) :
    compileTest a operator (.str s) = .ok ⟨a.id, operator, [.text (Text.fold s)]⟩ := by
  have hoperators : a.operators = Slot.operators .text := by
    rw [AttributeHead.slot] at hslot
    split at hslot
    · cases hslot
    · rw [AttributeHead.operators, if_neg ‹_›, hslot]
  refine (compileTest_one_eq_ok_iff htakes hone).mpr ⟨hoperators ▸ hlegal,
    (Json.isBlank_str s).trans hblank, ?_, _,
    (coerceOperand_text_iff hslot).mpr ⟨s, rfl, rfl⟩, rfl⟩
  rintro _ ⟨⟩

theorem compileTest_equals_text {a : Attribute} (hslot : a.slot = .text) {s : String}
    (hblank : Text.isBlank s = false) :
    compileTest a .equals (.str s) = .ok ⟨a.id, .equals, [.text (Text.fold s)]⟩ :=
  compileTest_text hslot (by decide) (by decide) (by decide) hblank

/-! ### Equality -/

/-- The operand lies in the slot of the cell and stands for the same content. -/
inductive Cell.Equals : Cell → Operand → Prop
  | text {s t : String} (folded : Text.fold s = t) : Equals (.text s) (.text t)
  | number {d e : Double} (unit : Option String) (same : d.same e = true) :
      Equals (.number d unit) (.number e)
  | boolean (b : Bool) : Equals (.boolean b) (.boolean b)
  | date (micros : Int) : Equals (.date micros) (.date micros)
  | reference (id : Id) : Equals (.reference id) (.reference id)

theorem Cell.equals_text_iff {s t : String} :
    (Cell.text s).Equals (.text t) ↔ Text.fold s = t := by
  constructor
  · rintro ⟨folded⟩
    exact folded
  · exact .text

theorem compare_beq_eq (m n : Int) : (compare m n == .eq) = (m == n) := by
  rw [Bool.eq_iff_iff, beq_iff_eq, beq_iff_eq, compare_eq_iff_eq]

theorem operatorHolds_equals_structured (o : Operand) (j : Json) :
    operatorHolds .equals [o] (.structured j) = false := by
  cases j <;> rfl

theorem accepts_equals_iff {id : Id} {o : Operand} {cell : Cell} :
    Test.accepts ⟨id, .equals, [o]⟩ (some cell) = true ↔ cell.Equals o := by
  have haccepts : Test.accepts ⟨id, .equals, [o]⟩ (some cell) =
      operatorHolds .equals [o] cell := Bool.bne_false _
  rw [haccepts]
  constructor
  · intro h
    cases cell with
    | text s => cases o with
      | text t => exact .text (beq_iff_eq.mp h)
      | _ => cases h
    | number d unit => cases o with
      | number e => exact .number unit ((compare_beq_eq _ _).symm.trans h)
      | _ => cases h
    | boolean b => cases o with
      | boolean c => exact beq_iff_eq.mp h ▸ .boolean _
      | _ => cases h
    | date micros => cases o with
      | date expected => exact beq_iff_eq.mp ((compare_beq_eq _ _).symm.trans h) ▸ .date _
      | _ => cases h
    | reference id => cases o with
      | reference r => exact beq_iff_eq.mp h ▸ .reference _
      | _ => cases h
    | structured j => cases (operatorHolds_equals_structured o j).symm.trans h
  · rintro (⟨folded⟩ | ⟨unit, same⟩ | b | micros | id)
    · exact beq_iff_eq.mpr folded
    · exact (compare_beq_eq _ _).trans same
    · exact beq_self_eq_true b
    · exact (compare_beq_eq _ _).trans (beq_self_eq_true micros)
    · exact beq_self_eq_true id

/-! ### Membership -/

theorem accepts_contains {id : Id} {m : Json} {members : List Json} :
    Test.accepts ⟨id, .contains, [.member m]⟩ (some (.structured (.arr members))) =
      hasMember members m :=
  Bool.bne_false _

/-- That a set contains a value is asked by the member that is stored of the value. -/
theorem compileTest_contains_eq_ok_iff {a : Attribute} (hisSet : a.isSet = true) {raw : Json}
    {t : Test} : compileTest a .contains raw = .ok t ↔ (∀ items, raw ≠ .arr items) ∧
      ∃ m, encodeMember a raw = .ok (some m) ∧ ⟨a.id, .contains, [.member m]⟩ = t := by
  have hlegal : Operator.contains ∈ a.operators := by
    rw [AttributeHead.operators, if_pos hisSet]
    decide
  rw [compileTest_one_eq_ok_iff (by decide) (by decide)]
  simp only [coerceOperand_set_iff hisSet]
  constructor
  · rintro ⟨-, -, harr, _, ⟨m, hm, rfl⟩, rfl⟩
    exact ⟨harr, m, hm, rfl⟩
  · rintro ⟨harr, m, hm, rfl⟩
    exact ⟨hlegal, (exists_of_encodeMember hm).1, harr, _, ⟨m, hm, rfl⟩, rfl⟩

end RecordStore
