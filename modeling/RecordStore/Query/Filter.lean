import RecordStore.Value.Encode

/-!
# Filters

A filter is a tree of conditions on attributes, named by slug. It is compiled against the
attributes of a listing into a matcher, whose tests hold their operands in the domain of the
attribute's slot. Conditions on unknown attributes are dropped or refused, as the policy says.
-/

namespace RecordStore

/-! ### Filters as given -/

inductive Combinator where
  | and | or
deriving DecidableEq

structure Condition where
  slug : String
  operator : Operator
  operand : Json

inductive Clause where
  | condition (c : Condition)
  | group (combinator : Combinator) (clauses : List Clause)

structure Filter where
  combinator : Combinator
  clauses : List Clause

/-- What happens to a filter or sort that names an attribute which does not exist. -/
inductive UnknownPolicy where
  | ignore
  | reject
deriving DecidableEq

/-! ### Matchers -/

/-- What a test compares with, in the domain of a slot. -/
inductive Operand where
  | text (s : String)
  | number (d : Double)
  | boolean (b : Bool)
  | date (micros : Int)
  | reference (id : Id)
  | member (j : Json)

structure Test where
  attributeId : Id
  operator : Operator
  operands : List Operand

inductive Matcher where
  | all
  | and (parts : List Matcher)
  | or (parts : List Matcher)
  | test (t : Test)

abbrev Cells := Id → Option Cell

/-! ### Testing values -/

def orderHolds (operator : Operator) (order : Ordering) : Bool :=
  match operator with
  | .equals => order == .eq
  | .greater => order == .gt
  | .greaterOrEqual => order != .lt
  | .less => order == .lt
  | .lessOrEqual => order != .gt
  | _ => false

def Operand.isMemberOf (members : List Json) : Operand → Bool
  | .member candidate => hasMember members candidate
  | _ => false

def textHolds (operator : Operator) (text : String) (first : Operand) (operands : List Operand) :
    Bool :=
  match first with
  | .text expected =>
    match operator with
    | .equals => text == expected
    | .contains => Text.holds text expected
    | .startsWith => expected.toList.isPrefixOf text.toList
    | .endsWith => expected.toList.isSuffixOf text.toList
    | .isIn => operands.any fun
      | .text s => s == text
      | _ => false
    | _ => false
  | _ => false

def numberHolds (operator : Operator) (value : Double) (first : Operand)
    (operands : List Operand) : Bool :=
  match operator with
  | .isIn => operands.any fun
    | .number d => d.same value
    | _ => false
  | _ =>
    match first with
    | .number expected => orderHolds operator (compare value.place expected.place)
    | _ => false

def referenceHolds (operator : Operator) (id : Id) (first : Operand) (operands : List Operand) :
    Bool :=
  let isId : Operand → Bool := fun
    | .reference r => r == id
    | _ => false
  match operator with
  | .equals => isId first
  | .isIn => operands.any isId
  | _ => false

def setHolds (operator : Operator) (members : List Json) (first : Operand)
    (operands : List Operand) : Bool :=
  match operator with
  | .contains => first.isMemberOf members
  | .isIn => operands.any (Operand.isMemberOf members)
  | _ => false

def operatorHolds (operator : Operator) (operands : List Operand) (cell : Cell) : Bool :=
  match operands with
  | [] => false
  | first :: _ =>
    match cell with
    | .structured (.arr members) => setHolds operator members first operands
    | .structured _ => false
    | .text s => textHolds operator (Text.fold s) first operands
    | .number value _ => numberHolds operator value first operands
    | .date micros =>
      match first with
      | .date expected => orderHolds operator (compare micros expected)
      | _ => false
    | .boolean b =>
      match first with
      | .boolean expected => operator == .equals && expected == b
      | _ => false
    | .reference id => referenceHolds operator id first operands

namespace Test

/-- Whether a test accepts a value. The existence operators ask only whether there is one; of the
others the negated ones hold where there is none. -/
def accepts (t : Test) : Option Cell → Bool
  | none =>
    match t.operator with
    | .isEmpty => true
    | .isNotEmpty => false
    | operator => operator.isNegated
  | some cell =>
    match t.operator with
    | .isEmpty => false
    | .isNotEmpty => true
    | operator => operatorHolds operator.positive t.operands cell != operator.isNegated

end Test

namespace Matcher

mutual

def accepts (cells : Cells) : Matcher → Bool
  | .all => true
  | .and parts => allAccept cells parts
  | .or parts => someAccepts cells parts
  | .test t => t.accepts (cells t.attributeId)

def allAccept (cells : Cells) : List Matcher → Bool
  | [] => true
  | part :: rest => accepts cells part && allAccept cells rest

def someAccepts (cells : Cells) : List Matcher → Bool
  | [] => false
  | part :: rest => accepts cells part || someAccepts cells rest

end

mutual

def attributeIds : Matcher → List Id
  | .all => []
  | .and parts | .or parts => attributeIdsOf parts
  | .test t => [t.attributeId]

def attributeIdsOf : List Matcher → List Id
  | [] => []
  | part :: rest => attributeIds part ++ attributeIdsOf rest

end

def isAll : Matcher → Bool
  | .all => true
  | _ => false

/-- One matcher for the parts of a group: parts that accept everything drop out of a conjunction
and decide a disjunction, and a single part stands for itself. -/
def combine (combinator : Combinator) (parts : List Matcher) : Matcher :=
  match combinator with
  | .and =>
    match parts.filter fun part => !part.isAll with
    | [] => .all
    | [part] => part
    | several => .and several
  | .or =>
    if parts.any isAll then .all
    else match parts with
      | [part] => part
      | several => .or several

end Matcher

/-! ### Compiling -/

def resolve (unknown : UnknownPolicy) (attributes : List Attribute) (part : QueryPart)
    (slug : String) : Except Error (Option Attribute) :=
  match attributes.find? fun a => a.slug == slug with
  | some a => .ok (some a)
  | none =>
    match unknown with
    | .ignore => .ok none
    | .reject => .error (.invalid (.unknownInQuery part slug))

def coerceOperand (a : Attribute) (raw : Json) : Except Error Operand :=
  match a.slot with
  | .structured => do
    match ← encodeMember a raw with
    | some member => return .member member
    | none => .error (.invalid (.emptyMember a.slug))
  | .text => do return .text (Text.fold (← expectString a.slug raw))
  | .number => do return .number (← coerceNumber a.slug raw)
  | .boolean => do return .boolean (← coerceBool a.slug raw)
  | .date => do
    let text ← expectString a.slug raw
    if a.type = .date then return .date (← Calendar.parseDate text)
    else return .date (← Calendar.parseTimestamp text)
  | .reference => do return .reference (← coerceId a.slug raw)

/-- The values that a condition compares with: the items of an array for the operators that take
several, else one value. -/
def rawOperands (a : Attribute) (operator : Operator) (raw : Json) : Except Error (List Json) :=
  if raw.isBlank then .error (.invalid (.operandMissing a.slug operator))
  else match raw with
    | .arr items =>
      if operator = .isIn ∨ operator = .isNotIn then .ok items
      else .error (.invalid (.singleOperandOnly a.slug operator))
    | other => .ok [other]

def compileTest (a : Attribute) (operator : Operator) (raw : Json) : Except Error Test :=
  if ¬ a.operators.contains operator then
    .error (.invalid (.operatorNotSupported operator a.slug a.type))
  else if operator.takesOperand then do
    let raws ← rawOperands a operator raw
    return ⟨a.id, operator, ← raws.mapM (coerceOperand a)⟩
  else .ok ⟨a.id, operator, []⟩

def compileCondition (unknown : UnknownPolicy) (attributes : List Attribute) (c : Condition) :
    Except Error (Option Matcher) := do
  match ← resolve unknown attributes .filter c.slug with
  | none => return none
  | some a => return some (.test (← compileTest a c.operator c.operand))

mutual

/-- The matcher of a clause; none when it is dropped. A group is dropped when all of its clauses
are; one without clauses accepts everything. -/
def compileClause (unknown : UnknownPolicy) (attributes : List Attribute) :
    Clause → Except Error (Option Matcher)
  | .condition c => compileCondition unknown attributes c
  | .group _ [] => .ok (some .all)
  | .group combinator clauses => do
    match ← compileClauses unknown attributes clauses with
    | [] => return none
    | parts => return some (.combine combinator parts)

def compileClauses (unknown : UnknownPolicy) (attributes : List Attribute) :
    List Clause → Except Error (List Matcher)
  | [] => .ok []
  | clause :: rest => do
    let here ← compileClause unknown attributes clause
    let others ← compileClauses unknown attributes rest
    return here.toList ++ others

end

/-- The matcher of a filter; without one, or with all of it dropped, everything is accepted. -/
def compileFilter (unknown : UnknownPolicy) (attributes : List Attribute) (filter : Option Filter) :
    Except Error Matcher := do
  match filter with
  | none => return .all
  | some f =>
    return (← compileClause unknown attributes (.group f.combinator f.clauses)).getD .all

end RecordStore
