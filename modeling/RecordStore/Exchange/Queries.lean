import RecordStore.Exchange.Basic

/-!
# Queries as JSON

A clause is read as a condition if it can be, else as a group. Both have a member `operator`; what
tells them apart is which names it may hold and the other members.
-/

namespace RecordStore

/-! ### Filters -/

namespace Condition

def toJson (c : Condition) : Json :=
  .obj [("attribute", .str c.slug), ("operator", c.operator.toJson), ("value", c.operand)]

def ofJson? (j : Json) : Option Condition := do
  let field ← j.form? ["attribute", "operator", "value"]
  return {
    slug := ← (field "attribute").required Json.str?
    operator := ← (field "operator").required (Json.choice? Operator.names)
    operand := ← (field "value").orElse .null Json.any? }

end Condition

namespace Clause

def groupJson (combinator : Combinator) (clauses : List Json) : Json :=
  .obj [("operator", combinator.toJson), ("conditions", .arr clauses)]

mutual

def toJson : Clause → Json
  | .condition c => c.toJson
  | .group combinator clauses => groupJson combinator (listJson clauses)

def listJson : List Clause → List Json
  | [] => []
  | clause :: rest => toJson clause :: listJson rest

end

def combinatorAmong (members : List (String × Json)) : Option Combinator :=
  match members.lookup "operator" with
  | some j => j.choice? Combinator.names
  | none => some .and

mutual

def ofJson? : Json → Option Clause
  | .obj members =>
    match Condition.ofJson? (.obj members) with
    | some c => some (.condition c)
    | none => do
      let combinator ← combinatorAmong members
      return .group combinator (← clausesAmong? members)
  | .arr items =>
    match Condition.ofJson? (.arr items) with
    | some c => some (.condition c)
    | none =>
      match items with
      | [operator, .arr clauses] => do
        let combinator ← operator.choice? Combinator.names
        return .group combinator (← listOfJson? clauses)
      | _ => none
  | _ => none

def clausesAmong? : List (String × Json) → Option (List Clause)
  | [] => none
  | (key, value) :: rest =>
    if key = "conditions" then
      match value with
      | .arr clauses => listOfJson? clauses
      | _ => none
    else clausesAmong? rest

def listOfJson? : List Json → Option (List Clause)
  | [] => some []
  | j :: rest => do
    let clause ← ofJson? j
    return clause :: (← listOfJson? rest)

end

end Clause

namespace Filter

def toJson (f : Filter) : Json := Clause.groupJson f.combinator (Clause.listJson f.clauses)

def ofJson? (j : Json) : Option Filter := do
  let field ← j.form? ["operator", "conditions"]
  return {
    combinator := ← (field "operator").orElse .and (Json.choice? Combinator.names)
    clauses := ← (field "conditions").required fun
      | .arr clauses => Clause.listOfJson? clauses
      | _ => none }

end Filter

/-! ### Sorts and queries -/

namespace SortSpec

def toJson (s : SortSpec) : Json :=
  .obj [("attribute", .str s.name), ("direction", s.direction.toJson)]

def ofJson? (j : Json) : Option SortSpec := do
  let field ← j.form? ["attribute", "direction"]
  return {
    name := ← (field "attribute").required Json.str?
    direction := ← (field "direction").orElse .ascending (Json.choice? Direction.names) }

end SortSpec

namespace Query

def toJson (q : Query) : Json :=
  .obj [("limit", Json.orNull Json.nat q.limit), ("offset", Json.nat q.offset),
    ("filter", Json.orNull Filter.toJson q.filter), ("sorts", Json.list SortSpec.toJson q.sorts),
    ("search", Json.orNull .str q.search)]

def ofJson? (j : Json) : Option Query := do
  let field ← j.form? ["limit", "offset", "filter", "sorts", "search"]
  return {
    limit := ← (field "limit").optionalTail Json.nat32?
    offset := ← (field "offset").orElse 0 Json.nat64?
    filter := ← (field "filter").optionalTail Filter.ofJson?
    sorts := ← (field "sorts").orElse [] (Json.list? SortSpec.ofJson?)
    search := ← (field "search").optionalTail Json.str? }

end Query

end RecordStore
