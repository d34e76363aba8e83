import RecordStore.Exchange.Queries
import RecordStore.Proofs.Displays
import RecordStore.Proofs.JsonTexts

/-!
# Filters as JSON and back

A clause is written as an object of its fields, and its kind is written nowhere. A condition is
known by its member `attribute`, which no group writes, so the reader, who tries a condition first,
is never misled. What is read back does not depend on the order in which the members stand.

Main statement: `Filter.read_back`.
-/

namespace RecordStore

/-! ### Values in key order -/

namespace Json

mutual

theorem ordered_of_inOrder : (j : Json) → j.InOrder → j.ordered = j
  | .null, _ | .bool _, _ | .int _, _ | .float _, _ | .str _, _ => rfl
  | .arr items, h => by rw [ordered, orderedItems_of_inOrder items h]
  | .obj members, h => by
    rw [ordered, orderedMembers_of_inOrder members h.2, orderKeys_of_pairwise_lt h.1]

theorem orderedItems_of_inOrder : (items : List Json) → ItemsInOrder items →
    orderedItems items = items
  | [], _ => rfl
  | item :: rest, h => by
    rw [orderedItems, ordered_of_inOrder item h.1, orderedItems_of_inOrder rest h.2]

theorem orderedMembers_of_inOrder : (members : List (String × Json)) → MembersInOrder members →
    orderedMembers members = members
  | [], _ => rfl
  | (_, value) :: rest, h => by
    rw [orderedMembers, ordered_of_inOrder value h.1, orderedMembers_of_inOrder rest h.2]

end

theorem ItemsInOrder.of_mem {items : List Json} (h : ItemsInOrder items) {j : Json}
    (hj : j ∈ items) : j.InOrder := by
  induction items with
  | nil => simp at hj
  | cons item rest ih =>
    rcases List.mem_cons.mp hj with rfl | hj
    · exact h.1
    · exact ih h.2 hj

theorem MembersInOrder.of_lookup {members : List (String × Json)} (h : MembersInOrder members)
    {key : String} {j : Json} (hj : members.lookup key = some j) : j.InOrder := by
  induction members with
  | nil => simp at hj
  | cons p rest ih =>
    rw [List.lookup_cons] at hj
    split at hj
    · cases hj
      exact h.1
    · exact ih h.2 hj

/-- What a record form in key order offers is in key order. -/
theorem inOrder_of_form? {fields : List String} {j value : Json} {field : String → Offer}
    (h : j.InOrder) (hform : j.form? fields = some field) {name : String}
    (hvalue : field name = .value value) : value.InOrder := by
  cases j with
  | obj members =>
    cases hform
    cases hlookup : members.lookup name with
    | none => simp [hlookup] at hvalue
    | some found =>
      simp only [hlookup, Option.map_some, Option.getD_some, Offer.value.injEq] at hvalue
      exact hvalue ▸ h.2.of_lookup hlookup
  | arr items =>
    simp only [form?] at hform
    split at hform
    · cases hform
    · cases hform
      cases hitem : items[fields.idxOf name]? with
      | none => simp [hitem] at hvalue
      | some found =>
        simp only [hitem, Option.map_some, Option.getD_some, Offer.value.injEq] at hvalue
        exact hvalue ▸ ItemsInOrder.of_mem h (List.mem_of_getElem? hitem)
  | _ => cases hform

end Json

/-! ### How a clause is spelt -/

theorem Combinator.lookup_names (c : Combinator) : Combinator.names.lookup c.name = some c := by
  cases c <;> decide

namespace Clause

mutual

/-- The value is an object that holds the fields of the clause, wherever they stand in it. -/
inductive Spelt : Clause → Json → Prop
  | condition {c : Condition} {members : List (String × Json)}
      (slug : members.lookup "attribute" = some (.str c.slug))
      (operator : members.lookup "operator" = some c.operator.toJson)
      (operand : members.lookup "value" = some c.operand) :
      Spelt (.condition c) (.obj members)
  | group {combinator : Combinator} {clauses : List Clause} {members : List (String × Json)}
      {items : List Json} (unnamed : members.lookup "attribute" = none)
      (operator : members.lookup "operator" = some combinator.toJson)
      (conditions : members.lookup "conditions" = some (.arr items))
      (spelt : AllSpelt clauses items) : Spelt (.group combinator clauses) (.obj members)

inductive AllSpelt : List Clause → List Json → Prop
  | nil : AllSpelt [] []
  | cons {clause : Clause} {clauses : List Clause} {j : Json} {items : List Json}
      (head : Spelt clause j) (rest : AllSpelt clauses items) :
      AllSpelt (clause :: clauses) (j :: items)

end

theorem ofJson?_condition {c : Condition} {members : List (String × Json)}
    (slug : members.lookup "attribute" = some (.str c.slug))
    (operator : members.lookup "operator" = some c.operator.toJson)
    (operand : members.lookup "value" = some c.operand) :
    Condition.ofJson? (.obj members) = some c := by
  simp [Condition.ofJson?, Json.form?, slug, operator, operand, Json.Offer.required,
    Json.Offer.orElse, Json.str?, Json.any?, Operator.toJson, Json.choice?, Operator.lookup_names]

/-- An object that names no attribute is no condition, whatever else it holds. -/
theorem condition_ofJson?_eq_none {members : List (String × Json)}
    (unnamed : members.lookup "attribute" = none) : Condition.ofJson? (.obj members) = none := by
  simp [Condition.ofJson?, Json.form?, unnamed, Json.Offer.required]

theorem clausesAmong?_of_ne {key : String} (h : key ≠ "conditions") (value : Json)
    (rest : List (String × Json)) :
    clausesAmong? ((key, value) :: rest) = clausesAmong? rest := by
  cases value <;> rw [clausesAmong?, if_neg h] <;> simp

theorem clausesAmong?_eq {members : List (String × Json)} {items : List Json}
    (h : members.lookup "conditions" = some (.arr items)) :
    clausesAmong? members = listOfJson? items := by
  induction members with
  | nil => simp at h
  | cons p rest ih =>
    obtain ⟨key, value⟩ := p
    by_cases hkey : key = "conditions"
    · subst hkey
      simp only [List.lookup_cons, beq_self_eq_true, Option.some.injEq] at h
      rw [h, clausesAmong?, if_pos rfl]
    · have hother : ("conditions" == key) = false := by simpa using Ne.symm hkey
      rw [clausesAmong?_of_ne hkey, ih (by simpa only [List.lookup_cons, hother] using h)]

mutual

/-- A clause is read from any of its spellings. -/
theorem ofJson?_of_spelt : {clause : Clause} → {j : Json} → Spelt clause j →
    ofJson? j = some clause
  | _, _, .condition slug operator operand => by
    rw [ofJson?, ofJson?_condition slug operator operand]
  | _, _, .group unnamed operator conditions spelt => by
    simp [ofJson?, condition_ofJson?_eq_none unnamed, combinatorAmong, operator, Combinator.toJson,
      Json.choice?, Combinator.lookup_names, clausesAmong?_eq conditions,
      listOfJson?_of_allSpelt spelt]

theorem listOfJson?_of_allSpelt : {clauses : List Clause} → {items : List Json} →
    AllSpelt clauses items → listOfJson? items = some clauses
  | _, _, .nil => by rw [listOfJson?]
  | _, _, .cons head rest => by
    simp [listOfJson?, ofJson?_of_spelt head, listOfJson?_of_allSpelt rest]

end

/-! ### What is written is a spelling -/

mutual

theorem spelt_toJson : (clause : Clause) → Spelt clause clause.toJson
  | .condition _ => by
    rw [toJson, Condition.toJson]
    exact .condition rfl rfl rfl
  | .group _ clauses => by
    rw [toJson, groupJson]
    exact .group rfl rfl rfl (allSpelt_listJson clauses)

theorem allSpelt_listJson : (clauses : List Clause) → AllSpelt clauses (listJson clauses)
  | [] => by
    rw [listJson]
    exact .nil
  | clause :: rest => by
    rw [listJson]
    exact .cons (spelt_toJson clause) (allSpelt_listJson rest)

end

mutual

/-- The values that the conditions of a clause compare with hold their members in key order. -/
def OperandsInOrder : Clause → Prop
  | .condition c => c.operand.InOrder
  | .group _ clauses => AllInOrder clauses

def AllInOrder : List Clause → Prop
  | [] => True
  | clause :: rest => OperandsInOrder clause ∧ AllInOrder rest

end

mutual

/-- The clause is spelt as well when the members are brought into key order. -/
theorem spelt_ordered_toJson : (clause : Clause) → clause.OperandsInOrder →
    Spelt clause clause.toJson.ordered
  | .condition c, h => by
    rw [toJson, Condition.toJson, Json.ordered]
    have hkeys : (Json.orderedMembers [("attribute", .str c.slug), ("operator", c.operator.toJson),
        ("value", c.operand)]).Pairwise fun p q => p.1 ≠ q.1 := by
      simp [Json.orderedMembers]
    refine .condition ?_ ?_ ?_ <;> rw [lookup_orderKeys hkeys]
    · rfl
    · rfl
    · exact congrArg some (Json.ordered_of_inOrder c.operand h)
  | .group combinator clauses, h => by
    rw [toJson, groupJson, Json.ordered]
    have hkeys : (Json.orderedMembers [("operator", combinator.toJson),
        ("conditions", .arr (listJson clauses))]).Pairwise fun p q => p.1 ≠ q.1 := by
      simp [Json.orderedMembers]
    refine .group ?_ ?_ ?_ (allSpelt_orderedItems clauses h) <;> rw [lookup_orderKeys hkeys]
    · rfl
    · rfl
    · rfl

theorem allSpelt_orderedItems : (clauses : List Clause) → AllInOrder clauses →
    AllSpelt clauses (Json.orderedItems (listJson clauses))
  | [], _ => by
    rw [listJson, Json.orderedItems]
    exact .nil
  | clause :: rest, h => by
    rw [listJson, Json.orderedItems]
    exact .cons (spelt_ordered_toJson clause h.1) (allSpelt_orderedItems rest h.2)

end

/-! ### Operands that are read -/

theorem inOrder_of_condition {j : Json} {c : Condition} (h : j.InOrder)
    (hread : Condition.ofJson? j = some c) : c.operand.InOrder := by
  simp only [Condition.ofJson?, Option.bind_eq_bind, Option.bind_eq_some_iff, Option.pure_def,
    Option.some.injEq] at hread
  obtain ⟨field, hform, slug, -, operator, -, operand, hoperand, rfl⟩ := hread
  cases hvalue : field "value" with
  | value v =>
    rw [hvalue] at hoperand
    cases hoperand
    exact Json.inOrder_of_form? h hform hvalue
  | missing =>
    rw [hvalue] at hoperand
    cases hoperand
    trivial
  | beyond =>
    rw [hvalue] at hoperand
    cases hoperand
    trivial

/-- An array that is not an operator and an array can only be a condition. -/
theorem ofJson?_arr_of_ne {items : List Json}
    (h : ∀ operator clauses, items ≠ [operator, .arr clauses]) :
    ofJson? (.arr items) = (Condition.ofJson? (.arr items)).map .condition := by
  rw [ofJson?]
  · cases Condition.ofJson? (.arr items) <;> rfl
  · exact h

mutual

theorem operandsInOrder_of_ofJson? : (j : Json) → j.InOrder → ∀ {clause : Clause},
    ofJson? j = some clause → clause.OperandsInOrder
  | .obj members, h, clause, hread => by
    rw [ofJson?] at hread
    split at hread
    · cases hread
      exact inOrder_of_condition h ‹_›
    · obtain ⟨combinator, -, hread⟩ := Option.bind_eq_some_iff.mp hread
      obtain ⟨clauses, hclauses, hread⟩ := Option.bind_eq_some_iff.mp hread
      cases hread
      exact allInOrder_of_clausesAmong? members h.2 hclauses
  | .arr [operator, .arr clauses], h, _, hread => by
    rw [ofJson?] at hread
    split at hread
    · cases hread
      exact inOrder_of_condition h ‹_›
    · obtain ⟨combinator, -, hread⟩ := Option.bind_eq_some_iff.mp hread
      obtain ⟨read, hread', hread⟩ := Option.bind_eq_some_iff.mp hread
      cases hread
      exact allInOrder_of_listOfJson? clauses h.2.1 hread'
  | .arr [], h, _, hread | .arr [_], h, _, hread | .arr [_, .null], h, _, hread
  | .arr [_, .bool _], h, _, hread | .arr [_, .int _], h, _, hread
  | .arr [_, .float _], h, _, hread | .arr [_, .str _], h, _, hread
  | .arr [_, .obj _], h, _, hread | .arr (_ :: _ :: _ :: _), h, _, hread => by
    rw [ofJson?_arr_of_ne (by simp)] at hread
    obtain ⟨c, hc, rfl⟩ := Option.map_eq_some_iff.mp hread
    exact inOrder_of_condition h hc
  | .null, _, _, hread | .bool _, _, _, hread | .int _, _, _, hread | .float _, _, _, hread
  | .str _, _, _, hread => by
    simp [ofJson?] at hread

theorem allInOrder_of_clausesAmong? : (members : List (String × Json)) →
    Json.MembersInOrder members → ∀ {clauses : List Clause},
    clausesAmong? members = some clauses → AllInOrder clauses
  | [], _, _, hread => by
    rw [clausesAmong?] at hread
    cases hread
  | (key, value) :: rest, h, clauses, hread => by
    by_cases hkey : key = "conditions"
    · subst hkey
      match value, h with
      | .arr items, h =>
        rw [clausesAmong?, if_pos rfl] at hread
        exact allInOrder_of_listOfJson? items h.1 hread
      | .obj _, _ | .null, _ | .bool _, _ | .int _, _ | .float _, _ | .str _, _ =>
        simp [clausesAmong?] at hread
    · rw [clausesAmong?_of_ne hkey] at hread
      exact allInOrder_of_clausesAmong? rest h.2 hread

theorem allInOrder_of_listOfJson? : (items : List Json) → Json.ItemsInOrder items →
    ∀ {clauses : List Clause}, listOfJson? items = some clauses → AllInOrder clauses
  | [], _, _, hread => by
    rw [listOfJson?] at hread
    cases hread
    trivial
  | j :: rest, h, _, hread => by
    rw [listOfJson?] at hread
    obtain ⟨clause, hclause, hread⟩ := Option.bind_eq_some_iff.mp hread
    obtain ⟨clauses, hclauses, hread⟩ := Option.bind_eq_some_iff.mp hread
    cases hread
    exact ⟨operandsInOrder_of_ofJson? j h.1 hclause, allInOrder_of_listOfJson? rest h.2 hclauses⟩

end

end Clause

/-! ### Filters -/

namespace Filter

def OperandsInOrder (f : Filter) : Prop := Clause.AllInOrder f.clauses

/-- The outermost group is read like any other. -/
theorem ofJson?_of_spelt {f : Filter} {j : Json}
    (h : Clause.Spelt (.group f.combinator f.clauses) j) : ofJson? j = some f := by
  cases h with
  | group unnamed operator conditions spelt =>
    simp [ofJson?, Json.form?, operator, conditions, Json.Offer.required, Json.Offer.orElse,
      Combinator.toJson, Json.choice?, Combinator.lookup_names,
      Clause.listOfJson?_of_allSpelt spelt]

theorem toJson_group (f : Filter) : (Clause.group f.combinator f.clauses).toJson = f.toJson := by
  rw [Clause.toJson, toJson]

theorem ofJson?_toJson (f : Filter) : ofJson? f.toJson = some f :=
  ofJson?_of_spelt (toJson_group f ▸ Clause.spelt_toJson _)

theorem ofJson?_ordered_toJson {f : Filter} (h : f.OperandsInOrder) :
    ofJson? f.toJson.ordered = some f :=
  ofJson?_of_spelt (toJson_group f ▸ Clause.spelt_ordered_toJson _ h)

theorem operandsInOrder_of_ofJson? {j : Json} {f : Filter} (h : j.InOrder)
    (hread : ofJson? j = some f) : f.OperandsInOrder := by
  simp only [ofJson?, Option.bind_eq_bind, Option.bind_eq_some_iff, Option.pure_def,
    Option.some.injEq] at hread
  obtain ⟨field, hform, combinator, -, clauses, hclauses, rfl⟩ := hread
  cases hvalue : field "conditions" with
  | value v =>
    rw [hvalue] at hclauses
    cases v with
    | arr items =>
      exact Clause.allInOrder_of_listOfJson? items (Json.inOrder_of_form? h hform hvalue) hclauses
    | _ => cases hclauses
  | _ =>
    rw [hvalue] at hclauses
    cases hclauses

/-- A filter that is written as JSON, with its members in the order of its fields or of their keys,
is read back as it was. So a filter that was read from anything at all selects the same after it is
written and read once more. -/
theorem read_back :
    (∀ f : Filter, ofJson? f.toJson = some f ∧
      (f.OperandsInOrder → ofJson? f.toJson.ordered = some f)) ∧
    ∀ (j : Json) (f : Filter), ofJson? j = some f →
      ∀ (unknown : UnknownPolicy) (attributes : List Attribute),
        (ofJson? f.toJson).map (fun g => compileFilter unknown attributes (some g)) =
            some (compileFilter unknown attributes (some f)) ∧
          (j.InOrder →
            (ofJson? f.toJson.ordered).map (fun g => compileFilter unknown attributes (some g)) =
              some (compileFilter unknown attributes (some f))) := by
  refine ⟨fun f => ⟨ofJson?_toJson f, ofJson?_ordered_toJson⟩, fun j f hread unknown attributes =>
    ⟨?_, fun h => ?_⟩⟩
  · rw [ofJson?_toJson, Option.map_some]
  · rw [ofJson?_ordered_toJson (operandsInOrder_of_ofJson? h hread), Option.map_some]

/-- A filter given as arrays, with a group that leaves out its operator and a condition that leaves
out its value. -/
theorem read_back_arrays :
    let j := Json.arr [.str "or", .arr [.arr [.str "score", .str "is_empty"],
      .obj [("conditions", .arr [.obj [("attribute", .str "name"), ("operator", .str "equals"),
        ("value", .obj [("a", .int 1), ("b", .null)])]])]]]
    let f : Filter := ⟨.or, [.condition ⟨"score", .isEmpty, .null⟩,
      .group .and [.condition ⟨"name", .equals, .obj [("a", .int 1), ("b", .null)]⟩]]⟩
    ofJson? j = some f ∧ j.InOrder ∧
      (ofJson? f.toJson.ordered).map (fun g => compileFilter .ignore [] (some g)) =
        some (compileFilter .ignore [] (some f)) := by
  intro j f
  have hread : ofJson? j = some f := by rfl
  have horder : j.InOrder := by
    simp only [j, Json.InOrder, Json.ItemsInOrder, Json.MembersInOrder, and_true, true_and]
    decide +kernel
  exact ⟨hread, horder, (read_back.2 j f hread .ignore []).2 horder⟩

end Filter

end RecordStore
