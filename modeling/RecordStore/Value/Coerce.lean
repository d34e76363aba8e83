import RecordStore.Number.Reading
import RecordStore.Value.Basic

/-!
# Coercions

What a JSON value means where a text, a number, a truth value or an id is wanted. Numbers may be
given as text, truth values as the words for them in any case.
-/

namespace RecordStore

def expectString (slug : String) : Json → Except Error String
  | .str s => .ok s
  | other => .error (.invalid (.stringExpected slug other))

theorem eq_str_of_expectString {slug s : String} {raw : Json} (h : expectString slug raw = .ok s) :
    raw = .str s := by
  cases raw <;> cases h
  rfl

def numberOrText? : Json → Option Double
  | .str s => Double.ofText? (Text.trim s).toList
  | other => other.number?

/-- A number, a text that spells one, or an object with such an amount. -/
def coerceNumber (slug : String) (raw : Json) : Except Error Double :=
  let number := match raw with
    | .obj members => (members.lookup "amount").bind numberOrText?
    | other => numberOrText? other
  match number with
  | some d => .ok d
  | none => .error (.invalid (.numberExpected slug raw))

theorem numberOrText?_of_number? {j : Json} {d : Double} (h : j.number? = some d) :
    numberOrText? j = some d := by
  cases j with
  | str s => cases h
  | null | bool | int | float | arr | obj =>
    rw [numberOrText?]
    · exact h
    · simp

theorem coerceNumber_of_numberOrText? (slug : String) {j : Json} {d : Double}
    (h : numberOrText? j = some d) : coerceNumber slug j = .ok d := by
  rw [coerceNumber]
  · split
    · rename_i e he
      rw [Option.some.inj (he.symm.trans h)]
    · rename_i hnone
      cases hnone.symm.trans h
  · rintro members rfl
    cases h

theorem coerceNumber_of_number? (slug : String) {j : Json} {d : Double} (h : j.number? = some d) :
    coerceNumber slug j = .ok d :=
  coerceNumber_of_numberOrText? slug (numberOrText?_of_number? h)

def asciiLower (s : String) : List Char := s.toList.map Char.toLower

def coerceBool (slug : String) : Json → Except Error Bool
  | .bool b => .ok b
  | .str s =>
    if asciiLower s = ['t', 'r', 'u', 'e'] then .ok true
    else if asciiLower s = ['f', 'a', 'l', 's', 'e'] then .ok false
    else .error (.invalid (.booleanExpected slug (.str s)))
  | other => .error (.invalid (.booleanExpected slug other))

def coerceId (slug : String) (raw : Json) : Except Error Id := do
  let text ← expectString slug raw
  match Id.ofTrimmed? text with
  | some id => .ok id
  | none => .error (.invalid (.notAnId slug text))

theorem coerceId_text (slug : String) (id : Id) : coerceId slug (.str id.text) = .ok id := by
  refine bind_eq_ok_iff.mpr ⟨id.text, rfl, ?_⟩
  rw [Id.ofTrimmed?_text]

end RecordStore
