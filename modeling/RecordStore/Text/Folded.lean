import RecordStore.Text.Blank
import RecordStore.Text.Composed
import RecordStore.Text.Lower

/-!
# Folded text

The form in which texts are compared: without surrounding white space, composed, in lower case.
-/

namespace RecordStore.Text

def fold (s : String) : String := lower (composed (trim s))

def alike (a b : String) : Bool := fold a == fold b

/-- Whether some characters stand in a row somewhere among others. -/
def occursIn (part : List Char) : List Char → Bool
  | [] => part.isEmpty
  | c :: rest => part.isPrefixOf (c :: rest) || occursIn part rest

theorem occursIn_iff_infix {part cs : List Char} : occursIn part cs = true ↔ part <:+: cs := by
  induction cs with
  | nil => simp [occursIn]
  | cons c rest ih => simp [occursIn, ih, List.infix_cons_iff]

def holds (whole part : String) : Bool := occursIn part.toList whole.toList

theorem holds_iff_infix {whole part : String} :
    holds whole part = true ↔ part.toList <:+: whole.toList := occursIn_iff_infix

end RecordStore.Text
