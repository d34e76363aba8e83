import RecordStore.Text.CombiningClass
import RecordStore.Text.Composite

/-!
# Composed text

Normalization form C: characters are taken apart, marks are put into canonical order, and what
forms a primary composite is put together again. Hangul syllables are computed; all else comes from
the tables.
-/

namespace RecordStore.Text

/-! ### Taking apart -/

/-- One step of decomposition by the tables: what a code point stands for, if anything. -/
def decomposeOnce (c : Nat) : Option (List Nat) :=
  if c < 0xC0 then none
  else
    let pair := composites.findSome? fun group =>
      (group.2.find? fun entry => entry.2 == c).map fun entry => [entry.1, group.1]
    let broken := (brokenPairs.find? fun entry => entry.1 == c).map fun entry =>
      [entry.2.1, entry.2.2]
    let single := (substitutes.find? fun entry => entry.1 == c).map fun entry => [entry.2]
    let ideograph := ideographRuns.findSome? fun run =>
      if run.1 ≤ c then (run.2[c - run.1]?).map fun target => [target] else none
    pair <|> broken <|> single <|> ideograph

/-- The canonical decomposition of a code point that is no Hangul syllable. Only the first part is
taken apart further, and never more than three times. -/
def decomposeFrom : Nat → Nat → List Nat
  | 0, c => [c]
  | fuel + 1, c =>
    match decomposeOnce c with
    | some (first :: rest) => decomposeFrom fuel first ++ rest
    | _ => [c]

def decompose (c : Nat) : List Nat :=
  if 0xAC00 ≤ c && c ≤ 0xD7A3 then
    let index := c - 0xAC00
    let lead := 0x1100 + index / 588
    let vowel := 0x1161 + index % 588 / 28
    if index % 28 = 0 then [lead, vowel] else [lead, vowel, 0x11A7 + index % 28]
  else decomposeFrom 4 c

/-! ### Canonical order -/

/-- Puts a code point behind the sequence given last first: before every mark of a higher class. -/
def insertMark (c : Nat) : List Nat → List Nat
  | [] => [c]
  | last :: earlier =>
    if combiningClass c ≠ 0 ∧ combiningClass c < combiningClass last then
      last :: insertMark c earlier
    else c :: last :: earlier

/-- Marks sorted by class between starters; marks of one class keep their order. -/
def orderMarks (cs : List Nat) : List Nat :=
  (cs.foldl (fun done c => insertMark c done) []).reverse

/-! ### Putting together -/

def compose? (first second : Nat) : Option Nat :=
  if second < 0x300 then none
  else if 0x1161 ≤ second && second ≤ 0x1175 && 0x1100 ≤ first && first ≤ 0x1112 then
    some (0xAC00 + ((first - 0x1100) * 21 + (second - 0x1161)) * 28)
  else if 0x11A8 ≤ second && second ≤ 0x11C2 && 0xAC00 ≤ first && first ≤ 0xD7A3 &&
      (first - 0xAC00) % 28 == 0 then
    some (first + (second - 0x11A7))
  else
    composites.findSome? fun group =>
      if group.1 == second then
        (group.2.find? fun entry => entry.1 == first).map fun entry => entry.2
      else none

/-- Composes what follows a starter. `held` are the marks kept since the starter, the last one
first; a mark of the same or a higher class among them blocks the next one. -/
def composeAfter (starter : Nat) (held : List Nat) : List Nat → List Nat
  | [] => starter :: held.reverse
  | c :: rest =>
    let free := held.head?.all fun last => combiningClass last < combiningClass c
    match if free then compose? starter c else none with
    | some composite => composeAfter composite held rest
    | none =>
      if combiningClass c = 0 then starter :: held.reverse ++ composeAfter c [] rest
      else composeAfter starter (c :: held) rest

/-- Composes a sequence in canonical order; marks before the first starter stay as they are. -/
def composeAll : List Nat → List Nat
  | [] => []
  | c :: rest => if combiningClass c = 0 then composeAfter c [] rest else c :: composeAll rest

def composedChars (cs : List Char) : List Char :=
  (composeAll (orderMarks (cs.flatMap fun c => decompose c.toNat))).map Char.ofNat

def composed (s : String) : String := String.ofList (composedChars s.toList)

end RecordStore.Text
