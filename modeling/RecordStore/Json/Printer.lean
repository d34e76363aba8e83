import RecordStore.Json
import RecordStore.Number.Layout
import RecordStore.Text.Hex

/-!
# JSON text

The compact text of a value, without blanks, and the indented text, with two blanks a level. Only
quotes, backslashes and control characters are escaped.
-/

namespace RecordStore.Json

def escapeChar (c : Char) : List Char :=
  if c = '"' then ['\\', '"']
  else if c = '\\' then ['\\', '\\']
  else if c = '\n' then ['\\', 'n']
  else if c = '\t' then ['\\', 't']
  else if c = '\r' then ['\\', 'r']
  else if c.toNat = 8 then ['\\', 'b']
  else if c.toNat = 12 then ['\\', 'f']
  else if c.toNat < 0x20 then
    ['\\', 'u', '0', '0', Text.hexDigit (c.toNat / 16), Text.hexDigit (c.toNat % 16)]
  else [c]

def quote (s : String) : List Char := '"' :: (s.toList.flatMap escapeChar ++ ['"'])

def intChars (n : Int) : List Char :=
  if n < 0 then '-' :: Nat.toDigits 10 n.natAbs else Nat.toDigits 10 n.natAbs

/-- The text of a value that is neither array nor object; those have their own layout. -/
def scalarChars : Json → List Char
  | .null => ['n', 'u', 'l', 'l']
  | .bool true => ['t', 'r', 'u', 'e']
  | .bool false => ['f', 'a', 'l', 's', 'e']
  | .int n => intChars n
  | .float d => d.jsonChars
  | .str s => quote s
  | .arr _ | .obj _ => []

/-! ### Compact text -/

mutual

def chars : Json → List Char
  | .arr items => '[' :: itemsChars items
  | .obj members => '{' :: membersChars members
  | scalar => scalarChars scalar

def itemsChars : List Json → List Char
  | [] => [']']
  | item :: rest => chars item ++ moreItemsChars rest

def moreItemsChars : List Json → List Char
  | [] => [']']
  | item :: rest => ',' :: (chars item ++ moreItemsChars rest)

def membersChars : List (String × Json) → List Char
  | [] => ['}']
  | (key, value) :: rest => quote key ++ ':' :: (chars value ++ moreMembersChars rest)

def moreMembersChars : List (String × Json) → List Char
  | [] => ['}']
  | (key, value) :: rest => ',' :: (quote key ++ ':' :: (chars value ++ moreMembersChars rest))

end

def text (j : Json) : String := String.ofList j.chars

/-! ### Indented text -/

def newline (level : Nat) : List Char := '\n' :: List.replicate (2 * level) ' '

mutual

def indentedChars (level : Nat) : Json → List Char
  | .arr [] => ['[', ']']
  | .arr (item :: rest) =>
    '[' :: (newline (level + 1) ++ indentedChars (level + 1) item ++ moreIndentedItems level rest)
  | .obj [] => ['{', '}']
  | .obj ((key, value) :: rest) =>
    '{' :: (newline (level + 1) ++ quote key ++ ':' :: ' ' :: indentedChars (level + 1) value ++
      moreIndentedMembers level rest)
  | scalar => scalarChars scalar

def moreIndentedItems (level : Nat) : List Json → List Char
  | [] => newline level ++ [']']
  | item :: rest =>
    ',' :: (newline (level + 1) ++ indentedChars (level + 1) item ++ moreIndentedItems level rest)

def moreIndentedMembers (level : Nat) : List (String × Json) → List Char
  | [] => newline level ++ ['}']
  | (key, value) :: rest =>
    ',' :: (newline (level + 1) ++ quote key ++ ':' :: ' ' :: indentedChars (level + 1) value ++
      moreIndentedMembers level rest)

end

def indentedText (j : Json) : String := String.ofList (indentedChars 0 j)

end RecordStore.Json
