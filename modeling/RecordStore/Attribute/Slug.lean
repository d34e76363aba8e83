import RecordStore.Error

/-!
# Slugs and names

A slug identifies an object, an attribute or a list in its scope. It is a lower-case letter
followed by lower-case letters, digits and underscores, at most 64 bytes. A name is any text that
is not blank, kept without surrounding white space.
-/

namespace RecordStore

def isSlugHead (c : Char) : Bool := 'a' ≤ c && c ≤ 'z'

def isSlugTail (c : Char) : Bool := isSlugHead c || c.isDigit || c == '_'

def checkSlug (slug : String) : Except Error Unit :=
  match slug.toList with
  | [] => .error (.invalid .slugEmpty)
  | c :: rest =>
    if 64 < slug.utf8ByteSize then .error (.invalid (.slugTooLong slug))
    else if isSlugHead c && rest.all isSlugTail then .ok ()
    else .error (.invalid (.slugShape slug))

/-- A name without surrounding white space; blank text is no name. -/
def requireName (field : NameField) (text : String) : Except Error String :=
  if Text.isBlank text then .error (.invalid (.nameBlank field)) else .ok (Text.trim text)

def changedName (field : NameField) (current : String) : Option String → Except Error String
  | some name => requireName field name
  | none => .ok current

end RecordStore
