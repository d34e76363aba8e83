import RecordStore.Query.Filter

/-!
# Text search

A search looks for a folded text in the text-bearing values of a row: texts, sets of texts, and the
parts of names and locations.
-/

namespace RecordStore

/-- A search for a folded text among the values of some attributes. -/
structure Search where
  needle : String
  attributeIds : List Id
deriving DecidableEq

def searchedMembers : List String :=
  ["fullName", "firstName", "lastName", "line1", "line2", "city", "state", "postcode", "country"]

def jsonMentions (needle : String) : Json → Bool
  | .str s => Text.holds (Text.fold s) needle
  | _ => false

def Cell.mentions (needle : String) : Cell → Bool
  | .text s => Text.holds (Text.fold s) needle
  | .structured (.arr items) => items.any (jsonMentions needle)
  | .structured (.obj members) =>
    searchedMembers.any fun name => (members.lookup name).any (jsonMentions needle)
  | _ => false

namespace Search

def accepts (search : Search) (cells : Cells) : Bool :=
  search.attributeIds.any fun id => (cells id).any (Cell.mentions search.needle)

end Search

def compileSearch (attributes : List Attribute) (text : Option String) : Option Search := do
  let needle := Text.fold (← text)
  if needle.isEmpty then none
  else some ⟨needle, (attributes.filter fun a => a.type.isSearchable).map (·.id)⟩

end RecordStore
