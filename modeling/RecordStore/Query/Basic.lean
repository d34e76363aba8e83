import RecordStore.Query.Search
import RecordStore.Query.Sort

/-!
# Queries

A query selects the rows of a listing by a filter and a search, sorts them and takes a window.
-/

namespace RecordStore

structure Query where
  limit : Option Nat
  offset : Nat
  filter : Option Filter
  sorts : List SortSpec
  search : Option String

namespace Query

def default : Query := ⟨none, 0, none, [], none⟩

instance : Inhabited Query := ⟨default⟩

def window (q : Query) (defaultSize maxSize : Nat) : Nat := min (q.limit.getD defaultSize) maxSize

end Query

structure CompiledQuery where
  matcher : Matcher
  search : Option Search
  keys : List SortKey

namespace CompiledQuery

def accepts (q : CompiledQuery) (row : Row) : Bool :=
  q.matcher.accepts row.cells && q.search.all fun s => s.accepts row.cells

/-- The attributes whose values filter, sorts and search ask for. -/
def referenced (q : CompiledQuery) : List Id :=
  q.matcher.attributeIds ++ sortedAttributeIds q.keys ++
    (q.search.map Search.attributeIds).getD []

def needed (q : CompiledQuery) (attributes : List Attribute) : List Attribute :=
  attributes.filter fun a => q.referenced.contains a.id

def select (q : CompiledQuery) (rows : List Row) : List Row :=
  sortRows q.keys (rows.filter q.accepts)

end CompiledQuery

def compileQuery (unknown : UnknownPolicy) (attributes : List Attribute) (q : Query) :
    Except Error CompiledQuery := do
  let matcher ← compileFilter unknown attributes q.filter
  let search := compileSearch attributes q.search
  let keys ← compileSorts unknown attributes q.sorts
  return ⟨matcher, search, keys⟩

theorem exists_sortKeys_of_compileQuery {unknown : UnknownPolicy} {attributes : List Attribute}
    {q : Query} {compiled : CompiledQuery}
    (h : compileQuery unknown attributes q = .ok compiled) :
    ∃ named, sortKeys unknown attributes q.sorts = .ok named ∧
      compiled.keys = if named = [] then [⟨.createdAt, .descending⟩] else named := by
  obtain ⟨matcher, -, h⟩ := bind_eq_ok_iff.mp h
  obtain ⟨keys, hkeys, h⟩ := bind_eq_ok_iff.mp h
  cases h
  exact compileSorts_eq_ok_iff.mp hkeys

end RecordStore
