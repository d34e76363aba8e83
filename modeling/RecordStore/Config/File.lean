import RecordStore.Config.Basic
import RecordStore.Exchange.Basic
import RecordStore.Json.Reader

/-!
# Configuration files

A configuration is written as JSON. A data directory without a configuration file gets one, in
which the usual data file is named; one that is there is read and left alone. A field that is given
twice spoils a file; what a file holds beside the fields does not matter, as long as it is JSON.
-/

namespace RecordStore

/-! ### Parts -/

namespace Backend

def toJson : Backend → Json
  | .sqlite path => .obj [("backend", .str "sqlite"), ("path", Json.orNull .str path)]
  | .postgres url => .obj [("backend", .str "postgres"), ("url", .str url)]
  | .mysql url => .obj [("backend", .str "mysql"), ("url", .str url)]

def dataFields : String → List String
  | "sqlite" => ["path"]
  | "postgres" | "mysql" => ["url"]
  | _ => []

def ofNamed? (name : String) (data : Json) : Option Backend := do
  let field ← data.form? (dataFields name)
  match name with
  | "sqlite" => return .sqlite (← (field "path").optional Json.str?)
  | "postgres" => return .postgres (← (field "url").required Json.str?)
  | "mysql" => return .mysql (← (field "url").required Json.str?)
  | _ => none

def ofJson? : Json → Option Backend
  | .obj members => do
    let name ← (members.lookup "backend").bind Json.str?
    ofNamed? name (.obj members)
  | .arr (.str name :: data) => ofNamed? name (.arr data)
  | _ => none

def nestingLimit : Nat := 126

/-- The description of a backend as a file spells it. All of it must have a value; an object gives
the name and each field of the data at most once. -/
def ofWritten? (w : Json.Written) : Option Json := do
  let j ← w.value? nestingLimit
  match w, (j.member? "backend").bind Json.str? with
  | .obj members, some name =>
    if ("backend" :: dataFields name).all fun key => members.countP (·.1 == some key) ≤ 1 then
      some j
    else none
  | _, _ => some j

end Backend

namespace PoolLimits

def fields : List String :=
  ["max_connections", "min_connections", "connect_timeout_ms", "acquire_timeout_ms",
    "idle_timeout_ms"]

def toJson (p : PoolLimits) : Json :=
  .obj [("max_connections", Json.orNull Json.word32 p.maxConnections),
    ("min_connections", Json.orNull Json.word32 p.minConnections),
    ("connect_timeout_ms", Json.orNull Json.word64 p.connectTimeout),
    ("acquire_timeout_ms", Json.orNull Json.word64 p.acquireTimeout),
    ("idle_timeout_ms", Json.orNull Json.word64 p.idleTimeout)]

def ofJson? (j : Json) : Option PoolLimits := do
  let field ← j.form? fields
  return {
    maxConnections := ← (field "max_connections").optional Json.word32?
    minConnections := ← (field "min_connections").optional Json.word32?
    connectTimeout := ← (field "connect_timeout_ms").optional Json.word64?
    acquireTimeout := ← (field "acquire_timeout_ms").optional Json.word64?
    idleTimeout := ← (field "idle_timeout_ms").optional Json.word64? }

end PoolLimits

namespace PageLimits

def fields : List String := ["default_page_size", "max_page_size"]

def toJson (l : PageLimits) : Json :=
  .obj [("default_page_size", Json.orNull Json.word32 l.defaultSize),
    ("max_page_size", Json.orNull Json.word32 l.maxSize)]

def ofJson? (j : Json) : Option PageLimits := do
  let field ← j.form? fields
  return {
    defaultSize := ← (field "default_page_size").optional Json.word32?
    maxSize := ← (field "max_page_size").optional Json.word32? }

end PageLimits

/-! ### The whole -/

namespace Config

def toJson (c : Config) : Json :=
  .obj [("database", c.backend.toJson), ("pool", Json.orNull PoolLimits.toJson c.pool),
    ("limits", Json.orNull PageLimits.toJson c.pages),
    ("unknown_filter_attributes", Json.orNull UnknownPolicy.toJson c.unknown),
    ("failpoints", Json.orNull (Json.list .str) c.failpoints)]

def fields : List Json.Written.Field :=
  let plain (names : List String) := names.map fun name => (name, Json.Written.plain?)
  [("database", Backend.ofWritten?), ("pool", Json.Written.record? (plain PoolLimits.fields)),
    ("limits", Json.Written.record? (plain PageLimits.fields)),
    ("unknown_filter_attributes", Json.Written.choice?),
    ("failpoints", Json.Written.plainItems?)]

def ofJson? (j : Json) : Option Config := do
  let field ← j.form? (fields.map Prod.fst)
  return {
    backend := ← (field "database").required Backend.ofJson?
    pool := ← (field "pool").optional PoolLimits.ofJson?
    pages := ← (field "limits").optional PageLimits.ofJson?
    unknown := ← (field "unknown_filter_attributes").optional (Json.choice? UnknownPolicy.names)
    failpoints := ← (field "failpoints").optional (Json.list? Json.str?) }

def parse (text : String) : Except Error Config :=
  match ((Json.Written.parse? text).bind (Json.Written.record? fields)).bind ofJson? with
  | some c => .ok c
  | none => .error (.invalid .malformedConfig)

def fileText (c : Config) : String := c.toJson.indentedText

/-- The configuration of a data directory, given the text of its file if there is one, and the text
of the file afterwards. -/
def load (directory : String) : Option String → Except Error (Config × String)
  | some text => (parse text).map fun c => (c, text)
  | none =>
    let c := ofDataFile (defaultDataPath directory)
    .ok (c, c.fileText)

end Config

end RecordStore
