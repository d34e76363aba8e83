import RecordStore.Store.Context

/-!
# Configuration

Where the data is kept, how large pages are, and how queries treat unknown attributes.
-/

namespace RecordStore

inductive Backend where
  /-- A file; without a path it has its usual name. -/
  | sqlite (path : Option String)
  | postgres (url : String)
  | mysql (url : String)
deriving DecidableEq

structure PoolLimits where
  maxConnections : Option UInt32
  minConnections : Option UInt32
  /-- Milliseconds, as the other times. -/
  connectTimeout : Option UInt64
  acquireTimeout : Option UInt64
  idleTimeout : Option UInt64
deriving DecidableEq

structure PageLimits where
  defaultSize : Option UInt32
  maxSize : Option UInt32
deriving DecidableEq

structure Config where
  backend : Backend
  pool : Option PoolLimits
  pages : Option PageLimits
  unknown : Option UnknownPolicy
  failpoints : Option (List String)
deriving DecidableEq

namespace Backend

def name : Backend → String
  | .sqlite _ => "sqlite"
  | .postgres _ => "postgres"
  | .mysql _ => "mysql"

def url? : Backend → Option String
  | .sqlite _ => none
  | .postgres url | .mysql url => some url

end Backend

def PageLimits.usual : PageLimits := ⟨some 50, some 200⟩

def dataFileName : String := "tabula.sqlite"

/-- A path under a directory; a path from the root stands for itself. One slash joins the two,
unless the directory is empty or ends with one. -/
def joinPath (directory path : String) : String :=
  if path.toList.head? = some '/' then path
  else if directory.isEmpty ∨ directory.toList.getLast? = some '/' then directory ++ path
  else directory ++ "/" ++ path

def defaultDataPath (directory : String) : String := joinPath directory dataFileName

namespace Config

def ofDataFile (path : String) : Config :=
  ⟨.sqlite (some path), none, some .usual, some .ignore, none⟩

/-- The largest page: at least one item. -/
def maxPageSize (c : Config) : Nat := max ((c.pages.getD .usual).maxSize.getD 200).toNat 1

/-- The size of a page where none is asked for: never more than the largest page. -/
def defaultPageSize (c : Config) : Nat :=
  min ((c.pages.getD .usual).defaultSize.getD 50).toNat c.maxPageSize

theorem one_le_maxPageSize (c : Config) : 1 ≤ c.maxPageSize := Nat.le_max_right _ _

theorem defaultPageSize_le (c : Config) : c.defaultPageSize ≤ c.maxPageSize := Nat.min_le_right _ _

def dataPath (c : Config) (directory : String) : Except Error String :=
  match c.backend with
  | .sqlite path => .ok (joinPath directory (path.getD dataFileName))
  | _ => .error (.invalid .notAFile)

def setup (c : Config) : Setup :=
  ⟨c.defaultPageSize, c.maxPageSize, c.unknown.getD .ignore, c.failpoints.getD []⟩

end Config

end RecordStore
