import RecordStore.Config.Basic
import RecordStore.Text.Percent

/-!
# Data files

Where a configured path leads. The path becomes the address of a data file: bytes may be spelled
with percent signs, and what follows a question mark are settings. In a data directory that holds
its configuration and nothing else the file must come to lie in the directory itself or in one
above it, for no other directory is made.
-/

namespace RecordStore

/-! ### Paths -/

def cutAt (mark : Char) : List Char → List (List Char)
  | [] => [[]]
  | c :: rest =>
    match cutAt mark rest with
    | [] => [[c]]
    | part :: parts => if c = mark then [] :: part :: parts else (c :: part) :: parts

/-- Takes one part of a path, given the steps so far, the last one first: an empty part and `.` lead
nowhere, and `..` leads back. -/
def takeStep (steps : List String) (part : List Char) : List String :=
  if part = [] ∨ part = ['.'] then steps
  else if part = ['.', '.'] then steps.tail
  else String.ofList part :: steps

def pathSteps (path : String) : List String :=
  ((cutAt '/' path.toList).foldl takeStep []).reverse

/-! ### Addresses -/

/-- The address of a data file: the path with the setting that the file is made if it is missing. -/
def fileAddress (path : String) : List Char := path.toList ++ "?mode=rwc".toList

def addressPath (address : List Char) : String := String.ofList (address.takeWhile (· ≠ '?'))

def addressSettings (address : List Char) : List (String × String) :=
  let parts := cutAt '&' ((address.dropWhile (· ≠ '?')).drop 1)
  (parts.filter (· ≠ [])).map fun part =>
    (String.ofList (part.takeWhile (· ≠ '=')), String.ofList ((part.dropWhile (· ≠ '=')).drop 1))

def settingValues? : String → Option (List String)
  | "mode" => some ["ro", "rw", "rwc", "memory"]
  | "cache" => some ["private", "shared"]
  | "immutable" => some ["true", "1", "false", "0"]
  | _ => none

def checkSetting (setting : String × String) : Except Error Unit :=
  if setting.1 = "vfs" then .ok ()
  else
    match settingValues? setting.1 with
    | none => .error (.storage (.unknownSetting setting.1))
    | some values =>
      require (setting.2 ∈ values) (.storage (.unknownSettingValue setting.1 setting.2))

def checkFileSystem (settings : List (String × String)) : Except Error Unit :=
  match settings.lookup "vfs" with
  | some name => .error (.storage (.unknownFileSystem name))
  | none => .ok ()

/-! ### Opening -/

def configFileName : String := "tabula.json"

/-- Makes or opens the file that the steps lead to, in a data directory that holds its configuration
and nothing else. -/
def reachFile (directory target : List String) : Except Error Unit :=
  if target.isPrefixOf directory then .error (.storage .cannotOpen)
  else if target = directory ++ [configFileName] then .error (.storage .notADatabase)
  else require (target.dropLast.isPrefixOf directory) (.storage .cannotOpen)

/-- Opens the data file of a configuration for a data directory, and tells whether it is the usual
one. -/
def Config.openDataFile (c : Config) (directory : String) : Except Error Bool := do
  let address := fileAddress (← c.dataPath directory)
  match Text.unpercented? (addressPath address) with
  | none => .error (.storage .malformedPath)
  | some path =>
    let settings := addressSettings address
    settings.forM checkSetting
    require (Char.ofNat 0 ∉ path.toList) (.storage .nulInPath)
    checkFileSystem settings
    let target := pathSteps path
    reachFile (pathSteps directory) target
    return target = pathSteps (defaultDataPath directory)

end RecordStore
