import DebugSymbols.Dictionary
import DebugSymbols.Xml.OpenFile

/-!
# Files

The files that the program can see, and how a path leads to one of them. A path is followed step by
step: every step but the last has to be a directory that is there, even if a later `..` leads out of
it again. A path that ends in a slash or in a step without a name leads to a directory.
-/

namespace DebugSymbols.CommandLine

/-- Why a file cannot be read or created. -/
inductive FileError
  | notFound
  | isDirectory
  /-- A step through a file, or a slash behind one. -/
  | notDirectory
  /-- A path or a name in it is too long. -/
  | nameTooLong
  /-- A NUL character in a path. -/
  | nulInPath
  /-- The content is no UTF-8 text. -/
  | invalidText
deriving DecidableEq, Repr

/-! ## Locations -/

/-- The directory at which a location starts. -/
inductive Start
  | root
  /-- So many levels above the current directory. -/
  | above (levels : Nat)
deriving DecidableEq, Repr

/-- The place of a file or a directory: the names that lead to it. -/
structure Location where
  start : Start
  names : List String
deriving DecidableEq, Repr

namespace Location

/-- The directory that a path starts from. -/
def startOf (path : String) : Location :=
  if path.startsWith "/" then ⟨.root, []⟩ else ⟨.above 0, []⟩

/-- The directory around a location; the root is its own. -/
def up : Location → Location
  | ⟨.root, names⟩ => ⟨.root, names.dropLast⟩
  | ⟨.above levels, []⟩ => ⟨.above (levels + 1), []⟩
  | ⟨.above levels, names⟩ => ⟨.above levels, names.dropLast⟩

/-- A name in a directory. -/
def down (location : Location) (name : String) : Location :=
  { location with names := location.names ++ [name] }

/-- A step of a path, whether or not there is anything. -/
def step (location : Location) (step : String) : Location :=
  if step = "." then location
  else if step = ".." then location.up
  else location.down step

/-- The steps of a path. -/
def steps (path : String) : List String := (path.splitOn "/").filter (· ≠ "")

/-- The location that a path leads to, whether or not there is anything on the way. -/
def ofPath (path : String) : Location := (steps path).foldl step (startOf path)

/-- Whether a location lies within a directory, at any depth. -/
def isWithin (location directory : Location) : Bool :=
  location.start == directory.start && directory.names.isPrefixOf location.names &&
    directory.names.length < location.names.length

/-- The longest name, in bytes. -/
def maxNameLength : Nat := 255

/-- Whether the name of a location is too long. -/
def isTooLong (location : Location) : Bool :=
  location.names.getLast?.any fun name => maxNameLength < name.utf8ByteSize

end Location

/-! ## File systems -/

/-- Files and directories. -/
structure FileSystem where
  files : Dictionary Location ByteArray
  /-- Directories that may be without files. The current directory and those above it are there
  anyway. -/
  directories : List Location
  /-- Which of the writes to a new file fail. -/
  faults : Nat → Option Xml.WriteFault

/-- What there is at a location. -/
inductive Content
  | directory
  | file (bytes : ByteArray)

/-- Where a path leads: to a directory that is there, or to a name in such a directory. -/
inductive Target
  | directory
  | entry (location : Location)

namespace FileSystem

/-- Files in the current directory, by their paths, where every write succeeds. -/
def ofFiles (files : List (String × ByteArray)) : FileSystem where
  files := Dictionary.ofList (files.map fun (path, bytes) => (Location.ofPath path, bytes))
  directories := []
  faults _ := none

/-- The files in the current directory and below, by their paths. -/
def listing (system : FileSystem) : List (String × ByteArray) :=
  system.files.entries.filterMap fun (location, bytes) =>
    if location.start = .above 0 then some ("/".intercalate location.names, bytes) else none

/-- Whether there is a directory at a location. Around everything that is there, there are
directories. -/
def isDirectory (system : FileSystem) (location : Location) : Bool :=
  location.names.isEmpty || system.directories.contains location ||
    (system.directories ++ system.files.keys).any fun entry => entry.isWithin location

/-- What there is at a location. -/
def find (system : FileSystem) (location : Location) : Except FileError Content :=
  if location.isTooLong then .error .nameTooLong
  else if system.isDirectory location then .ok .directory
  else
    match system.files.get? location with
    | some bytes => .ok (.file bytes)
    | none => .error .notFound

/-- Takes a step of a path that has to lead to a directory. -/
def enter (system : FileSystem) (location : Location) (step : String) :
    Except FileError Location := do
  let next := location.step step
  match ← system.find next with
  | .directory => return next
  | .file _ => .error .notDirectory

/-- The length at which a path is too long, in bytes. -/
def pathLimit : Nat := 4096

/-- Follows a path up to its last step. -/
def target (system : FileSystem) (path : String) : Except FileError Target := do
  if path.contains '\x00' then .error .nulInPath
  if pathLimit ≤ path.utf8ByteSize then .error .nameTooLong
  let steps := Location.steps path
  let around ← steps.dropLast.foldlM system.enter (Location.startOf path)
  match steps.getLast? with
  | none | some "." | some ".." => return .directory
  | some name => return .entry (around.down name)

/-- The bytes of a file. -/
def read (system : FileSystem) (path : String) : Except FileError ByteArray := do
  match ← system.target path with
  | .directory => .error .isDirectory
  | .entry location =>
    match ← system.find location with
    | .directory => .error .isDirectory
    | .file bytes => if path.endsWith "/" then .error .notDirectory else return bytes

/-- The text of a file. -/
def readText (system : FileSystem) (path : String) : Except FileError String := do
  let bytes ← system.read path
  match String.fromUTF8? bytes with
  | some text => .ok text
  | none => .error .invalidText

/-- The location at which a path has a file or can get one. -/
def place (system : FileSystem) (path : String) : Except FileError Location := do
  match ← system.target path with
  | .directory => .error .isDirectory
  | .entry location =>
    if path.endsWith "/" then .error .isDirectory
    else
      match system.find location with
      | .ok .directory => .error .isDirectory
      | .ok (.file _) | .error .notFound => return location
      | .error error => .error error

/-- Gives a file a content, creating it if need be. -/
def write (system : FileSystem) (location : Location) (bytes : ByteArray) : FileSystem :=
  { system with files := system.files.insert location bytes }

/-- Removes a file. The directory around it stays. -/
def remove (system : FileSystem) (location : Location) : FileSystem :=
  { system with
    files := system.files.erase location
    directories := location.up :: system.directories }

end FileSystem

end DebugSymbols.CommandLine
