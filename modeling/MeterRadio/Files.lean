/-
Module: MeterRadio.Files
Purpose: Paths, and the files and devices that a run can reach by them.
Main exports: Files.components, Files.samePath, Files, Files.walk, Files.create, Files.open?
-/
import MeterRadio.Bytes
import MeterRadio.Fault

namespace MeterRadio

/-- Where a file or a directory is: the names on the way to it from the root. -/
abbrev Location := List String

/-- The files there are, each with its contents. -/
structure Files where
  /-- The working directory, where relative paths start. -/
  directory : Location
  entries : List (Location × Bytes)
deriving Repr, DecidableEq

namespace Files

/-! ### Paths -/

/-- The pieces of a path between its slashes, empty ones left out. -/
def pieces (path : String) : List String :=
  ((path.splitOn "/").filter fun piece => piece != "")

/-- The components of a path: the root if it starts there, and the names on the way. A dot counts
only at the start of a relative path. -/
def components (path : String) : List String :=
  if path.startsWith "/" then "/" :: (pieces path).filter (· != ".")
  else
    match pieces path with
    | [] => []
    | first :: rest => first :: rest.filter (· != ".")

/-- Whether two paths are written alike, but for repeated and closing slashes and dots. -/
def samePath (a b : String) : Bool := components a == components b

/-- Bytes that a name can have. -/
def longestName : Nat := 255

/-- Bytes that a path can have. -/
def longestPath : Nat := 4095

/-! ### What is there -/

/-- A device. -/
inductive Device where
  /-- Takes everything and holds nothing. -/
  | null
  /-- Takes everything and never ends. -/
  | zero
  /-- Has no room and never ends. -/
  | full
  /-- The standard output. -/
  | output
deriving Repr, DecidableEq

/-- The device of a name. The standard input is empty, and nothing is written to the error output
but what the program shows there. -/
def Device.ofName? (name : String) : Option Device :=
  if name = "null" ∨ name = "stdin" ∨ name = "stderr" then some .null
  else if name = "zero" then some .zero
  else if name = "full" then some .full
  else if name = "stdout" then some .output
  else none

/-- What stands at a location. -/
inductive Node where
  | directory
  | file (contents : Bytes)
  | device (device : Device)
deriving Repr, DecidableEq

/-- The directory of the devices. -/
def devices : Location := ["dev"]

/-- The directories at the root of a system. -/
def rootDirectories : List String :=
  ["bin", "boot", "dev", "etc", "home", "lib", "media", "mnt", "opt", "proc", "root", "run",
   "sbin", "srv", "sys", "tmp", "usr", "var"]

/-- Whether a directory stands at a location: one at the root, or one on the way to the working
directory. -/
def isDirectory (f : Files) (location : Location) : Bool :=
  location.isPrefixOf f.directory
    || match location with
      | [name] => rootDirectories.contains name
      | _ => false

/-- What stands at a location, if anything does. -/
def node? (f : Files) (location : Location) : Option Node :=
  match f.entries.lookup location with
  | some contents => some (.file contents)
  | none =>
    if f.isDirectory location then some .directory
    else if location.take 1 = devices then
      match location.drop 1 with
      | [name] => (Device.ofName? name).map .device
      | _ => none
    else none

/-- The contents of a file of the working directory. -/
def contents? (f : Files) (name : String) : Option Bytes :=
  f.entries.lookup (f.directory ++ [name])

/-- The files of a working directory. -/
def inDirectory (directory : Location) (files : List (String × Bytes)) : Files :=
  ⟨directory, files.map fun file => (directory ++ [file.1], file.2)⟩

/-- Gives a file new contents. -/
def put (f : Files) (location : Location) (contents : Bytes) : Files :=
  { f with entries := (location, contents) :: f.entries.filter (fun e => e.1 != location) }

/-! ### Walking a path -/

/-- The location that a piece of a path leads to. Pieces lead on from directories only. -/
def step (f : Files) (location : Location) (piece : String) : Except Fault Location :=
  match f.node? location with
  | none => .error .notFound
  | some .directory =>
    if piece = "." then .ok location
    else if piece = ".." then .ok location.dropLast
    else if longestName < piece.utf8ByteSize then .error .nameTooLong
    else .ok (location ++ [piece])
  | some _ => .error .notADirectory

/-- The location that pieces of a path lead to. -/
def walk (f : Files) (path : String) (pieces : List String) : Except Fault Location :=
  if path.isEmpty then .error .notFound
  else if longestPath < path.utf8ByteSize then .error .nameTooLong
  else pieces.foldlM f.step (if path.startsWith "/" then [] else f.directory)

/-! ### Opening -/

/-- An open file that is written to. -/
inductive Target where
  | file (location : Location)
  | device (device : Device)
deriving Repr, DecidableEq

/-- Opens what is at a location for writing. An existing file loses its contents. -/
def createAt (f : Files) (location : Location) : Except Fault (Target × Files) :=
  match f.node? location with
  | some .directory => .error .isADirectory
  | some (.device device) => .ok (.device device, f)
  | _ => .ok (.file location, f.put location [])

/-- Opens a file for writing. A slash at the end asks for a directory, which cannot be
written. -/
def create (f : Files) (path : String) : Except Fault (Target × Files) := do
  let way := pieces path
  let parent ← f.walk path way.dropLast
  match way.getLast? with
  | none => throw .isADirectory
  | some name =>
    let plain := name != "." && name != ".."
    if plain && path.endsWith "/" && f.node? parent == some .directory then throw .isADirectory
    f.createAt (← f.step parent name)

/-- The length that a directory has as a file. -/
def directoryLength : Nat := 4096

/-- What an open file brings: bytes up to its end, no end at all, or the fault of every read. -/
inductive Contents where
  | bytes (bytes : Bytes)
  | endless
  | fault (fault : Fault)
deriving Repr, DecidableEq

/-- What reading a device brings. -/
def Device.contents : Device → Contents
  | .null => .bytes []
  | .zero => .endless
  | .full => .endless
  | .output => .bytes []

/-- Opens a file for reading: its length, and what it brings. -/
def open? (f : Files) (path : String) : Except Fault (Nat × Contents) := do
  match f.node? (← f.walk path (pieces path)) with
  | none => throw .notFound
  | some .directory => pure (directoryLength, .fault .isADirectory)
  | some (.file bytes) =>
    if path.endsWith "/" then throw .notADirectory else pure (bytes.length, .bytes bytes)
  | some (.device device) =>
    if path.endsWith "/" then throw .notADirectory else pure (0, device.contents)

/-! ### Writing -/

/-- The fault of every write to an open file. -/
def Target.fault : Target → Option Fault
  | .device .full => some .noSpace
  | _ => none

/-- Stores what was written. -/
def store (f : Files) (target : Target) (contents : Bytes) : Files :=
  match target with
  | .file location => f.put location contents
  | .device _ => f

/-- The bytes of a file after a write at a position: they replace what is there. -/
def overwritten (contents : Bytes) (position : Nat) (bytes : Bytes) : Bytes :=
  contents.take position ++ bytes ++ contents.drop (position + bytes.length)

end Files
end MeterRadio
