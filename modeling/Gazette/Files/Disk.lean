import Gazette.Files.Error
import Gazette.Files.Path
import Gazette.Store.Schema
import Gazette.Text.Utf8

/-!
# The disk

A disk holds directories and files, each at the place that the names from the root lead to. Paths
are followed part by part: every part but the last must lead to a directory. A relative path
starts at the working directory. It is assumed that there are no links, and that everything may be
read and written.
-/
namespace Gazette.Files
open Gazette.Text

/-- What a file holds. -/
inductive Content
  | text (s : String)
  | octets (bytes : List UInt8)
  /-- A compressed archive, with the names and contents of its entries. -/
  | archive (entries : List (String × String))
  | database (db : Database)
deriving Repr

/-- The text in a file, if it holds text. -/
def Content.text? : Content → Option String
  | text s => some s
  | octets bytes => Utf8.text? bytes
  | archive _ | database _ => none

inductive Node
  | directory
  | file (content : Content)
deriving Repr

/-- The names that lead from the root to a place. -/
abbrev Location := List String

structure Disk where
  entries : List (Location × Node) := []
  workingDirectory : Location := []
deriving Repr

/-- An action on a disk. What it did before it failed stays. -/
abbrev DiskAction (ε α : Type) := ExceptT ε (StateM Disk) α

namespace Disk

/-- What is at a place. The root is a directory. -/
def node? (location : Location) (disk : Disk) : Option Node :=
  if location = [] then some .directory else disk.entries.lookup location

/-- Puts something at a place, instead of what was there. -/
def putEntry (location : Location) (node : Node) :
    List (Location × Node) → List (Location × Node)
  | [] => [(location, node)]
  | (l, n) :: entries =>
    if l = location then (l, node) :: entries else (l, n) :: putEntry location node entries

def put (location : Location) (node : Node) (disk : Disk) : Disk :=
  { disk with entries := putEntry location node disk.entries }

def isDirectoryAt (location : Location) (disk : Disk) : Bool :=
  match disk.node? location with
  | some .directory => true
  | _ => false

/-- Refuses a place that is not a directory. -/
def requireDirectory (location : Location) (disk : Disk) : Except FileError Unit :=
  match disk.node? location with
  | some .directory => .ok ()
  | some (.file _) => .error .notDirectory
  | none => .error .notFound

/-- The greatest number of octets in a name. -/
def nameLimit : Nat := 255

/-- The greatest number of octets in a path. -/
def pathLimit : Nat := 4095

/-- The place that one part of a path leads to from a directory. There may be nothing there. -/
def follow (location : Location) (segment : List Char) (disk : Disk) :
    Except FileError Location := do
  disk.requireDirectory location
  if Path.isTrivial segment then .ok location
  else if segment = ['.', '.'] then .ok location.dropLast
  else
    let name := String.ofList segment
    if nameLimit < name.utf8ByteSize then .error .nameTooLong else .ok (location ++ [name])

/-- The place that several parts lead to. -/
def followAll (disk : Disk) : Location → List (List Char) → Except FileError Location
  | location, [] => .ok location
  | location, segment :: segments => do
    let location ← disk.follow location segment
    followAll disk location segments

/-- The parts of a path, and the place they start from. -/
def start (path : Path) (disk : Disk) : Except FileError (Location × List (List Char)) :=
  if '\x00' ∈ path.chars then .error .nulInPath
  else if pathLimit < path.text.utf8ByteSize then .error .nameTooLong
  else if path.text = "" then .error .notFound
  else .ok (if path.isAbsolute then [] else disk.workingDirectory, Path.segments path.chars)

/-- What a path leads to. -/
def find (path : Path) (disk : Disk) : Except FileError (Location × Node) := do
  let (location, segments) ← disk.start path
  let location ← disk.followAll location segments
  match disk.node? location with
  | some node => .ok (location, node)
  | none => .error .notFound

/-- Whether a path leads to something. Faults other than its absence are reported. -/
def exists? (path : Path) (disk : Disk) : Except FileError Bool :=
  match disk.find path with
  | .ok _ => .ok true
  | .error .notFound => .ok false
  | .error e => .error e

/-- Whether a path leads to something, as far as can be told. -/
def has (path : Path) (disk : Disk) : Bool :=
  match disk.find path with
  | .ok _ => true
  | .error _ => false

def isDirectory (path : Path) (disk : Disk) : Bool :=
  match disk.find path with
  | .ok (_, .directory) => true
  | _ => false

/-- The text of the file that a path leads to. -/
def readText (path : Path) (disk : Disk) : Except FileError String := do
  match ← disk.find path with
  | (_, .directory) => .error .isDirectory
  | (_, .file content) =>
    match content.text? with
    | some s => .ok s
    | none => .error .notText

/-- The directory in which the last name of a path stands, and the parts from that name on. -/
def findLast (path : Path) (disk : Disk) : Except FileError (Location × List (List Char)) := do
  let (location, segments) ← disk.start path
  let (trailing, rest) := segments.reverse.span (· == [])
  match rest with
  | [] => .ok (location, trailing)
  | last :: before =>
    let location ← disk.followAll location before.reverse
    disk.requireDirectory location
    .ok (location, last :: trailing)

def createDirectory (path : Path) (disk : Disk) : Except FileError Disk := do
  match ← disk.findLast path with
  | (_, []) => .error .alreadyExists
  | (location, name :: _) =>
    if name = [] ∨ name = ['.'] ∨ name = ['.', '.'] then .error .alreadyExists
    else
      let target ← disk.follow location name
      match disk.node? target with
      | some _ => .error .alreadyExists
      | none => .ok (disk.put target .directory)

/-- The place of the file that a path leads to, for writing. There may be nothing there yet. -/
def target (path : Path) (disk : Disk) : Except FileError Location := do
  match ← disk.findLast path with
  | (location, [name]) =>
    if name = [] ∨ name = ['.'] ∨ name = ['.', '.'] then .error .isDirectory
    else
      let target ← disk.follow location name
      if disk.isDirectoryAt target then .error .isDirectory else .ok target
  | _ => .error .isDirectory

/-- Writes a file, instead of the one that may be there. -/
def write (path : Path) (content : Content) (disk : Disk) : Except FileError Disk := do
  let location ← disk.target path
  .ok (disk.put location (.file content))

end Disk

namespace DiskAction
variable {ε α : Type}

/-- Finds something out about the disk. -/
def look (f : Disk → Except ε α) : DiskAction ε α := do
  match f (← get) with
  | .ok a => return a
  | .error e => throw e

/-- Finds something out about the disk, and says in which way it can fail. -/
def ask (refuse : FileError → ε) (f : Disk → Except FileError α) : DiskAction ε α :=
  look fun disk => (f disk).mapError refuse

/-- Changes the disk. A change that fails leaves it as it is. -/
def change (refuse : FileError → ε) (f : Disk → Except FileError Disk) : DiskAction ε Unit := do
  set (← ask refuse f)

/-- Creates a directory and those above it, as far as they are missing. `levels` bounds the number
of directories. -/
def createLevels (path : Path) : (levels : Nat) → DiskAction FileError Unit
  | 0 => throw .notFound
  | levels + 1 => do
    if path.text = "" then return
    match (← get).createDirectory path with
    | .ok disk => set disk
    | .error .notFound =>
      match path.parent? with
      | none => throw .notFound
      | some parent => do
        createLevels parent levels
        create path
    | .error e => if (← get).isDirectory path then return else throw e
where
  create (path : Path) : DiskAction FileError Unit := do
    match (← get).createDirectory path with
    | .ok disk => set disk
    | .error e => if (← get).isDirectory path then return else throw e

/-- Creates a directory and those above it, as far as they are missing. -/
def createDirectories (path : Path) : DiskAction FileError Unit :=
  createLevels path (path.text.length + 1)

end DiskAction
end Gazette.Files
