import Gazette.Files.Path
import Gazette.Text.Percent

/-!
# Paths of databases

The path of a database is that of its file, or an address that starts with `file:`. An address
names the file in percent encoding, and its query can ask for a database in memory. It is assumed
to ask for nothing else: not for less than reading and writing, and for no other kind of files.
-/
namespace Gazette.Program
open Files Text

/-- What the path of a database stands for. -/
structure DatabasePath where
  /-- The host that an address names, or nothing. -/
  host : String
  file : Path
  inMemory : Bool
deriving DecidableEq, Repr

namespace DatabasePath

/-- The host that an address names between two slashes and a third, and what follows it. -/
def splitHost : List Char → List Char × List Char
  | '/' :: '/' :: cs => cs.span (· != '/')
  | cs => ([], cs)

/-- The text that a part of an address stands for. An octet of zero ends it. -/
def decodePart (cs : List Char) : String :=
  Utf8.lossyText ((Percent.decode cs).takeWhile (· != 0))

/-- Whether a query asks for a database in memory. The last mode that is given counts. -/
def asksForMemory (query : List Char) : Bool :=
  let fields := ((split (· == '&') query).filterMap (splitFirst '=')).map fun (name, value) =>
    (decodePart name, decodePart value)
  fields.reverse.lookup "mode" == some "memory"

def ofPath (path : Path) : DatabasePath :=
  match dropInitial "file:".toList path.chars with
  | none => ⟨"", path, false⟩
  | some cs =>
    let (host, cs) := splitHost cs
    let cs := cs.takeWhile (· != '#')
    let (file, query) := (splitFirst '?' cs).getD (cs, [])
    ⟨String.ofList host, ⟨decodePart file⟩, asksForMemory query⟩

/-- Whether the file is on this host. -/
def isLocal (path : DatabasePath) : Bool :=
  path.host == "" || path.host == "localhost"

end DatabasePath

/-- The file that the path of a database leads to. -/
def databaseFile (path : Path) : Path :=
  (DatabasePath.ofPath path).file

/-- Whether a path stands for a database that lasts as long as the run. -/
def isPassing (path : Path) : Bool :=
  let p := DatabasePath.ofPath path
  p.isLocal && (p.inMemory || p.file.text == "" || p.file.text == ":memory:")

example : isPassing ⟨"file::memory:?cache=shared"⟩ = true := by decide +kernel

end Gazette.Program
