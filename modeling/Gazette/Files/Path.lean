import Gazette.Text.Split

/-!
# Paths

A path is a text whose parts stand between slashes. A path that starts with a slash is absolute.
Parts that are empty or a single dot do not count, except for a dot at the very start of a
relative path.
-/
namespace Gazette.Files
open Gazette.Text

structure Path where
  text : String
deriving DecidableEq, Repr, Inhabited

namespace Path

inductive Component
  | root
  | current
  | parent
  | name (s : String)
deriving DecidableEq, Repr

def chars (p : Path) : List Char :=
  p.text.toList

def isAbsolute (p : Path) : Bool :=
  p.chars.head? == some '/'

/-- The parts between slashes, whatever they are. -/
def segments (cs : List Char) : List (List Char) :=
  split (· == '/') cs

/-- Whether a part does not count. -/
def isTrivial (segment : List Char) : Bool :=
  segment == [] || segment == ['.']

def component (segment : List Char) : Component :=
  if segment = ['.', '.'] then .parent else .name (String.ofList segment)

/-- What a path starts with before its parts: a slash, a dot, or nothing. -/
def start (cs : List Char) : List Char × List Char :=
  match cs with
  | '/' :: rest => (['/'], rest)
  | ['.'] => (['.'], [])
  | '.' :: '/' :: rest => (['.'], '/' :: rest)
  | cs => ([], cs)

def startComponent : List Char → List Component
  | '/' :: _ => [.root]
  | '.' :: _ => [.current]
  | _ => []

/-- The parts of a path that count. -/
def components (p : Path) : List Component :=
  let (start, body) := start p.chars
  startComponent start ++
    ((segments body).filter fun segment => !isTrivial segment).map component

/-- The path that leads to `q` from the place where `p` leads. -/
def join (p q : Path) : Path :=
  if q.isAbsolute then q
  else if p.text = "" || p.chars.getLast? == some '/' then ⟨p.text ++ q.text⟩
  else ⟨p.text ++ "/" ++ q.text⟩

/-- The path without its last part that counts, if it has one besides a leading slash. -/
def parent? (p : Path) : Option Path :=
  let (start, body) := start p.chars
  let keep := fun (parts : List (List Char)) => parts.dropWhile isTrivial
  match keep (segments body).reverse with
  | _ :: rest => some ⟨String.ofList (start ++ List.intercalate ['/'] (keep rest).reverse)⟩
  | [] => if start = ['.'] then some ⟨""⟩ else none

/-- The name of the file or directory that a path leads to. -/
def fileName? (p : Path) : Option String :=
  match p.components.getLast? with
  | some (.name s) => some s
  | _ => none

/-- What stands after the last dot of a file name. A dot at the start of a name does not count. -/
def extension? (p : Path) : Option String :=
  p.fileName?.bind fun name =>
    match (split (· == '.') name.toList).reverse with
    | last :: _ :: [] => if name.toList.head? = some '.' then none else some (String.ofList last)
    | last :: _ :: _ :: _ => some (String.ofList last)
    | _ => none

/-- The names of a path, without everything else. -/
def names (p : Path) : List String :=
  p.components.filterMap fun
    | .name s => some s
    | _ => none

/-- Whether a path leads from every directory to a place inside of it. -/
def isInside (p : Path) : Bool :=
  p.text != "" && p.components.all fun
    | .name _ | .current => true
    | .root | .parent => false

end Path
end Gazette.Files
