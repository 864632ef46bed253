import Gazette.Json.Writer

/-!
# Template parameters

Parameters bind names to values. They are kept in the order of their names.
-/
namespace Gazette.Scaffold

structure Params where
  entries : List (String × String) := []
deriving DecidableEq, Repr, Inhabited

namespace Params

def get? (params : Params) (name : String) : Option String :=
  params.entries.lookup name

def names (params : Params) : List String :=
  params.entries.map Prod.fst

/-- Binds a name in a list of entries ordered by name. -/
def insertEntry (name value : String) : List (String × String) → List (String × String)
  | [] => [(name, value)]
  | (n, v) :: entries =>
    if name = n then (name, value) :: entries
    else if name < n then (name, value) :: (n, v) :: entries
    else (n, v) :: insertEntry name value entries

/-- Binds a name to a value. An earlier value is forgotten. -/
def insert (params : Params) (name value : String) : Params :=
  ⟨insertEntry name value params.entries⟩

def ofList (pairs : List (String × String)) : Params :=
  pairs.foldl (fun params (name, value) => params.insert name value) {}

/-- Keywords as they stand inside of a JSON list. -/
def keywordList (keywords : List String) : String :=
  String.intercalate ", " (keywords.map fun k => (Json.text k).render)

/-- The parameters given by pairs and keywords. Keywords are bound to the name `keywords`, whatever
the pairs bind it to. -/
def ofPairs (pairs : List (String × String)) (keywords : List String) : Params :=
  let params := ofList pairs
  if keywords.isEmpty then params else params.insert "keywords" (keywordList keywords)

end Params
end Gazette.Scaffold
