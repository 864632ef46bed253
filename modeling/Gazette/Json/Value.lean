import Gazette.Json.Token

/-!
# JSON values
-/
namespace Gazette

inductive Json
  | null
  | bool (value : Bool)
  | number (n : Json.Number)
  | text (s : String)
  | array (items : List Json)
  | object (members : List (String × Json))
deriving Repr, Inhabited

namespace Json

def int (i : Int) : Json :=
  .number (.ofInt i)

def ofOption (f : α → Json) : Option α → Json
  | none => .null
  | some a => f a

/-- The member of an object with a given key; of several, the last. -/
def get? (key : String) : Json → Option Json
  | .object members => members.reverse.lookup key
  | _ => none

end Json
end Gazette
