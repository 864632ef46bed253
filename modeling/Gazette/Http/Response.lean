import Gazette.Json.Value

/-!
# Responses
-/
namespace Gazette.Http

inductive Body
  | empty
  | json (value : Json)
  | text (content : String)
deriving Repr, Inhabited

structure Response where
  status : Nat
  headers : List (String × String) := []
  body : Body := .empty
deriving Repr, Inhabited

namespace Response

def json (status : Nat) (value : Json) : Response where
  status := status
  headers := [("content-type", "application/json")]
  body := .json value

def plain (status : Nat) (content : String) : Response where
  status := status
  headers := [("content-type", "text/plain; charset=utf-8")]
  body := .text content

def page (content : String) : Response where
  status := 200
  headers := [("content-type", "text/html; charset=utf-8")]
  body := .text content

def empty (status : Nat) : Response where
  status := status

/-- The same response without its body. -/
def withoutBody (response : Response) : Response :=
  { response with body := .empty }

def header? (name : String) (response : Response) : Option String :=
  response.headers.lookup name

/-- The response with one more header. -/
def addHeader (name value : String) (response : Response) : Response :=
  { response with headers := response.headers ++ [(name, value)] }

end Response
end Gazette.Http
