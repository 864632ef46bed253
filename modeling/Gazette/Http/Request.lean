import Gazette.Text.Blank
import Gazette.Text.Percent

/-!
# Requests

A request as it arrives. Its target and its headers are assumed to be within the limits beyond which
a request is refused before anything else is read of it.
-/
namespace Gazette.Http
open Gazette.Text

inductive Method
  | get
  | head
  | post
  | put
  | patch
  | delete
  | options
  | other (name : String)
deriving DecidableEq, Repr, Inhabited

namespace Method

def name : Method → String
  | get => "GET"
  | head => "HEAD"
  | post => "POST"
  | put => "PUT"
  | patch => "PATCH"
  | delete => "DELETE"
  | options => "OPTIONS"
  | other name => name

def ofName (s : String) : Method :=
  ([get, head, post, put, patch, delete, options].find? fun m => m.name == s).getD (other s)

/-- Whether a method only reads. -/
def isRead : Method → Bool
  | get | head | options => true
  | _ => false

end Method

structure Request where
  method : Method
  /-- The path as it was sent. -/
  path : String
  /-- What stands after the question mark. -/
  query : String := ""
  /-- Names and values, in the order in which they were sent. -/
  headers : List (String × String) := []
  body : String := ""
deriving DecidableEq, Repr, Inhabited

namespace Request

/-- The path and the query of an address. What stands after a number sign is left out. -/
def splitTarget (target : String) : String × String :=
  let cs := target.toList.takeWhile (· != '#')
  match splitFirst '?' cs with
  | some (path, query) => (String.ofList path, String.ofList query)
  | none => (String.ofList cs, "")

/-- The values of a header, in order. Names are told apart without regard to case. -/
def headerValues (name : String) (request : Request) : List String :=
  request.headers.filterMap fun (n, value) => if n.toLower == name then some value else none

/-- Whether a header value is made of visible ASCII characters, spaces and tabs. -/
def isVisible (value : String) : Bool :=
  value.toList.all fun c => (0x20 ≤ c.toNat && c.toNat < 0x7f) || c == '\t'

/-- The first value of a header, if it is visible. -/
def visibleHeader? (name : String) (request : Request) : Option String :=
  (request.headerValues name).head?.filter isVisible

/-- The token in the `Authorization` header. -/
def bearerToken? (request : Request) : Option String := do
  let value ← request.visibleHeader? "authorization"
  let rest ← dropInitial "Bearer ".toList value.toList
  nonBlank? (String.ofList rest)

/-- The value of a cookie with a name, if the text is such a cookie. -/
def cookieValue? (name : String) (cookie : List Char) : Option String := do
  let (key, value) ← splitFirst '=' (trimChars cookie)
  if String.ofList (trimChars key) = name then some (String.ofList (trimChars value)) else none

/-- The value of the first cookie with a name. -/
def cookie? (name : String) (request : Request) : Option String :=
  (((request.headerValues "cookie").filter isVisible).flatMap fun value =>
    split (· == ';') value.toList).findSome? (cookieValue? name)

/-- The token that a request carries: the one in the `Authorization` header, or else the one in
the session cookie. -/
def token? (cookieName : String) (request : Request) : Option String :=
  request.bearerToken?.or (request.cookie? cookieName)

end Request
end Gazette.Http
