import Gazette.Editor
import Gazette.Http.Response

/-!
# Errors of the interface

What a client learns when a request cannot be answered. A request that cannot be read at all is
rejected in plain text; every other error is explained in JSON.
-/
namespace Gazette.Api
open Gazette.Http

/-- Why a request cannot be read. -/
inductive Rejection
  /-- The body is not said to be JSON. -/
  | notJson
  /-- The body is not well-formed JSON. -/
  | malformedBody
  /-- The body does not fit what is asked for. -/
  | mismatchedBody
  /-- A field of the query is given twice. -/
  | repeatedField
  /-- A part of the path is not text. -/
  | invalidParameter (name : String)
deriving DecidableEq, Repr, Inhabited

namespace Rejection

def status : Rejection → Nat
  | notJson => 415
  | mismatchedBody => 422
  | malformedBody | repeatedField | invalidParameter _ => 400

def message : Rejection → String
  | notJson => "Expected request with \x60Content-Type: application/json\x60"
  | malformedBody => "Failed to parse the request body as JSON"
  | mismatchedBody => "Failed to deserialize the JSON body into the target type"
  | repeatedField => "Failed to deserialize query string"
  | invalidParameter name => "Invalid URL: Invalid UTF-8 in \x60" ++ name ++ "\x60"

end Rejection

inductive ApiError
  | notFound
  | unauthorized
  | forbidden
  | badRequest (message : String)
  /-- The store refuses a write because of what it holds already. -/
  | conflict (message : String)
  | unavailable
  | internal
  | rejected (cause : Rejection)
deriving DecidableEq, Repr, Inhabited

namespace ApiError

def status : ApiError → Nat
  | notFound => 404
  | unauthorized => 401
  | forbidden => 403
  | badRequest _ => 400
  | conflict _ => 409
  | unavailable => 503
  | internal => 500
  | rejected cause => cause.status

def message : ApiError → String
  | notFound => "Not found"
  | unauthorized => "Unauthorized"
  | forbidden => "Forbidden"
  | badRequest message => message
  | conflict message => message
  | unavailable => "Site is in maintenance mode"
  | internal => "Internal server error"
  | rejected cause => cause.message

def response (e : ApiError) : Response :=
  match e with
  | rejected _ => .plain e.status e.message
  | _ => .json e.status (.object [("error", .text e.message)])

def ofContent (e : ContentError) : ApiError :=
  badRequest e.message

/-- Errors of the store other than conflicts and missing rows are not shown. -/
def ofStore (e : StoreError) : ApiError :=
  if e.isConstraint then conflict e.message
  else
    match e with
    | .noSuchPost _ => notFound
    | _ => internal

def ofEditor : EditorError → ApiError
  | .content e => ofContent e
  | .store e => ofStore e

end ApiError
end Gazette.Api
