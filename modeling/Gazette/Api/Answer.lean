import Gazette.Api.Exchange

/-!
# Answers

Every request gets an answer. While the site is in maintenance mode, only admins may do more than
read. Pages of other origins may call the interface if their origin is listed.
-/
namespace Gazette.Api
open Gazette.Http

namespace Exchange
variable [Libraries]

/-- The resource that the request is about. -/
def resource? (x : Exchange) : Option Resource :=
  Resource.ofPath? x.request.path

/-- The operation that the request asks for. -/
def operation? (x : Exchange) : Option Operation :=
  x.resource?.bind (Resource.operation? x.request.method)

/-- Carries out what the request asks for, in whatever mode the site is. -/
def unguarded (x : Exchange) : Action Response :=
  match x.resource?, x.operation? with
  | none, _ => return .empty 404
  | some _, none => return .empty 405
  | some _, some operation => x.perform operation

/-- Refuses to go on in maintenance mode if the request would do more than read and does not come
from an admin. -/
def guard (x : Exchange) : Action Unit := do
  if !x.request.method.isRead then
    if ← Action.look Store.maintenanceMode then
      let caller ← x.caller?
      Action.ensure (isAdmin caller) .unavailable

/-- The response of an action, be it an error. -/
def respond (action : Action Response) : Procedure Store Response := do
  match ← action.run with
  | .ok response => return response
  | .error e => return e.response

/-- The response within the site: without a body if only the head was asked for, and with the
methods that are allowed if another was used. -/
def complete (x : Exchange) (response : Response) : Response :=
  let response := if x.request.method = .head then response.withoutBody else response
  match x.resource?, x.operation? with
  | some resource, none => response.addHeader "allow" resource.allow
  | _, _ => response

/-- The headers of a request on which the response depends if pages of other origins may call. -/
def varyHeader : String × String :=
  ("vary", "origin, access-control-request-method, access-control-request-headers")

/-- The header that allows a listed origin to see the response. -/
def allowOrigin (x : Exchange) (response : Response) : Response :=
  let response := response.addHeader varyHeader.1 varyHeader.2
  match (x.request.headerValues "origin").head? with
  | some origin =>
    if x.site.origins.contains origin then
      response.addHeader "access-control-allow-origin" origin
    else response
  | none => response

/-- What a page of another origin learns before it calls the interface. -/
def preflight : Response where
  status := 200
  headers :=
    [("access-control-allow-methods", "GET,POST,PUT,PATCH,DELETE"),
      ("access-control-allow-headers", "authorization,content-type")]

/-- The response to a request, for pages of the same origin. -/
def answerSameOrigin (x : Exchange) : Procedure Store Response := do
  let response ← respond do
    x.guard
    x.unguarded
  return x.complete response

def answer (x : Exchange) : Procedure Store Response :=
  if x.site.origins.isEmpty then x.answerSameOrigin
  else if x.request.method = .options then return x.allowOrigin (x.complete preflight)
  else do return x.allowOrigin (← x.answerSameOrigin)

end Exchange
end Gazette.Api
