import Gazette.Api.Input
import Gazette.Api.Reading
import Gazette.Store.Delete

/-!
# Membership

Users, their sessions, and the settings of the site.
-/
namespace Gazette.Api
open Api.Action

/-- Stores a user and then a session for that user, and answers its token. The user stays, whatever
becomes of the session. -/
def enrol (context : Context) (user : User) : Action (User × String) := do
  let user ← edit (Editor.saveUser user context.now)
  change fun s =>
    (s.createSession context.freshSessionId context.freshToken user.id context.sessionHours
      context.now).map fun s => ((), s)
  return (user, context.freshToken)

/-- Adds a user. Unless the settings allow everyone to register, only admins can. -/
def register (context : Context) (caller : Option Caller) (input : Registration) :
    Action (User × String) := do
  if !isAdmin caller then
    let settings ← look Store.loadSettings
    ensure settings.allowRegistrations .forbidden
  enrol context {
    id := context.freshId
    username := input.username
    email := input.email
    bio := input.bio
    isAdmin := isAdmin caller && input.isAdmin
    dateJoined := context.now
    updatedAt := context.now }

def updateProfile (context : Context) (caller : Caller) (input : ProfileChange) :
    Action User := do
  let user ← readUser caller.id
  edit (Editor.saveUser (input.apply user) context.now)

def deleteUser (caller : Caller) (id : String) : Action Unit := do
  requireAdmin caller
  let existed ← change (Store.deleteUser id)
  ensure existed .notFound

def updateSettings (context : Context) (caller : Caller) (input : SettingsInput) :
    Action SiteSettings := do
  requireAdmin caller
  let settings ← look Store.loadSettings
  edit (Editor.saveSettings (input.apply settings) context.now)

end Gazette.Api
