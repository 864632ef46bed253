import Gazette.Api.Error
import Gazette.Store.Procedure
import Gazette.Store.Sessions

/-!
# Actions

An action is what the interface does for a caller: a procedure on the store that may end in an
error. Each look-up and each save is one step.
-/
namespace Gazette.Api

abbrev Action (α : Type) := StoreProcedure ApiError α

/-- What an action may use besides its input: the present, and ids and a token that are not in use
yet. -/
structure Context where
  now : Timestamp
  freshId : String
  freshSessionId : String
  freshToken : String
  /-- How long a new session lasts. -/
  sessionHours : Nat
deriving DecidableEq, Repr, Inhabited

/-- Somebody who is known by a live session. -/
structure Caller where
  id : String
  username : String
  isAdmin : Bool
deriving DecidableEq, Repr, Inhabited

namespace Caller

def ofUser (user : User) : Caller where
  id := user.id
  username := user.username
  isAdmin := user.isAdmin

/-- Admins may act on anything, and everyone else on what they own. -/
def mayModify (caller : Caller) (ownerId : String) : Bool :=
  caller.isAdmin || caller.id == ownerId

end Caller

/-- Whether somebody is an admin. An unknown caller is not. -/
def isAdmin (caller : Option Caller) : Bool :=
  caller.any (·.isAdmin)

/-- Whether somebody may see what is hidden from others but its owner. -/
def maySeeHidden (caller : Option Caller) (ownerId : String) : Bool :=
  caller.any (·.mayModify ownerId)

namespace Action

def look {α : Type} (f : Store → α) : Action α :=
  StoreProcedure.read f

/-- Looks something up that the store may be unable to read. -/
def lookOr {α : Type} (f : Store → Except StoreError α) : Action α :=
  StoreProcedure.readOr .ofStore f

def change {α : Type} (f : Store → Except StoreError (α × Store)) : Action α :=
  StoreProcedure.change .ofStore f

/-- Lets the editor take something in. -/
def edit {α : Type} (p : Editor.Edit α) : Action α :=
  ExceptT.adapt .ofEditor p

/-- Goes on with what was found. -/
def found {α : Type} : Option α → Action α
  | some a => return a
  | none => throw .notFound

def ensure (holds : Bool) (otherwise : ApiError) : Action Unit :=
  if holds then return else throw otherwise

def requireAdmin (caller : Caller) : Action Unit :=
  ensure caller.isAdmin .forbidden

end Action
end Gazette.Api
