import Gazette.Store.Save

/-!
# Sessions

A session lets whoever knows its token act as a user until the session ends. The time is counted
in full seconds. The end of a session is stored as text, and compared as text with the present.
-/
namespace Gazette.Store

/-- The last second of the year 9999. No session can end later. -/
def lastSecond : Int := 253402300799

/-- The second at which a session of some hours ends. -/
def expiry (now : Timestamp) (hours : Nat) : Int :=
  now.seconds + 3600 * hours

/-- Adds a session for a user under a token. -/
def createSession (id token userId : String) (hours : Nat) (now : Timestamp) (s : Store) :
    Except StoreError Store := do
  if lastSecond < expiry now hours then .error .noExpiry
  if s.sessions.any (·.token == token) then .error (.taken .sessionToken)
  if s.sessions.has id then .error (.taken .sessionId)
  requireRows (s.users.has userId)
  .ok { s with sessions :=
    s.sessions ++ [⟨id, token, userId, Timestamp.secondText (expiry now hours)⟩] }

/-- Whether a session goes on. -/
def isLive (now : Timestamp) (session : Session) : Bool :=
  Timestamp.secondText now.seconds < session.expiresAt

/-- Whether a session has ended. -/
def hasEnded (now : Timestamp) (session : Session) : Bool :=
  session.expiresAt ≤ Timestamp.secondText now.seconds

/-- Removes the sessions that have ended, and counts them. -/
def purgeSessions (now : Timestamp) (s : Store) : Nat × Store :=
  (s.sessions.countP (hasEnded now),
    { s with sessions := s.sessions.filter fun session => !hasEnded now session })

/-- The user that a token stands for. -/
def authenticate? (token : String) (now : Timestamp) (s : Store) : Option User := do
  let session ← s.sessions.find? fun session => session.token == token && isLive now session
  s.users.row? session.userId

end Gazette.Store
