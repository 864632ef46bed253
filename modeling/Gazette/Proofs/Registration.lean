import Gazette.Proofs.Answer
import Gazette.Proofs.Authority

/-!
# Registration

To register, a user is stored first and a session for that user second. Each of these steps is
kept by itself, so that a session that cannot be stored leaves a user behind who never got a token.
This happens iff the session would end later than any that can be stored.
-/
namespace Gazette
open Store

namespace Store
variable {s t u : Store} {id token : String} {expiresAt : Int}

/-- A user was added who is new, with a session under a token. -/
structure Enrolled (token : String) (user : User) (s t : Store) : Prop where
  fresh : s.users.has user.id = false
  users : t.users = s.users ++ [user]
  sessions : ∃ id expiresAt, t.sessions = s.sessions ++ [⟨id, token, user.id, expiresAt⟩]

structure SameMembers (s t : Store) : Prop where
  users : t.users = s.users
  sessions : t.sessions = s.sessions

/-- The courses that a registration can take, with the user that it answers, if it answers one. -/
inductive Registers (id token : String) (expiresAt : Int) (s : Store) : Option User → Store → Prop
  | refused : Registers id token expiresAt s none s
  | enrolled (user : User) : s.users.has user.id = false → expiresAt ≤ lastSecond →
      Registers id token expiresAt s (some user)
        { s with
          users := s.users ++ [user]
          sessions := s.sessions ++ [⟨id, token, user.id, Timestamp.secondText expiresAt⟩] }
  /-- The user is stored, and then the session is refused. -/
  | stranded (user : User) : s.users.has user.id = false → lastSecond < expiresAt →
      Registers id token expiresAt s none { s with users := s.users ++ [user] }

/-- The user that is answered, if one is, was enrolled, and otherwise nothing happened. -/
def Whole (token : String) (answered : Option User) (s t : Store) : Prop :=
  match answered with
  | some user => s.Enrolled token user t
  | none => s.SameMembers t

theorem Registers.whole_iff {answered : Option User}
    (h : s.Registers id token expiresAt answered t) :
    s.Whole token answered t ↔ expiresAt ≤ lastSecond ∨ t.users = s.users := by
  cases h with
  | refused => exact ⟨fun _ => .inr rfl, fun _ => ⟨rfl, rfl⟩⟩
  | enrolled user hfresh hfits => exact ⟨fun _ => .inl hfits, fun _ => ⟨hfresh, rfl, _, _, rfl⟩⟩
  | stranded user hfresh hlate =>
      have hmore : s.users ++ [user] ≠ s.users := by simp
      constructor
      · intro hwhole
        exact absurd hwhole.users hmore
      · rintro (hfits | hsame)
        · exact absurd hlate (Int.not_lt.2 hfits)
        · exact absurd hsame hmore

theorem Registers.enrolled_of_some {user : User}
    (h : s.Registers id token expiresAt (some user) t) : s.Enrolled token user t := by
  cases h with
  | enrolled user hfresh hfits => exact ⟨hfresh, rfl, _, _, rfl⟩

theorem saveUser_new {user saved : User} {now : Timestamp} (hfresh : s.users.has user.id = false)
    (h : (Editor.saveUser user now).outcome s = (.ok saved, u)) :
    s.users.has saved.id = false ∧ u = { s with users := s.users ++ [saved] } := by
  obtain ⟨-, hsave, hsaved⟩ := Editor.saveUser_ok.1 h
  have hid : saved.id = user.id := by
    rw [← hsaved]
    rfl
  have hnew : s.users.has saved.id = false := hid ▸ hfresh
  rw [hsaved] at hsave
  obtain ⟨-, -, rfl⟩ := saveUser_ok.1 hsave
  exact ⟨hnew, by rw [Table.put_of_has_eq_false hnew]⟩

/-- A session under a new token for a stored user is refused iff it would end too late. -/
theorem createSession_new {userId : String} (hours : Nat) (now : Timestamp)
    (hnew : ∀ session ∈ s.sessions, session.id ≠ id ∧ session.token ≠ token)
    (huser : s.users.has userId = true) :
    s.createSession id token userId hours now =
      if expiry now hours ≤ lastSecond then
        .ok { s with sessions :=
          s.sessions ++ [⟨id, token, userId, Timestamp.secondText (expiry now hours)⟩] }
      else .error .noExpiry := by
  split
  · next hfits => exact createSession_ok.2 ⟨hfits, hnew, huser, rfl⟩
  · next hlate => simp [createSession, Int.not_le.1 hlate, bind, Except.bind]

theorem registers_of_saved {saved : User} (hours : Nat) (now : Timestamp)
    (hnew : ∀ session ∈ s.sessions, session.id ≠ id ∧ session.token ≠ token)
    (hfresh : s.users.has saved.id = false) (hu : u = { s with users := s.users ++ [saved] }) :
    (∃ t, u.createSession id token saved.id hours now = .ok t ∧
        s.Registers id token (expiry now hours) (some saved) t) ∨
      u.createSession id token saved.id hours now = .error .noExpiry ∧
        s.Registers id token (expiry now hours) none u := by
  subst hu
  have hstored : Table.has saved.id (s.users ++ [saved]) = true :=
    Table.has_iff.2 ⟨saved, by simp, rfl⟩
  have hcreate := createSession_new (s := { s with users := s.users ++ [saved] })
    hours now hnew hstored
  rw [hcreate]
  split
  · next hfits => exact .inl ⟨_, rfl, .enrolled saved hfresh hfits⟩
  · next hlate => exact .inr ⟨rfl, .stranded saved hfresh (Int.not_le.1 hlate)⟩

end Store

namespace Api
open StoreProcedure Api.Action

variable {s : Store} {context : Context}

/-- A result that tells the user who is answered, and the token. -/
def Tells {ε : Type} (token : String) (answered : Option User) (r : Except ε (User × String)) :
    Prop :=
  match answered with
  | some user => r = .ok (user, token)
  | none => ∃ e, r = .error e

theorem enrol_registers {user : User} (hfresh : s.users.has user.id = false)
    (hnew : ∀ session ∈ s.sessions,
      session.id ≠ context.freshSessionId ∧ session.token ≠ context.freshToken) :
    ∃ answered, s.Registers context.freshSessionId context.freshToken
        (expiry context.now context.sessionHours) answered ((enrol context user).outcome s).2 ∧
      Tells context.freshToken answered ((enrol context user).outcome s).1 := by
  rw [enrol, outcome_bind]
  cases hsave : (edit (Editor.saveUser user context.now)).outcome s with
  | mk r u =>
      cases r with
      | error e =>
          obtain rfl := (Editor.saveUser_atomic _ _).adapt _ s e u hsave
          exact ⟨none, .refused, e, rfl⟩
      | ok saved =>
          obtain ⟨hadded, hu⟩ := saveUser_new hfresh (outcome_adapt_ok.1 hsave)
          dsimp only
          rw [outcome_bind, Action.change, outcome_change]
          rcases registers_of_saved context.sessionHours context.now hnew hadded hu with
            ⟨t, hcreate, hcourse⟩ | ⟨hcreate, hcourse⟩
          · rw [hcreate]
            exact ⟨some saved, hcourse, rfl⟩
          · rw [hcreate]
            exact ⟨none, hcourse, _, rfl⟩

theorem register_registers (context : Context) (caller : Option Caller) (input : Registration)
    (hfresh : s.users.has context.freshId = false)
    (hnew : ∀ session ∈ s.sessions,
      session.id ≠ context.freshSessionId ∧ session.token ≠ context.freshToken) :
    ∃ answered, s.Registers context.freshSessionId context.freshToken
        (expiry context.now context.sessionHours) answered
        ((register context caller input).outcome s).2 ∧
      Tells context.freshToken answered ((register context caller input).outcome s).1 := by
  unfold register
  split
  · rw [outcome_bind]
    show ∃ answered, s.Registers _ _ _ answered (outcome (ensure _ _ >>= _) s).2 ∧
      Tells _ answered (outcome (ensure _ _ >>= _) s).1
    rw [outcome_bind]
    cases hensure : (ensure s.loadSettings.allowRegistrations .forbidden).outcome s with
    | mk r t =>
        obtain rfl := (ensure_reads _ _).eq hensure
        cases r with
        | error e => exact ⟨none, .refused, e, rfl⟩
        | ok u => exact enrol_registers hfresh hnew
  · exact enrol_registers hfresh hnew

namespace Exchange
variable {x : Exchange}

/-- A registration that is answered with a new user and the token of a session that this user has
from then on, or that is answered with an error and leaves users and sessions as they were. -/
def RegistersWhole [Libraries] (x : Exchange) (s : Store) : Prop :=
  (∃ user, s.Enrolled x.freshToken user (x.after s) ∧ (x.answer.run s).1.status = 201 ∧
    (x.answer.run s).1.body =
      .json (.object [("user", user.toJson), ("token", .text x.freshToken)])) ∨
  ¬ x.Succeeds s ∧ s.SameMembers (x.after s)

theorem perform_register [Libraries] (hfresh : s.users.has x.freshId = false)
    (hnew : ∀ session ∈ s.sessions,
      session.id ≠ x.freshSessionId ∧ session.token ≠ x.freshToken) :
    ∃ answered, s.Registers x.freshSessionId x.freshToken (expiry x.now x.site.sessionHours)
        answered ((x.perform .register).outcome s).2 ∧
      match answered with
      | some user => ((x.perform .register).outcome s).1 =
          .ok (.json 201 (.object [("user", user.toJson), ("token", .text x.freshToken)]))
      | none => ∃ e, ((x.perform .register).outcome s).1 = .error e := by
  rw [perform, outcome_bind, outcome_caller?]
  dsimp only
  rw [outcome_bind]
  cases hinput : (x.input Registration).outcome s with
  | mk r t =>
      obtain rfl := (x.input_reads _).eq hinput
      cases r with
      | error e => exact ⟨none, .refused, e, rfl⟩
      | ok input =>
          dsimp only
          rw [created, outcome_bind]
          obtain ⟨answered, hcourse, htells⟩ :=
            register_registers x.context (x.callerIn t) input hfresh hnew
          cases hregister : (register x.context (x.callerIn t) input).outcome t with
          | mk r u =>
              rw [hregister] at hcourse htells
              cases answered with
              | some user =>
                  cases htells
                  exact ⟨some user, hcourse, rfl⟩
              | none =>
                  obtain ⟨e, rfl⟩ : ∃ e, r = .error e := htells
                  exact ⟨none, hcourse, e, rfl⟩

theorem registersWhole_iff [Libraries] (hmethod : x.request.method = .post)
    (hpath : x.request.path = "/api/users") (hfresh : s.users.has x.freshId = false)
    (hnew : ∀ session ∈ s.sessions,
      session.id ≠ x.freshSessionId ∧ session.token ≠ x.freshToken) :
    x.RegistersWhole s ↔
      expiry x.now x.site.sessionHours ≤ lastSecond ∨ (x.after s).users = s.users := by
  have hop : x.operation? = some .register := by
    rw [operation?, resource?, hpath, hmethod]
    decide +kernel
  obtain ⟨hafter, hstatus, hbody⟩ := answer_of_operation hop (by simp [hmethod]) s
  have hfails : ∀ e : ApiError, x.reply s = e.response → ¬ x.Succeeds s := by
    intro e he
    rw [Succeeds, Http.Response.IsSuccess, hstatus, he]
    exact e.not_isSuccess
  have hguarded := guarded_outcome hop s
  -- A request that the guard refuses enrols nobody; any other takes one of the courses.
  cases hguard : (x.guard.outcome s).1 with
  | error e =>
      rw [hguard] at hguarded
      have hsame : x.after s = s := by rw [hafter, hguarded]
      have hfail : ¬ x.Succeeds s := hfails e (by rw [reply, hguarded])
      exact iff_of_true (.inr ⟨hfail, by rw [hsame]; exact ⟨rfl, rfl⟩⟩) (.inr (by rw [hsame]))
  | ok _ =>
      rw [hguard] at hguarded
      dsimp only at hguarded
      obtain ⟨answered, hcourse, htells⟩ := perform_register hfresh hnew
      rw [← hguarded, ← hafter] at hcourse
      rw [← hguarded] at htells
      rw [← hcourse.whole_iff]
      cases answered with
      | some user =>
          have henrolled := hcourse.enrolled_of_some
          have hreply : x.reply s =
              .json 201 (.object [("user", user.toJson), ("token", .text x.freshToken)]) := by
            rw [reply, htells]
          exact iff_of_true (.inl ⟨user, henrolled, hstatus ▸ hreply ▸ rfl, hbody ▸ hreply ▸ rfl⟩)
            henrolled
      | none =>
          obtain ⟨e, he⟩ := htells
          have hfail : ¬ x.Succeeds s := hfails e (by rw [reply, he])
          refine ⟨?_, fun hsame => .inr ⟨hfail, hsame⟩⟩
          rintro (⟨user, -, hcreated, -⟩ | ⟨-, hsame⟩)
          · exact absurd (by rw [Succeeds, Http.Response.IsSuccess, hcreated]; decide) hfail
          · exact hsame

end Exchange
end Api

end Gazette
