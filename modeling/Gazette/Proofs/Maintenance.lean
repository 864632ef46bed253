import Gazette.Proofs.Access
import Gazette.Proofs.Sessions

/-!
# Maintenance

The guard stands before everything that a site offers, and before what it does not offer. While the
mode is on it refuses whoever would do more than read and is no admin. To everyone else it is as if
it were not there.
-/
namespace Gazette
open StoreProcedure Http

namespace Api.Exchange
variable {x : Exchange} {s : Store} {p q : Action Response}

def answerBy (x : Exchange) (action : Action Response) : Procedure Store Response :=
  let response : Procedure Store Response := do return x.complete (← respond action)
  if x.site.origins.isEmpty then response
  else if x.request.method = .options then return x.allowOrigin (x.complete preflight)
  else do return x.allowOrigin (← response)

theorem answer_eq [Libraries] (x : Exchange) : x.answer = x.answerBy x.guarded := rfl

/-- The response to a request on a site without the guard. -/
def unguardedAnswer [Libraries] (x : Exchange) : Procedure Store Response :=
  x.answerBy x.unguarded

theorem answerBy_congr (h : p.outcome s = q.outcome s) :
    (x.answerBy p).run s = (x.answerBy q).run s := by
  have hrespond : (respond p).run s = (respond q).run s := by
    rw [respond_run, respond_run, h]
  unfold answerBy
  split
  · rw [Procedure.run_bind, Procedure.run_bind, hrespond]
  · split
    · rfl
    · rw [Procedure.run_bind, Procedure.run_bind, Procedure.run_bind, Procedure.run_bind, hrespond]

theorem answer_of_passes [Libraries] (h : x.Passes s) :
    x.answer.run s = x.unguardedAnswer.run s := by
  rw [answer_eq]
  exact answerBy_congr (outcome_then (outcome_guard h) fun _ => x.unguarded)

/-- Where the guard refuses a request, nothing changes, whatever the request asks for. -/
theorem answer_of_not_passes [Libraries] (h : ¬ x.Passes s) :
    (x.answer.run s).1.status = 503 ∧ (x.answer.run s).2 = s := by
  have hguarded : x.guarded.outcome s = (.error .unavailable, s) := by
    rw [guarded, outcome_bind, outcome_guard_error h]
  rcases x.answer_run s with ⟨hoptions, -⟩ | ⟨hafter, hstatus, -⟩
  · refine absurd (.inl ?_) h
    rw [hoptions]
    rfl
  · rw [hafter, hstatus, reply, hguarded]
    exact ⟨rfl, rfl⟩

/-- Whether a request carries the token of a session that goes on and belongs to an admin. -/
def IsFromAdmin (x : Exchange) (s : Store) : Prop :=
  ∃ session ∈ s.sessions, x.request.token? x.site.cookieName = some session.token ∧
    Store.isLive x.now session = true ∧
      ∃ user ∈ s.users, user.id = session.userId ∧ user.isAdmin = true

instance (x : Exchange) (s : Store) : Decidable (x.IsFromAdmin s) :=
  inferInstanceAs (Decidable (∃ session ∈ s.sessions, _ ∧ _ ∧ ∃ user ∈ s.users, _))

theorem isAdmin_callerIn_iff (hs : s.Sound) :
    isAdmin (x.callerIn s) = true ↔ x.IsFromAdmin s := by
  cases htoken : x.request.token? x.site.cookieName with
  | none => simp [IsFromAdmin, callerIn, htoken, isAdmin]
  | some token =>
      rw [isAdmin, Option.any_eq_true]
      constructor
      · rintro ⟨caller, hcaller, hadmin⟩
        obtain ⟨session, hsession, rfl, hlive, user, hrow, rfl⟩ :=
          (Event.callerIn_eq_some hs htoken).1 hcaller
        exact ⟨session, hsession, htoken, hlive, user, Table.mem_of_row? hrow,
          Table.key_of_row? hrow, hadmin⟩
      · rintro ⟨session, hsession, hcarried, hlive, user, huser, hid, hadmin⟩
        have hrow : s.users.row? session.userId = some user :=
          (Table.row?_eq_some_iff hs.user_ids).2 ⟨huser, hid⟩
        have hsame : session.token = token := Option.some.inj (hcarried.symm.trans htoken)
        exact ⟨_, (Event.callerIn_eq_some hs htoken).2
          ⟨session, hsession, hsame, hlive, user, hrow, rfl⟩, hadmin⟩

theorem isRead_iff (method : Method) :
    method.isRead = true ↔ method ∈ [Method.get, .head, .options] := by
  cases method <;> simp [Method.isRead]

theorem passes_iff_isFromAdmin (hs : s.Sound) :
    x.Passes s ↔ s.maintenanceMode = false ∨ x.request.method ∈ [Method.get, .head, .options] ∨
      x.IsFromAdmin s := by
  rw [Passes, isRead_iff, isAdmin_callerIn_iff hs]
  tauto

end Api.Exchange

namespace Call
variable {s : Store}

/-- The guard keeps out exactly those who may not pass. In maintenance mode a request that would do
more than read and does not come from an admin is refused, and the store stays as it is. Any other
request is answered and changes the store as if there were no guard. -/
theorem maintenance_guards [Libraries] (calls : List Call) (x : Api.Exchange) :
    ((run calls Database.fresh.store).maintenanceMode = true →
      x.request.method ∉ [Method.get, .head, .options] →
      ¬ x.IsFromAdmin (run calls Database.fresh.store) →
      (x.answer.run (run calls Database.fresh.store)).1.status = 503 ∧
        (x.answer.run (run calls Database.fresh.store)).2 = run calls Database.fresh.store) ∧
    ((run calls Database.fresh.store).maintenanceMode = false ∨
        x.request.method ∈ [Method.get, .head, .options] ∨
        x.IsFromAdmin (run calls Database.fresh.store) →
      x.answer.run (run calls Database.fresh.store) =
        x.unguardedAnswer.run (run calls Database.fresh.store)) := by
  have hs : (run calls Database.fresh.store).Sound := run_keeps_sound calls Database.sound_fresh
  constructor
  · intro hmode hmethod hadmin
    refine Api.Exchange.answer_of_not_passes fun hpasses => ?_
    rcases (Api.Exchange.passes_iff_isFromAdmin hs).1 hpasses with hoff | hread | hfrom
    · rw [hmode] at hoff
      cases hoff
    · exact hmethod hread
    · exact hadmin hfrom
  · intro h
    exact Api.Exchange.answer_of_passes ((Api.Exchange.passes_iff_isFromAdmin hs).2 h)

end Call

attribute [local instance] Libraries.bare

namespace Sample

def closed : List Call :=
  start ++ [.direct (.saveSettings { maintenanceMode := true })]

def news : Api.Exchange :=
  request 5 "g1" .post "/api/tags" "\x7b\"name\":\"News\"\x7d"

def anonymous (x : Api.Exchange) : Api.Exchange :=
  { x with request := { x.request with headers := [("content-type", "application/json")] } }

end Sample

/-- In maintenance mode a stranger gets no tag and an admin does. A stranger may still read, and
without the mode everything is as if there were no guard. -/
theorem Call.maintenance_guards_closed :
    ((Sample.anonymous Sample.news).answer.run (run Sample.closed Database.fresh.store)).1.status =
      503 ∧
    Sample.news.answer.run (run Sample.closed Database.fresh.store) =
      Sample.news.unguardedAnswer.run (run Sample.closed Database.fresh.store) ∧
    (Sample.news.unguardedAnswer.run (run Sample.closed Database.fresh.store)).1.status = 201 ∧
    (Sample.anonymous (Sample.request 5 "x" .get "/api/tags" "")).answer.run
        (run Sample.closed Database.fresh.store) =
      (Sample.anonymous (Sample.request 5 "x" .get "/api/tags" "")).unguardedAnswer.run
        (run Sample.closed Database.fresh.store) ∧
    (Sample.anonymous Sample.news).answer.run (run Sample.start Database.fresh.store) =
      (Sample.anonymous Sample.news).unguardedAnswer.run
        (run Sample.start Database.fresh.store) := by
  have hstranger := maintenance_guards Sample.closed (Sample.anonymous Sample.news)
  have hadmin := maintenance_guards Sample.closed Sample.news
  have hreader := maintenance_guards Sample.closed
    (Sample.anonymous (Sample.request 5 "x" .get "/api/tags" ""))
  have hopen := maintenance_guards Sample.start (Sample.anonymous Sample.news)
  refine ⟨?_, hadmin.2 (by decide +kernel), by decide +kernel, hreader.2 (by decide +kernel),
    hopen.2 (by decide +kernel)⟩
  exact (hstranger.1 (by decide +kernel) (by decide +kernel) (by decide +kernel)).1

end Gazette
