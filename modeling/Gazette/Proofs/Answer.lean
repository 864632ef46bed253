import Gazette.Proofs.Request

/-!
# Answers

What a request leaves behind when it runs alone, and what its status says about it. A success
means that the operation was carried out, and nothing but an operation changes the store.
-/
namespace Gazette

def Http.Response.IsSuccess (response : Http.Response) : Prop :=
  200 ≤ response.status ∧ response.status < 300

instance (response : Http.Response) : Decidable response.IsSuccess :=
  inferInstanceAs (Decidable (_ ∧ _))

namespace Api
open StoreProcedure Change Http

@[simp] theorem ApiError.response_status (e : ApiError) : e.response.status = e.status := by
  cases e <;> rfl

theorem ApiError.not_isSuccess (e : ApiError) : ¬ e.response.IsSuccess := by
  rw [Response.IsSuccess, e.response_status]
  cases e with
  | rejected cause => cases cause <;> simp [ApiError.status, Rejection.status]
  | _ => simp [ApiError.status]

/-- No resource offers an operation for the method that asks what is offered. -/
theorem Resource.lookup_options {path : String} {resource : Resource}
    (h : Resource.ofPath? path = some resource) : resource.lookup .options = none := by
  have hparts : ∀ parts, Resource.ofParts? parts = some resource →
      resource.lookup .options = none := by
    intro parts hparts
    unfold Resource.ofParts? at hparts
    split at hparts <;> cases hparts <;> rfl
  unfold Resource.ofPath? at h
  split at h
  · cases h
    rfl
  · split at h
    · split at h
      · cases h
      · exact hparts _ h
    · cases h

namespace Exchange
variable {x : Exchange} {s t : Store} {op : Operation}

def after [Libraries] (x : Exchange) (s : Store) : Store :=
  (x.answer.run s).2

def Succeeds [Libraries] (x : Exchange) (s : Store) : Prop :=
  (x.answer.run s).1.IsSuccess

instance [Libraries] (x : Exchange) (s : Store) : Decidable (x.Succeeds s) :=
  inferInstanceAs (Decidable (x.answer.run s).1.IsSuccess)

def Makes [Libraries] (x : Exchange) (change : Change) : Prop :=
  ∃ op, x.operation? = some op ∧ op.Allows change

/-- The changes that a request may make, none of which saves a comment unless the request is there
for it. -/
def May [Libraries] (x : Exchange) (change : Change) : Prop :=
  ∃ op, x.operation? = some op ∧ op.May change

theorem makes_of_may [Libraries] {change : Change} (h : x.May change) : x.Makes change :=
  h.imp fun _ => And.imp_right Operation.May.toAllows

/-- What a request asks for, unless the guard refuses it. -/
def guarded [Libraries] (x : Exchange) : Action Response := do
  x.guard
  x.unguarded

theorem guard_reads (x : Exchange) : OnlyReads x.guard := by
  unfold guard
  split
  · refine (look_reads _).bind fun maintenance => ?_
    split
    · exact x.caller?_reads.bind fun _ => ensure_reads _ _
    · exact moves_pure _
  · exact moves_pure _

theorem unguarded_asks [Libraries] (x : Exchange) : Asks x.May x.unguarded := by
  unfold unguarded
  split
  · exact asks_pure _
  · exact asks_pure _
  · rename_i op _ hop
    exact (x.perform_asks op).imp fun change hchange => ⟨op, hop, hchange⟩

theorem guarded_asks [Libraries] (x : Exchange) : Asks x.May x.guarded :=
  Asks.after_reads x.guard_reads fun _ => x.unguarded_asks

theorem respond_run (action : Action Response) (s : Store) :
    (respond action).run s =
      (match (action.outcome s).1 with
        | .ok response => response
        | .error e => e.response,
        (action.outcome s).2) := by
  unfold respond
  rw [Procedure.run_bind]
  show (match (action.outcome s).1 with
    | .ok response => (pure response : Procedure Store Response)
    | .error e => pure e.response).run (action.outcome s).2 = _
  cases (action.outcome s).1 <;> rfl

/-- The response to what a request asks for, as far as the store has to do with it. -/
def reply [Libraries] (x : Exchange) (s : Store) : Response :=
  match (x.guarded.outcome s).1 with
  | .ok response => response
  | .error e => e.response

theorem complete_status (x : Exchange) (response : Response) :
    (x.complete response).status = response.status := by
  unfold complete
  dsimp only
  split <;> split <;> rfl

theorem complete_body (h : x.request.method ≠ .head) (response : Response) :
    (x.complete response).body = response.body := by
  unfold complete
  rw [if_neg h]
  dsimp only
  split <;> rfl

theorem allowOrigin_same (x : Exchange) (response : Response) :
    (x.allowOrigin response).status = response.status ∧
      (x.allowOrigin response).body = response.body := by
  unfold allowOrigin
  split
  · split <;> exact ⟨rfl, rfl⟩
  · exact ⟨rfl, rfl⟩

theorem answerSameOrigin_run [Libraries] (x : Exchange) (s : Store) :
    x.answerSameOrigin.run s = (x.complete (x.reply s), (x.guarded.outcome s).2) := by
  unfold answerSameOrigin
  rw [Procedure.run_bind, respond_run]
  rfl

/-- A request is answered without regard to the store, or as the guard and the operation tell. -/
theorem answer_run [Libraries] (x : Exchange) (s : Store) :
    (x.request.method = .options ∧ (x.answer.run s).2 = s ∧ (x.answer.run s).1.status = 200) ∨
      (x.answer.run s).2 = (x.guarded.outcome s).2 ∧
        (x.answer.run s).1.status = (x.reply s).status ∧
        (x.request.method ≠ .head → (x.answer.run s).1.body = (x.reply s).body) := by
  unfold answer
  split
  · rw [answerSameOrigin_run]
    exact .inr ⟨rfl, x.complete_status _, fun h => complete_body h _⟩
  · split
    · rename_i hoptions
      refine .inl ⟨hoptions, rfl, ?_⟩
      exact (x.allowOrigin_same _).1.trans (x.complete_status _)
    · rw [Procedure.run_bind, answerSameOrigin_run]
      obtain ⟨hstatus, hbody⟩ := x.allowOrigin_same (x.complete (x.reply s))
      exact .inr ⟨rfl, hstatus.trans (x.complete_status _),
        fun h => hbody.trans (complete_body h _)⟩

/-- What every change keeps that a request may make, the request keeps. -/
theorem after_keeps_of_may [Libraries] {I : Store → Prop}
    (keep : ∀ change s t, x.May change → change.apply s = .ok t → I s → I t) (h : I s) :
    I (x.after s) := by
  rcases x.answer_run s with ⟨-, hs, -⟩ | ⟨hs, -⟩
  · rw [after, hs]
    exact h
  · rw [after, hs]
    have hmoves : Moves (fun s t => I s → I t) x.guarded := by
      refine x.guarded_asks.moves.imp ?_
      rintro s t (rfl | ⟨change, hchange, happly⟩) hI
      · exact hI
      · exact keep change s t hchange happly hI
    exact Procedure.Steps.run hmoves.steps (fun _ => id) (fun _ _ _ hst htu hI => htu (hst hI)) s h

theorem after_keeps [Libraries] {I : Store → Prop}
    (keep : ∀ change s t, x.Makes change → change.apply s = .ok t → I s → I t) (h : I s) :
    I (x.after s) :=
  after_keeps_of_may (fun change s t hmay => keep change s t (makes_of_may hmay)) h

theorem method_ne_options (h : x.operation? = some op) : x.request.method ≠ .options := by
  intro hoptions
  obtain ⟨resource, hresource, hop⟩ := Option.bind_eq_some_iff.1 h
  rw [hoptions] at hop
  have hnone := Resource.lookup_options hresource
  rw [show resource.lookup .options = some op from hop] at hnone
  cases hnone

section
variable [Libraries]

theorem unguarded_eq (h : x.operation? = some op) : x.unguarded = x.perform op := by
  obtain ⟨resource, hresource, -⟩ := Option.bind_eq_some_iff.1 h
  simp only [unguarded, hresource, h]

/-- A request for an operation is answered as the operation tells, if the guard lets it through. -/
theorem guarded_outcome (h : x.operation? = some op) (s : Store) :
    x.guarded.outcome s =
      match (x.guard.outcome s).1 with
      | .ok _ => (x.perform op).outcome s
      | .error e => (.error e, s) := by
  rw [guarded, unguarded_eq h, outcome_bind]
  cases hguard : x.guard.outcome s with
  | mk r t =>
      obtain rfl := x.guard_reads.eq hguard
      cases r <;> rfl

theorem answer_of_operation (h : x.operation? = some op) (hhead : x.request.method ≠ .head)
    (s : Store) :
    x.after s = (x.guarded.outcome s).2 ∧ (x.answer.run s).1.status = (x.reply s).status ∧
      (x.answer.run s).1.body = (x.reply s).body := by
  rcases x.answer_run s with ⟨hoptions, -⟩ | ⟨hafter, hstatus, hbody⟩
  · exact absurd hoptions (method_ne_options h)
  · exact ⟨hafter, hstatus, hbody hhead⟩

/-- A request succeeds iff its guard lets it through and its operation succeeds. -/
theorem succeeds_iff (h : x.operation? = some op) :
    x.Succeeds s ↔ (∃ u, x.guard.outcome s = (.ok u, s)) ∧
      ∃ response, (x.perform op).outcome s = (.ok response, x.after s) ∧ response.IsSuccess := by
  rcases x.answer_run s with ⟨hoptions, -⟩ | ⟨hafter, hstatus, -⟩
  · exact absurd hoptions (method_ne_options h)
  · rw [Succeeds, Response.IsSuccess, hstatus, after, hafter, ← Response.IsSuccess]
    rw [reply, guarded, unguarded_eq h, outcome_bind]
    cases hguard : x.guard.outcome s with
    | mk r u =>
        obtain rfl := x.guard_reads.eq hguard
        cases r with
        | error e => simp [e.not_isSuccess]
        | ok a =>
            cases hperform : (x.perform op).outcome u with
            | mk r t =>
                cases r with
                | error e => simp [hperform, e.not_isSuccess]
                | ok response => simp [hperform]

/-- A request that does not succeed leaves the store alone if its operation does so whenever it
fails, and if an operation that does not fail is answered with success. -/
theorem after_eq_of_not_succeeds (h : x.operation? = some op)
    (herror : ∀ e t, (x.perform op).outcome s = (.error e, t) → t = s)
    (hok : ∀ response t, (x.perform op).outcome s = (.ok response, t) → response.IsSuccess)
    (hfail : ¬ x.Succeeds s) : x.after s = s := by
  rcases x.answer_run s with ⟨hoptions, -⟩ | ⟨hafter, hstatus, -⟩
  · exact absurd hoptions (method_ne_options h)
  · rw [Succeeds, Response.IsSuccess, hstatus, ← Response.IsSuccess, reply] at hfail
    rw [guarded, unguarded_eq h, outcome_bind] at hfail hafter
    rw [after, hafter]
    cases hguard : x.guard.outcome s with
    | mk r u =>
        obtain rfl := x.guard_reads.eq hguard
        cases r with
        | error e => rfl
        | ok a =>
            cases hperform : (x.perform op).outcome u with
            | mk r t =>
                cases r with
                | error e => simpa [hguard, hperform] using herror e t hperform
                | ok response =>
                    have := hok response t hperform
                    simp [hguard, hperform, this] at hfail

end

end Exchange
end Api
end Gazette
