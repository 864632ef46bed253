import Gazette.Proofs.Answer

/-!
# Calls

Everything that can be asked for, with arbitrary arguments: the changes that the store itself
offers, what may be submitted to the editor, and requests. A run is any list of calls, whether they
succeed or fail.
-/
namespace Gazette
open StoreProcedure

/-- What may be submitted to the editor. -/
inductive Submission
  | user (user : User) (now : Timestamp)
  | category (category : Category)
  | tag (tag : Tag)
  | post (post : Post) (now : Timestamp)
  | comment (comment : Comment) (now : Timestamp)
  | message (message : ContactMessage)
  | settings (settings : SiteSettings) (now : Timestamp)

namespace Submission

/-- What the editor comes to and the store that it leaves. The thing that was saved is not part of
it. -/
def outcome [Libraries] (submission : Submission) (s : Store) : Except EditorError Unit × Store :=
  match submission with
  | .user u now => unnamed ((Editor.saveUser u now).outcome s)
  | .category c => unnamed ((Editor.saveCategory c).outcome s)
  | .tag g => unnamed ((Editor.saveTag g).outcome s)
  | .post p now => unnamed ((Editor.savePost p now).outcome s)
  | .comment c now => unnamed ((Editor.saveComment c now).outcome s)
  | .message m => unnamed ((Editor.saveMessage m).outcome s)
  | .settings x now => unnamed ((Editor.saveSettings x now).outcome s)
where
  unnamed {α : Type} (result : Except EditorError α × Store) : Except EditorError Unit × Store :=
    (result.1.map fun _ => (), result.2)

def after [Libraries] (submission : Submission) (s : Store) : Store :=
  (submission.outcome s).2

/-- The change that the editor asks for, if the submission keeps the rules of content. -/
def change? [Libraries] (submission : Submission) : Except ContentError Change :=
  match submission with
  | .user u now => u.trimmed.validate.map fun _ => .saveUser { u.trimmed with updatedAt := now }
  | .category c => c.prepare.map .saveCategory
  | .tag g => g.prepare.map .saveTag
  | .post p now => (p.prepare now).map .savePost
  | .comment c now =>
    (require "content" c.content).map fun _ => .saveComment { c with updatedAt := now }
  | .message m => m.validate.map fun _ => .saveMessage m
  | .settings x now => x.validate.map fun _ => .saveSettings { x with updatedAt := some now }

/-- A procedure of the editor leaves the store as it is, or as a change does that it leads to
whenever it succeeds. -/
private theorem left_by {α : Type} {p : Editor.Edit α} (hp : p.Atomic) {s : Store}
    {prepared : Except ContentError Change}
    (hok : ∀ a u, p.outcome s = (.ok a, u) →
      ∃ change, prepared = .ok change ∧ change.apply s = .ok u) :
    (outcome.unnamed (p.outcome s)).2 = s ∨
      ∃ change, prepared = .ok change ∧
        change.apply s = .ok (outcome.unnamed (p.outcome s)).2 := by
  cases h : p.outcome s with
  | mk r u =>
      cases r with
      | ok a => exact .inr (hok a u h)
      | error e => exact .inl (hp s e u h)

/-- A submission leaves the store as it is, or as the one change does that it leads to. -/
theorem after_cases [Libraries] (submission : Submission) (s : Store) :
    submission.after s = s ∨
      ∃ change, submission.change? = .ok change ∧ change.apply s = .ok (submission.after s) := by
  cases submission with
  -- One case for each submission; its procedure is atomic, and its inversion names the change.
  | user u now =>
      refine left_by (Editor.saveUser_atomic u now) fun saved t h => ?_
      obtain ⟨hrules, hsave, -⟩ := Editor.saveUser_ok.1 h
      exact ⟨.saveUser { u.trimmed with updatedAt := now }, by rw [change?, hrules]; rfl, hsave⟩
  | category c =>
      refine left_by (Editor.saveCategory_atomic c) fun saved t h => ?_
      obtain ⟨hrules, hsave⟩ := Editor.saveCategory_ok.1 h
      exact ⟨.saveCategory saved, by rw [change?, hrules]; rfl, hsave⟩
  | tag g =>
      refine left_by (Editor.saveTag_atomic g) fun saved t h => ?_
      obtain ⟨hrules, hsave⟩ := Editor.saveTag_ok.1 h
      exact ⟨.saveTag saved, by rw [change?, hrules]; rfl, hsave⟩
  | post p now =>
      refine left_by (Editor.savePost_atomic p now) fun saved t h => ?_
      obtain ⟨hrules, -, -, hsave⟩ := Editor.savePost_ok.1 h
      exact ⟨.savePost saved, by rw [change?, hrules]; rfl, hsave⟩
  | comment c now =>
      refine left_by (Editor.saveComment_atomic c now) fun saved t h => ?_
      obtain ⟨hrules, -, hreply⟩ := Editor.saveComment_ok.1 h
      obtain ⟨-, hsave, -⟩ := Editor.saveReply_ok.1 hreply
      exact ⟨.saveComment { c with updatedAt := now }, by rw [change?, hrules]; rfl, hsave⟩
  | message m =>
      refine left_by (Editor.saveMessage_atomic m) fun saved t h => ?_
      obtain ⟨hrules, hsave, -⟩ := Editor.saveMessage_ok.1 h
      exact ⟨.saveMessage m, by rw [change?, hrules]; rfl, congrArg _ hsave⟩
  | settings x now =>
      refine left_by (Editor.saveSettings_atomic x now) fun saved t h => ?_
      obtain ⟨hrules, hsave, -⟩ := Editor.saveSettings_ok.1 h
      exact ⟨.saveSettings { x with updatedAt := some now }, by rw [change?, hrules]; rfl,
        congrArg _ hsave⟩

theorem prepared_of_change? [Libraries] {submission : Submission} {change : Change}
    (h : submission.change? = .ok change) : change.Prepared := by
  unfold change? at h
  cases submission with
  | user u now =>
      obtain ⟨_, hrules, rfl⟩ := Change.of_map_ok h
      exact ⟨u, now, hrules, rfl⟩
  | category c =>
      obtain ⟨saved, hprepare, rfl⟩ := Change.of_map_ok h
      exact ⟨c, hprepare⟩
  | tag g =>
      obtain ⟨saved, hprepare, rfl⟩ := Change.of_map_ok h
      exact ⟨g, hprepare⟩
  | post p now =>
      obtain ⟨saved, hprepare, rfl⟩ := Change.of_map_ok h
      exact ⟨p, now, hprepare⟩
  | comment c now =>
      obtain ⟨_, -, rfl⟩ := Change.of_map_ok h
      trivial
  | message m =>
      obtain ⟨_, -, rfl⟩ := Change.of_map_ok h
      trivial
  | settings x now =>
      obtain ⟨_, -, rfl⟩ := Change.of_map_ok h
      trivial

theorem savesComment_of_change? [Libraries] {submission : Submission} {change : Change}
    (h : submission.change? = .ok change) (hno : ∀ comment now, submission ≠ .comment comment now) :
    change.savesComment = false := by
  unfold change? at h
  cases submission with
  | comment c now => exact absurd rfl (hno c now)
  | _ =>
      obtain ⟨_, -, hchange⟩ := Change.of_map_ok h
      rw [← hchange]
      rfl

end Submission

structure Store.Unused (id : String) (s : Store) : Prop where
  users : s.users.has id = false
  categories : s.categories.has id = false
  tags : s.tags.has id = false
  posts : s.posts.has id = false
  comments : s.comments.has id = false
  messages : s.messages.has id = false

theorem Store.unused_iff {id : String} {s : Store} :
    s.Unused id ↔ s.users.has id = false ∧ s.categories.has id = false ∧ s.tags.has id = false ∧
      s.posts.has id = false ∧ s.comments.has id = false ∧ s.messages.has id = false :=
  ⟨fun ⟨a, b, c, d, e, f⟩ => ⟨a, b, c, d, e, f⟩, fun ⟨a, b, c, d, e, f⟩ => ⟨a, b, c, d, e, f⟩⟩

instance (id : String) (s : Store) : Decidable (s.Unused id) :=
  decidable_of_iff' _ Store.unused_iff

/-- A call of the store, of the editor or of the interface. -/
inductive Call
  | direct (change : Change)
  | submit (submission : Submission)
  | request (x : Api.Exchange)

namespace Call

def after [Libraries] (call : Call) (s : Store) : Store :=
  match call with
  | direct change => change.after s
  | submit submission => submission.after s
  | request x => x.after s

/-- The changes that a call may make. A call of the editor settles its only one first. -/
def Makes [Libraries] (call : Call) (change : Change) : Prop :=
  match call with
  | direct c => change = c
  | submit submission => submission.change? = .ok change
  | request x => x.Makes change

section
variable [Libraries]

/-- What is not asked of the store itself went through the rules of content. -/
theorem prepared_of_makes {call : Call} {change : Change} (h : call.Makes change)
    (hdirect : call ≠ .direct change) : change.Prepared := by
  cases call with
  | direct c => exact absurd (congrArg direct (Eq.symm h)) hdirect
  | submit submission => exact Submission.prepared_of_change? h
  | request x =>
      obtain ⟨op, -, hallows⟩ := h
      exact hallows.prepared

theorem after_keeps {call : Call} {I : Store → Prop}
    (keep : ∀ change s t, call.Makes change → change.apply s = .ok t → I s → I t) {s : Store}
    (h : I s) : I (call.after s) := by
  cases call with
  | direct change =>
      show I (change.after s)
      rcases change.after_cases s with hs | hs
      · rw [hs]
        exact h
      · exact keep change s _ rfl hs h
  | submit submission =>
      show I (submission.after s)
      rcases submission.after_cases s with hs | ⟨change, hchange, hs⟩
      · rw [hs]
        exact h
      · exact keep change s _ hchange hs h
  | request x => exact Api.Exchange.after_keeps keep h

def run (calls : List Call) (s : Store) : Store :=
  calls.foldl (fun s call => call.after s) s

@[simp] theorem run_nil (s : Store) : run [] s = s := rfl

@[simp] theorem run_cons (call : Call) (calls : List Call) (s : Store) :
    run (call :: calls) s = run calls (call.after s) := rfl

theorem run_append (before after : List Call) (s : Store) :
    run (before ++ after) s = run after (run before s) :=
  List.foldl_append

/-- The calls of a run, each after the store that it finds. -/
def steps : List Call → Store → List (Store × Call)
  | [], _ => []
  | call :: calls, s => (s, call) :: steps calls (call.after s)

theorem steps_append (before after : List Call) (s : Store) :
    steps (before ++ after) s = steps before s ++ steps after (run before s) := by
  induction before generalizing s with
  | nil => rfl
  | cons call before ih => simp only [List.cons_append, steps, run_cons, ih]

theorem mem_of_mem_steps {calls : List Call} {s : Store} {step : Store × Call}
    (h : step ∈ steps calls s) : step.2 ∈ calls := by
  induction calls generalizing s with
  | nil => cases h
  | cons call calls ih =>
      rcases List.mem_cons.1 h with rfl | hrest
      · exact List.mem_cons_self
      · exact List.mem_cons_of_mem _ (ih hrest)

theorem mem_steps_iff {calls : List Call} {s : Store} {step : Store × Call} :
    step ∈ steps calls s ↔
      ∃ before call, before ++ [call] <+: calls ∧ (run before s, call) = step := by
  induction calls generalizing s with
  | nil => simp [steps]
  | cons first calls ih =>
      rw [steps, List.mem_cons, ih]
      constructor
      · rintro (rfl | ⟨before, call, hbefore, rfl⟩)
        · exact ⟨[], first, List.prefix_append [first] calls, rfl⟩
        · exact ⟨first :: before, call, List.cons_prefix_cons.2 ⟨rfl, hbefore⟩, rfl⟩
      · rintro ⟨before, call, hbefore, rfl⟩
        cases before with
        | nil =>
            obtain ⟨rfl, -⟩ := List.cons_prefix_cons.1 hbefore
            exact .inl rfl
        | cons other before =>
            obtain ⟨rfl, hrest⟩ := List.cons_prefix_cons.1 hbefore
            exact .inr ⟨before, call, hrest, rfl⟩

/-- What every step of a run keeps, the run keeps, and every step of it finds. -/
theorem steps_keep {I : Store → Prop} {calls : List Call} {s : Store}
    (keep : ∀ step ∈ steps calls s, I step.1 → I (step.2.after step.1)) (h : I s) :
    I (run calls s) ∧ ∀ step ∈ steps calls s, I step.1 := by
  induction calls generalizing s with
  | nil =>
      refine ⟨h, ?_⟩
      intro step hstep
      cases hstep
  | cons call calls ih =>
      obtain ⟨hrun, hsteps⟩ := ih (fun step hstep => keep step (List.mem_cons_of_mem _ hstep))
        (keep (s, call) List.mem_cons_self h)
      exact ⟨hrun, List.forall_mem_cons.2 ⟨h, hsteps⟩⟩

theorem run_keeps {I : Store → Prop} {calls : List Call}
    (keep : ∀ call ∈ calls, ∀ s, I s → I (call.after s)) {s : Store} (h : I s) :
    I (run calls s) :=
  (steps_keep (fun step hstep => keep step.2 (mem_of_mem_steps hstep) step.1) h).1

end

def FreshId (call : Call) (s : Store) : Prop :=
  match call with
  | request x => s.Unused x.freshId
  | _ => True

instance (call : Call) (s : Store) : Decidable (call.FreshId s) :=
  match call with
  | direct _ => inferInstanceAs (Decidable True)
  | submit _ => inferInstanceAs (Decidable True)
  | request x => inferInstanceAs (Decidable (s.Unused x.freshId))

/-- Every request of a run comes with an id that is not in use by then. -/
def FreshIds [Libraries] (calls : List Call) (s : Store) : Prop :=
  ∀ step ∈ steps calls s, step.2.FreshId step.1

instance [Libraries] (calls : List Call) (s : Store) : Decidable (FreshIds calls s) :=
  inferInstanceAs (Decidable (∀ step ∈ steps calls s, step.2.FreshId step.1))

end Call

namespace Sample

def admin : User where
  id := "u1"
  username := "alice"
  email := "alice@example.com"
  bio := ""
  isAdmin := true
  dateJoined := .ofSeconds 0
  updatedAt := .ofSeconds 0

def start : List Call :=
  [.direct (.saveUser admin), .direct (.createSession "session" "token" admin.id 1 (.ofSeconds 0))]

def post : Post where
  id := "p1"
  title := "A long read"
  slug := "long"
  content := ""
  excerpt := ""
  authorId := admin.id
  categoryId := none
  tagIds := []
  status := .draft
  isActive := true
  publishedDate := none
  viewCount := 0
  likes := 0
  createdAt := .ofSeconds 0
  updatedAt := .ofSeconds 0

def comment (id : String) (parentId : Option String) : Comment where
  id := id
  postId := "p1"
  authorId := admin.id
  parentId := parentId
  content := "And another thing."
  isApproved := true
  createdAt := .ofSeconds 0
  updatedAt := .ofSeconds 0

def request (second : Int) (freshId : String) (method : Http.Method) (path body : String) :
    Api.Exchange where
  site := ⟨"session", 1, []⟩
  request := {
    method := method
    path := path
    headers := [("authorization", "Bearer token"), ("content-type", "application/json")]
    body := body }
  now := .ofSeconds second
  freshId := freshId
  freshSessionId := "fresh session"
  freshToken := "fresh"

end Sample
end Gazette
