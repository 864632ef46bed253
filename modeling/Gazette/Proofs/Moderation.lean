import Gazette.Proofs.Access
import Gazette.Proofs.Sessions

/-!
# Moderation

A comment of a member is shown to everyone once an admin has approved it. But what is approved is
the comment, whatever its text: a member whose comment was approved may put another text in its
place, which is shown at once. Moderation is effective in exactly those runs in which nobody does
that.
-/
namespace Gazette
open StoreProcedure Http

/-- Whether anyone can read a text as the content of a comment, in a list of comments or by the id
of the comment. -/
def Store.Publishes (id content : String) (s : Store) : Prop :=
  ∃ comment : Comment, comment.id = id ∧ comment.content = content ∧
    ((Api.readComment none id).outcome s = (.ok comment, s) ∨
      ∃ postId views view, (Api.listComments none postId).outcome s = (.ok views, s) ∧
        view ∈ views ∧ view.comment = comment)

namespace Api
variable {s t : Store} {reader : Option Caller} {id : String} {comment : Comment}

theorem readComment_ok :
    (readComment reader id).outcome s = (.ok comment, t) ↔
      s.comments.row? id = some comment ∧
        (comment.isApproved || maySeeHidden reader comment.authorId) = true ∧ t = s := by
  unfold readComment findComment
  rw [(found_look_reads _).then_ok]
  simp only [Exchange.found_look_ok, (ensure_reads _ _).then_ok, ensure_ok, outcome_pure,
    Prod.mk.injEq, Except.ok.injEq]
  constructor
  · rintro ⟨_, ⟨hrow, -⟩, _, ⟨hsees, -⟩, rfl, rfl⟩
    exact ⟨hrow, hsees, rfl⟩
  · rintro ⟨hrow, hsees, rfl⟩
    exact ⟨comment, ⟨hrow, trivial⟩, (), ⟨hsees, trivial⟩, rfl, rfl⟩

end Api

namespace Store
variable {s t : Store} {id content : String}

theorem publishes_iff (hs : s.Sound) :
    s.Publishes id content ↔ ∃ comment, s.comments.row? id = some comment ∧
      comment.isApproved = true ∧ comment.content = content := by
  constructor
  · rintro ⟨comment, rfl, rfl, hread | ⟨postId, views, view, hlist, hview, rfl⟩⟩
    · obtain ⟨hrow, hsees, -⟩ := Api.readComment_ok.1 hread
      exact ⟨comment, hrow, by simpa [Api.maySeeHidden] using hsees, rfl⟩
    · obtain rfl : s.listComments (postId.bind Text.nonBlank?) false = views :=
        Except.ok.inj (congrArg Prod.fst hlist)
      simp only [listComments, List.mem_filterMap, List.mem_mergeSort, List.mem_filter,
        Bool.or_false, Bool.and_eq_true] at hview
      obtain ⟨comment, ⟨hmem, -, happroved⟩, hshown⟩ := hview
      obtain ⟨author, -, rfl⟩ := Option.map_eq_some_iff.1 hshown
      exact ⟨comment, (Table.row?_eq_some_iff hs.comment_ids).2 ⟨hmem, rfl⟩, happroved, rfl⟩
  · rintro ⟨comment, hrow, happroved, rfl⟩
    refine ⟨comment, Table.key_of_row? hrow, rfl, .inl (Api.readComment_ok.2 ⟨hrow, ?_, rfl⟩)⟩
    rw [happroved]
    rfl

/-- No comment was saved between two stores: each one is as it was, or was removed. -/
def KeepsComments (s t : Store) : Prop :=
  ∀ id, t.comments.row? id = none ∨ t.comments.row? id = s.comments.row? id

theorem keepsComments_refl (s : Store) : s.KeepsComments s :=
  fun _ => .inr rfl

theorem KeepsComments.trans {u : Store} (hst : s.KeepsComments t) (htu : t.KeepsComments u) :
    s.KeepsComments u := by
  intro id
  rcases htu id with hnone | hsame
  · exact .inl hnone
  · rw [hsame]
    exact hst id

end Store

theorem Change.keepsComments {change : Change} {s t : Store} (h : change.apply s = .ok t)
    (hs : s.Sound) (hno : change.savesComment = false) : s.KeepsComments t := by
  intro id
  rcases commentRow_cases h hs id with ⟨comment, rfl, -⟩ | hkept
  · cases hno
  · exact hkept

/-- What a request states about a comment: its content and its approval, if it states them. -/
structure Remark where
  id : String
  content : Option String
  approval : Option Bool
deriving DecidableEq, Repr

/-- A remark has been carried out between two stores: a new comment has the stated content, and is
approved if it is an admin's; of a stored one, what is stated is changed, and only an admin changes
the approval. -/
structure Remark.Done (remark : Remark) (admin : Bool) (s t : Store) : Prop where
  others : ∀ id, id ≠ remark.id → t.comments.row? id = s.comments.row? id
  row : ∃ new, t.comments.row? remark.id = some new ∧
    (s.comments.row? remark.id = none ∧ remark.content = some new.content ∧
        new.isApproved = admin ∨
      ∃ old, s.comments.row? remark.id = some old ∧
        new.content = remark.content.getD old.content ∧
        new.isApproved = remark.approval.getD old.isApproved ∧
        (remark.approval = none ∨ admin = true))

theorem Remark.done_of_saveComment {remark : Remark} {admin : Bool} {s t : Store}
    {comment : Comment} (hid : comment.id = remark.id) (hsave : s.saveComment comment = .ok t)
    (hstated : s.comments.row? remark.id = none ∧ remark.content = some comment.content ∧
        comment.isApproved = admin ∨
      ∃ old, s.comments.row? remark.id = some old ∧
        comment.content = remark.content.getD old.content ∧
        comment.isApproved = remark.approval.getD old.isApproved ∧
        (remark.approval = none ∨ admin = true)) : remark.Done admin s t where
  others id hne := by
    rw [Store.row?_saveComment hsave, if_neg fun hsame => hne (hsame.symm.trans hid)]
  row := by
    have hrow := Store.row?_saveComment hsave remark.id
    rw [if_pos hid] at hrow
    refine ⟨_, hrow, ?_⟩
    rcases hstated with ⟨hnone, hcontent, hadmin⟩ | ⟨old, hold, hcontent, happroved, hmay⟩
    · rw [hnone]
      exact .inl ⟨rfl, hcontent, hadmin⟩
    · rw [hold]
      exact .inr ⟨old, rfl, hcontent, happroved, hmay⟩

namespace Api
variable {s t : Store} {caller : Caller} {saved : Comment}

theorem createComment_ok {context : Context} {input : NewComment}
    (hfresh : s.comments.has context.freshId = false)
    (h : (createComment context caller input).outcome s = (.ok saved, t)) :
    Remark.Done ⟨context.freshId, some input.content, none⟩ caller.isAdmin s t := by
  obtain ⟨-, -, hreply⟩ := Editor.saveComment_ok.1 (outcome_adapt_ok.1 h)
  obtain ⟨-, hsave, -⟩ := Editor.saveReply_ok.1 hreply
  refine Remark.done_of_saveComment ?_ hsave ?_
  · rfl
  · exact .inl ⟨Table.row?_eq_none hfresh, rfl, rfl⟩

theorem updateComment_ok {context : Context} {id : String} {input : CommentChange}
    (h : (updateComment context caller id input).outcome s = (.ok saved, t)) :
    Remark.Done ⟨id, input.content, input.isApproved⟩ caller.isAdmin s t := by
  unfold updateComment findComment at h
  obtain ⟨old, hread, h⟩ := (found_look_reads _).then_ok.1 h
  obtain ⟨_, -, h⟩ := (ensure_reads _ _).then_ok.1 h
  obtain ⟨_, hmay, h⟩ := (ensure_reads _ _).then_ok.1 h
  obtain ⟨-, -, hreply⟩ := Editor.saveComment_ok.1 (outcome_adapt_ok.1 h)
  obtain ⟨-, hsave, -⟩ := Editor.saveReply_ok.1 hreply
  have hrow := (Exchange.found_look_ok.1 hread).1
  refine Remark.done_of_saveComment ?_ hsave ?_
  · exact Table.key_of_row? hrow
  · have happroves := (ensure_ok.1 hmay).1
    rw [Bool.or_eq_true, Option.isNone_iff_eq_none] at happroves
    exact .inr ⟨old, hrow, rfl, rfl, happroves⟩

namespace Exchange
variable {x : Exchange} {op : Operation} {response : Response}

/-- What a request states about a comment, if that is what it is for and it can be read. -/
def remark? (x : Exchange) : Option Remark :=
  match x.operation? with
  | some .createComment =>
    (x.input? NewComment).map fun input => ⟨x.freshId, some input.content, none⟩
  | some (.updateComment raw) => do
    let id ← parameter? raw
    let input ← x.input? CommentChange
    some ⟨id, input.content, input.isApproved⟩
  | _ => none

/-- An operation that saves a comment and comes to a result has carried out what is stated. -/
theorem perform_comment_ok [Libraries] (hfresh : s.Unused x.freshId) (hx : x.operation? = some op)
    (hop : op.savesComment = true) (h : (x.perform op).outcome s = (.ok response, t)) :
    response.IsSuccess ∧ ∃ remark, x.remark? = some remark ∧
      remark.Done (isAdmin (x.callerIn s)) s t := by
  cases op with
  | createComment =>
      obtain ⟨caller, hcaller, h⟩ := caller_then_ok.1 h
      obtain ⟨input, hinput, h⟩ := input_then_ok.1 h
      obtain ⟨hsuccess, saved, h, -⟩ := created_ok h
      refine ⟨hsuccess, _, by rw [remark?, hx, hinput]; rfl, ?_⟩
      have hunused : s.comments.has x.context.freshId = false := hfresh.comments
      rw [hcaller]
      exact createComment_ok hunused h
  | updateComment raw =>
      obtain ⟨caller, hcaller, h⟩ := caller_then_ok.1 h
      obtain ⟨id, hraw, h⟩ := parameter_then_ok.1 h
      obtain ⟨input, hinput, h⟩ := input_then_ok.1 h
      obtain ⟨hsuccess, saved, h, -⟩ := shown_ok h
      refine ⟨hsuccess, ⟨id, input.content, input.isApproved⟩, ?_, ?_⟩
      · simp [remark?, hx, hraw, hinput]
      · rw [hcaller]
        exact updateComment_ok h
  | _ => cases hop

/-- An operation that saves a comment and fails has changed nothing. -/
theorem perform_comment_atomic [Libraries] (hop : op.savesComment = true) :
    (x.perform op).Atomic := by
  cases op with
  | createComment =>
      refine Atomic.after_reads x.caller_reads fun caller => ?_
      refine Atomic.after_reads (x.input_reads _) fun input => ?_
      exact Atomic.then_pure ((Editor.saveComment_atomic _ _).adapt _) _
  | updateComment raw =>
      refine Atomic.after_reads x.caller_reads fun caller => ?_
      refine Atomic.after_reads (parameter_reads _ _) fun id => ?_
      refine Atomic.after_reads (x.input_reads _) fun input => ?_
      refine Atomic.then_pure ?_ _
      refine Atomic.after_reads (found_look_reads _) fun old => ?_
      refine Atomic.after_reads (ensure_reads _ _) fun _ => ?_
      exact Atomic.after_reads (ensure_reads _ _) fun _ => (Editor.saveComment_atomic _ _).adapt _
  | _ => cases hop

/-- A request that is there for nothing of the kind saves no comment. -/
theorem after_keepsComments [Libraries] (hs : s.Sound)
    (h : ∀ op, x.operation? = some op → op.savesComment = false) : s.KeepsComments (x.after s) := by
  refine (after_keeps_of_may (I := fun t => t.Sound ∧ s.KeepsComments t)
    ?_ ⟨hs, s.keepsComments_refl⟩).2
  rintro change t u ⟨op, hx, hmay⟩ happly ⟨ht, hkept⟩
  have hno : change.savesComment = false := hmay.comment.trans (h op hx)
  exact ⟨change.keeps_sound t u happly ht, hkept.trans (Change.keepsComments happly ht hno)⟩

theorem savesComment_of_remark? {remark : Remark} (h : x.remark? = some remark) :
    ∃ op, x.operation? = some op ∧ op.savesComment = true := by
  unfold remark? at h
  split at h
  · exact ⟨_, ‹_›, rfl⟩
  · exact ⟨_, ‹_›, rfl⟩
  · cases h

/-- A request has carried out what it states about a comment, or it has saved no comment. -/
theorem remark_cases [Libraries] (hs : s.Sound) (hfresh : s.Unused x.freshId) :
    (∃ remark, (x.remark? = some remark ∧ x.Succeeds s) ∧
        remark.Done (isAdmin (x.callerIn s)) s (x.after s)) ∨
      (∀ remark, ¬ (x.remark? = some remark ∧ x.Succeeds s)) ∧ s.KeepsComments (x.after s) := by
  by_cases hsaves : ∃ op, x.operation? = some op ∧ op.savesComment = true
  · obtain ⟨op, hx, hop⟩ := hsaves
    by_cases hsuccess : x.Succeeds s
    · obtain ⟨-, response, hperform, -⟩ := (succeeds_iff hx).1 hsuccess
      obtain ⟨-, remark, hremark, hdone⟩ := perform_comment_ok hfresh hx hop hperform
      exact .inl ⟨remark, ⟨hremark, hsuccess⟩, hdone⟩
    · have hsame : x.after s = s :=
        after_eq_of_not_succeeds hx (perform_comment_atomic hop s)
          (fun response t h => (perform_comment_ok hfresh hx hop h).1) hsuccess
      refine .inr ⟨fun remark h => hsuccess h.2, ?_⟩
      rw [hsame]
      exact s.keepsComments_refl
  · refine .inr ⟨fun remark h => hsaves (savesComment_of_remark? h.1), ?_⟩
    refine after_keepsComments hs fun op hx => ?_
    exact Bool.eq_false_iff.2 fun hop => hsaves ⟨op, hx, hop⟩

end Exchange
end Api

namespace Call
open Api Store
variable {s : Store} {call : Call} {calls before rest : List Call} {id content : String}

/-- A call that saves no comment unless it is a request. -/
def LeavesCommentsToRequests (call : Call) : Prop :=
  match call with
  | direct change => change.savesComment = false
  | submit submission => ∀ comment now, submission ≠ .comment comment now
  | request _ => True

/-- Whether a step is a request of an admin that vouches for the content of a comment: it states
the content, or approves the comment while that is its content. -/
def Vouches [Libraries] (id content : String) (step : Store × Call) : Prop :=
  match step.2 with
  | request x => isAdmin (x.callerIn step.1) = true ∧ x.Succeeds step.1 ∧
      ∃ remark ∈ x.remark?, remark.id = id ∧
        (remark.content = some content ∨ remark.approval = some true ∧
          ((x.after step.1).comments.row? id).map (·.content) = some content)
  | _ => False

instance [Libraries] (id content : String) (step : Store × Call) :
    Decidable (Vouches id content step) :=
  match step with
  | (s, request x) => inferInstanceAs (Decidable (isAdmin (x.callerIn s) = true ∧ _ ∧
      ∃ remark ∈ x.remark?, _))
  | (_, direct _) => isFalse nofun
  | (_, submit _) => isFalse nofun

/-- Whether an admin has vouched for the content of a comment in a run, since when the comment was
always stored. -/
def Vouched [Libraries] (id content : String) (calls : List Call) : Prop :=
  Since (Vouches id content) (fun step => (step.2.after step.1).comments.has id = false)
    (steps calls Database.fresh.store)

def IsOutsider (step : Store × Call) : Prop :=
  match step.2 with
  | request x => isAdmin (x.callerIn step.1) = false
  | _ => False

/-- Whether a step is a request of somebody who is no admin that gives another content to an
approved comment. -/
def Rewords [Libraries] (step : Store × Call) : Prop :=
  match step.2 with
  | request x => isAdmin (x.callerIn step.1) = false ∧ x.Succeeds step.1 ∧
      ∃ remark ∈ x.remark?, ∃ old ∈ step.1.comments.row? remark.id, old.isApproved = true ∧
        ∃ content ∈ remark.content, content ≠ old.content
  | _ => False

instance [Libraries] (step : Store × Call) : Decidable (Rewords step) :=
  match step with
  | (s, request x) => inferInstanceAs (Decidable (isAdmin (x.callerIn s) = false ∧ _ ∧
      ∃ remark ∈ x.remark?, ∃ old ∈ s.comments.row? remark.id, _ ∧ ∃ content ∈ remark.content, _))
  | (_, direct _) => isFalse nofun
  | (_, submit _) => isFalse nofun

/-- Moderation is effective in a run: whatever everyone can read at any time was vouched for by an
admin, and requests of others alone make nothing readable that was not so before. -/
structure Moderated [Libraries] (calls : List Call) : Prop where
  vouched : ∀ before, before <+: calls → ∀ id content,
    (run before Database.fresh.store).Publishes id content → Vouched id content before
  outsiders : ∀ before rest, before ++ rest <+: calls →
    (∀ step ∈ steps rest (run before Database.fresh.store), IsOutsider step) → ∀ id content,
    (run (before ++ rest) Database.fresh.store).Publishes id content →
      (run before Database.fresh.store).Publishes id content

theorem Vouches.not_isOutsider [Libraries] {step : Store × Call} (h : Vouches id content step) :
    ¬ IsOutsider step := by
  obtain ⟨s, call⟩ := step
  cases call with
  | request x =>
      intro (hno : isAdmin (x.callerIn s) = false)
      rw [h.1] at hno
      cases hno
  | direct change => exact h.elim
  | submit submission => exact h.elim

theorem publishes_of_keepsComments {t : Store} (hs : s.Sound) (ht : t.Sound)
    (hkept : s.KeepsComments t) (h : t.Publishes id content) : s.Publishes id content := by
  obtain ⟨comment, hrow, hshown⟩ := (publishes_iff ht).1 h
  rcases hkept id with hnone | hsame
  · rw [hrow] at hnone
    cases hnone
  · exact (publishes_iff hs).2 ⟨comment, hsame.symm.trans hrow, hshown⟩

section Requests
variable {x : Exchange} {remark : Remark} {new : Comment}

/-- What an admin's remark leaves approved was so before, or is vouched for. -/
theorem publishes_of_admin [Libraries] (hs : s.Sound) (hsuccess : x.Succeeds s)
    (hremark : x.remark? = some remark) (hdone : remark.Done true s (x.after s))
    (hadmin : isAdmin (x.callerIn s) = true)
    (hnew : (x.after s).comments.row? remark.id = some new) (happroved : new.isApproved = true) :
    s.Publishes remark.id new.content ∨ Vouches remark.id new.content (s, request x) := by
  have hvouches : remark.content = some new.content ∨ remark.approval = some true →
      Vouches remark.id new.content (s, request x) := by
    intro h
    refine ⟨hadmin, hsuccess, remark, hremark, rfl, h.imp_right fun happroval => ⟨happroval, ?_⟩⟩
    show ((x.after s).comments.row? remark.id).map (·.content) = some new.content
    rw [hnew]
    rfl
  obtain ⟨found, hfound, hstated⟩ := hdone.row
  obtain rfl : found = new := Option.some.inj (hfound.symm.trans hnew)
  rcases hstated with ⟨-, hcontent, -⟩ | ⟨old, hold, hcontent, hkept, -⟩
  · exact .inr (hvouches (.inl hcontent))
  · cases hsaid : remark.content with
    | some given =>
        rw [hsaid] at hcontent
        exact .inr (hvouches (.inl (by rw [hsaid, hcontent]; rfl)))
    | none =>
        cases happroval : remark.approval with
        | some approval =>
            rw [happroval, happroved] at hkept
            exact .inr (hvouches (.inr (by rw [happroval, hkept]; rfl)))
        | none =>
            rw [hsaid] at hcontent
            rw [happroval, happroved] at hkept
            exact .inl ((publishes_iff hs).2 ⟨old, hold, hkept.symm, hcontent.symm⟩)

/-- What the remark of anybody else leaves approved was so before, if it was not given another
content. -/
theorem publishes_of_outsider [Libraries] (hs : s.Sound) (hsuccess : x.Succeeds s)
    (hremark : x.remark? = some remark) (hdone : remark.Done false s (x.after s))
    (hadmin : isAdmin (x.callerIn s) = false)
    (hnew : (x.after s).comments.row? remark.id = some new) (happroved : new.isApproved = true)
    (hnot : ¬ Rewords (s, request x)) : s.Publishes remark.id new.content := by
  obtain ⟨found, hfound, hstated⟩ := hdone.row
  obtain rfl : found = new := Option.some.inj (hfound.symm.trans hnew)
  rcases hstated with ⟨-, -, hunapproved⟩ | ⟨old, hold, hcontent, hkept, hmay⟩
  · rw [happroved] at hunapproved
    cases hunapproved
  · have hsilent : remark.approval = none := hmay.resolve_right nofun
    rw [hsilent, happroved] at hkept
    refine (publishes_iff hs).2 ⟨old, hold, hkept.symm, ?_⟩
    cases hsaid : remark.content with
    | none =>
        rw [hsaid] at hcontent
        exact hcontent.symm
    | some given =>
        rw [hsaid] at hcontent
        by_contra hother
        exact hnot ⟨hadmin, hsuccess, remark, hremark, old, hold, hkept.symm, given, hsaid,
          fun hsame => hother (hsame.symm.trans hcontent.symm)⟩

/-- Another content that is given to an approved comment can be read at once. -/
theorem publishes_of_rewords [Libraries] (hs : s.Sound) (hfresh : s.Unused x.freshId)
    (h : Rewords (s, request x)) :
    ∃ id content, (x.after s).Publishes id content ∧ ¬ s.Publishes id content := by
  have ht : (x.after s).Sound := (request x).after_keeps_sound s hs
  obtain ⟨hadmin, hsuccess, remark, hremark, old, hold, happroved, content, hsaid, hother⟩ := h
  rcases x.remark_cases hs hfresh with ⟨stated, ⟨hstated, -⟩, hdone⟩ | ⟨hnone, -⟩
  · obtain rfl : stated = remark := Option.some.inj (hstated.symm.trans hremark)
    have hrow : s.comments.row? stated.id = some old := hold
    have hcontent : stated.content = some content := hsaid
    refine ⟨stated.id, content, ?_, fun hbefore => ?_⟩
    · obtain ⟨new, hnew, ⟨habsent, -⟩ | ⟨found, hfound, hnewContent, hkept, hmay⟩⟩ := hdone.row
      · rw [hrow] at habsent
        cases habsent
      · obtain rfl : found = old := Option.some.inj (hfound.symm.trans hrow)
        rw [hadmin] at hmay
        rw [hcontent] at hnewContent
        rw [hmay.resolve_right nofun] at hkept
        exact (publishes_iff ht).2 ⟨new, hnew, hkept.trans happroved, hnewContent⟩
    · obtain ⟨comment, hcomment, -, hsame⟩ := (publishes_iff hs).1 hbefore
      obtain rfl : comment = old := Option.some.inj (hcomment.symm.trans hrow)
      exact hother hsame.symm
  · exact absurd ⟨hremark, hsuccess⟩ (hnone remark)

end Requests

/-- What everyone can read after a call could be read before, or the call is an admin's who vouches
for it, or somebody else's who gives an approved comment another content. -/
theorem publishes_after [Libraries] (hs : s.Sound) (hcall : call.LeavesCommentsToRequests)
    (hfresh : call.FreshId s) (hnot : ¬ Rewords (s, call))
    (h : (call.after s).Publishes id content) :
    s.Publishes id content ∨ Vouches id content (s, call) := by
  have ht : (call.after s).Sound := call.after_keeps_sound s hs
  cases call with
  -- A change that saves no comment publishes nothing new, so only requests with a remark are left.
  | direct change =>
      refine .inl (publishes_of_keepsComments hs ht ?_ h)
      rcases change.after_cases s with hsame | happly
      · rw [after, hsame]
        exact s.keepsComments_refl
      · exact Change.keepsComments happly hs hcall
  | submit submission =>
      refine .inl (publishes_of_keepsComments hs ht ?_ h)
      rcases submission.after_cases s with hsame | ⟨change, hchange, happly⟩
      · rw [after, hsame]
        exact s.keepsComments_refl
      · exact Change.keepsComments happly hs (Submission.savesComment_of_change? hchange hcall)
  | request x =>
      rcases x.remark_cases hs hfresh with ⟨remark, ⟨hremark, hsuccess⟩, hdone⟩ | ⟨-, hkept⟩
      · obtain ⟨new, hrow, happroved, rfl⟩ := (publishes_iff ht).1 h
        by_cases hid : id = remark.id
        · subst hid
          cases hadmin : isAdmin (x.callerIn s) with
          | true =>
              rw [hadmin] at hdone
              exact publishes_of_admin hs hsuccess hremark hdone hadmin hrow happroved
          | false =>
              rw [hadmin] at hdone
              refine .inl ?_
              exact publishes_of_outsider hs hsuccess hremark hdone hadmin hrow happroved hnot
        · have hsame : s.comments.row? id = some new := (hdone.others id hid).symm.trans hrow
          exact .inl ((publishes_iff hs).2 ⟨new, hsame, happroved, rfl⟩)
      · exact .inl (publishes_of_keepsComments hs ht hkept h)

section Prefixes
variable [Libraries]
variable (hcalls : ∀ call ∈ calls, call.LeavesCommentsToRequests)
variable (hfresh : FreshIds calls Database.fresh.store)
variable (hno : ∀ step ∈ steps calls Database.fresh.store, ¬ Rewords step)
include hcalls hfresh hno

/-- As long as approved comments keep their content, a call makes readable what it vouches for. -/
theorem publishes_last (hbefore : before ++ [call] <+: calls)
    (h : (run (before ++ [call]) Database.fresh.store).Publishes id content) :
    (run before Database.fresh.store).Publishes id content ∨
      Vouches id content (run before Database.fresh.store, call) := by
  have hstep : (run before Database.fresh.store, call) ∈ steps calls Database.fresh.store :=
    mem_steps_iff.2 ⟨before, call, hbefore, rfl⟩
  rw [run_append] at h
  exact publishes_after (run_keeps_sound before Database.sound_fresh)
    (hcalls call (mem_of_mem_steps hstep)) (hfresh _ hstep) (hno _ hstep) h

/-- The induction is on the calls so far: what was vouched for stays so for as long as the comment
is stored. -/
theorem vouched_of_publishes (hbefore : before <+: calls)
    (h : (run before Database.fresh.store).Publishes id content) : Vouched id content before := by
  induction before using List.reverseRecOn with
  | nil =>
      rw [run_nil, publishes_iff Database.sound_fresh, Database.fresh_store] at h
      obtain ⟨comment, hnone, -⟩ := h
      cases hnone
  | append_singleton before call ih =>
      have hsound := run_keeps_sound (before ++ [call]) Database.sound_fresh
      obtain ⟨comment, hrow, -⟩ := (publishes_iff hsound).1 h
      rw [Vouched, steps_append]
      refine since_append_singleton.2 ?_
      rcases publishes_last hcalls hfresh hno hbefore h with hpublished | hvouches
      · refine .inr ⟨ih ((List.prefix_append before [call]).trans hbefore) hpublished, ?_⟩
        rw [run_append] at hrow
        intro hgone
        exact absurd (Table.has_of_row? hrow) (Bool.eq_false_iff.1 hgone)
      · exact .inl hvouches

theorem publishes_of_outsiders (hbefore : before ++ rest <+: calls)
    (houtsiders : ∀ step ∈ steps rest (run before Database.fresh.store), IsOutsider step)
    (h : (run (before ++ rest) Database.fresh.store).Publishes id content) :
    (run before Database.fresh.store).Publishes id content := by
  induction rest using List.reverseRecOn with
  | nil => rwa [List.append_nil] at h
  | append_singleton rest call ih =>
      rw [← List.append_assoc] at hbefore h
      rw [steps_append, List.forall_mem_append] at houtsiders
      refine ih ((List.prefix_append _ [call]).trans hbefore) houtsiders.1 ?_
      refine (publishes_last hcalls hfresh hno hbefore h).resolve_right fun hvouches => ?_
      rw [run_append] at hvouches
      exact hvouches.not_isOutsider (houtsiders.2 _ List.mem_cons_self)

end Prefixes

/-- Where comments are saved by requests only, moderation is effective in exactly those runs in
which nobody but admins gives an approved comment another content. -/
theorem moderated_iff [Libraries] (calls : List Call)
    (hcalls : ∀ call ∈ calls, call.LeavesCommentsToRequests)
    (hfresh : FreshIds calls Database.fresh.store) :
    Moderated calls ↔ ∀ step ∈ steps calls Database.fresh.store, ¬ Rewords step := by
  constructor
  · intro h step hstep hrewords
    obtain ⟨before, call, hbefore, rfl⟩ := mem_steps_iff.1 hstep
    cases call with
    | request x =>
        obtain ⟨id, content, hafter, hnew⟩ := publishes_of_rewords
          (run_keeps_sound before Database.sound_fresh) (hfresh _ hstep) hrewords
        refine hnew (h.outsiders before [.request x] hbefore ?_ id content ?_)
        · exact List.forall_mem_singleton.2 hrewords.1
        · rw [run_append]
          exact hafter
    | direct change => exact hrewords
    | submit submission => exact hrewords
  · intro hno
    exact ⟨fun before hbefore id content => vouched_of_publishes hcalls hfresh hno hbefore,
      fun before rest hbefore houtsiders id content =>
        publishes_of_outsiders hcalls hfresh hno hbefore houtsiders⟩

end Call

attribute [local instance] Libraries.bare

namespace Sample

def bearing (token : String) (x : Api.Exchange) : Api.Exchange :=
  { x with request := { x.request with
    headers := [("authorization", "Bearer " ++ token), ("content-type", "application/json")] } }

def approved : List Call :=
  start ++ [
    .submit (.user member (.ofSeconds 0)),
    .direct (.createSession "other session" "other" member.id 1 (.ofSeconds 0)),
    .submit (.post post (.ofSeconds 1)),
    .request (bearing "other" (request 5 "k1" .post "/api/comments"
      "\x7b\"post\":\"p1\",\"content\":\"Well done.\"\x7d")),
    .request (request 6 "x1" .patch "/api/comments/k1" "\x7b\"is_approved\":true\x7d")]

def reworded : List Call :=
  approved ++ [.request (bearing "other" (request 7 "x2" .patch "/api/comments/k1"
    "\x7b\"content\":\"Spam\"\x7d"))]

end Sample

/-- Up to the approval moderation is effective, and the comment can be read. -/
theorem Call.moderated_of_approved :
    Moderated Sample.approved ∧
      (run Sample.approved Database.fresh.store).Publishes "k1" "Well done." := by
  have hcalls : ∀ call ∈ Sample.approved, call.LeavesCommentsToRequests := by
    simp [Sample.approved, Sample.start, LeavesCommentsToRequests, Change.savesComment]
  obtain ⟨hfresh, hno, hrow⟩ : FreshIds Sample.approved Database.fresh.store ∧
      (∀ step ∈ steps Sample.approved Database.fresh.store, ¬ Rewords step) ∧
      ∃ comment ∈ (run Sample.approved Database.fresh.store).comments.row? "k1",
        comment.isApproved = true ∧ comment.content = "Well done." := by decide +kernel
  exact ⟨(moderated_iff Sample.approved hcalls hfresh).2 hno,
    (Store.publishes_iff (run_keeps_sound Sample.approved Database.sound_fresh)).2 hrow⟩

/-- Then the member puts anything in the place of what was approved. Everyone can read it, and no
admin has vouched for it. -/
theorem Call.not_moderated_of_reworded :
    (∀ call ∈ Sample.reworded, call.LeavesCommentsToRequests) ∧
      FreshIds Sample.reworded Database.fresh.store ∧
      (run Sample.reworded Database.fresh.store).Publishes "k1" "Spam" ∧
      ¬ Vouched "k1" "Spam" Sample.reworded ∧ ¬ Moderated Sample.reworded := by
  have hcalls : ∀ call ∈ Sample.reworded, call.LeavesCommentsToRequests := by
    simp [Sample.reworded, Sample.approved, Sample.start, LeavesCommentsToRequests,
      Change.savesComment]
  obtain ⟨hfresh, hno, hrow⟩ : FreshIds Sample.reworded Database.fresh.store ∧
      (∀ step ∈ steps Sample.reworded Database.fresh.store, ¬ Vouches "k1" "Spam" step) ∧
      ∃ comment ∈ (run Sample.reworded Database.fresh.store).comments.row? "k1",
        comment.isApproved = true ∧ comment.content = "Spam" := by decide +kernel
  have hpublished : (run Sample.reworded Database.fresh.store).Publishes "k1" "Spam" :=
    (Store.publishes_iff (run_keeps_sound Sample.reworded Database.sound_fresh)).2 hrow
  have hunvouched : ¬ Vouched "k1" "Spam" Sample.reworded := by
    rintro ⟨earlier, step, later, hsteps, hvouches, -⟩
    exact hno step (by simp [hsteps]) hvouches
  exact ⟨hcalls, hfresh, hpublished, hunvouched, fun h =>
    hunvouched (h.vouched Sample.reworded (List.prefix_refl _) "k1" "Spam" hpublished)⟩

end Gazette
