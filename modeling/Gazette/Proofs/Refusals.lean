import Gazette.Proofs.Atomicity
import Gazette.Proofs.Paths

/-!
# Refusals

Once a write has found what it is about, and its caller may change that, it fails for its input
only: the input cannot be read, it breaks a rule of content or refers to nothing, or it goes
against what is stored already.
-/
namespace Gazette
open StoreProcedure

namespace Api

/-- Whether an error is about what a request states. -/
def ApiError.IsAboutInput : ApiError → Prop
  | badRequest _ | conflict _ | rejected _ => True
  | _ => False

theorem ApiError.IsAboutInput.status {e : ApiError} (h : e.IsAboutInput) :
    e.status ∈ [400, 409, 415, 422] := by
  cases e with
  | badRequest | conflict => simp [ApiError.status]
  | rejected cause => cases cause <;> simp [ApiError.status, Rejection.status]
  | _ => exact h.elim

theorem ApiError.IsAboutInput.of_isConstraint {e : StoreError} (h : e.isConstraint = true) :
    (ofStore e).IsAboutInput := by
  unfold ofStore
  rw [if_pos h]
  trivial

end Api

namespace Editor
open Api

abbrev Edit.FailsOnInput {α : Type} (p : Edit α) (s : Store) : Prop :=
  p.FailsWith (fun e => (ApiError.ofEditor e).IsAboutInput) s

variable {α : Type} {s : Store}

theorem obey_fails (r : Except ContentError α) : (obey r).FailsOnInput s := by
  intro e t h
  cases r with
  | ok a => cases h
  | error cause =>
      cases h
      trivial

theorem requireKnown_fails (missing : ContentError) (find : Store → Option α) :
    (requireKnown missing find).FailsOnInput s := by
  refine FailsWith.bind (failsWith_read find) fun a t _ => ?_
  cases a with
  | none => exact failsWith_throw trivial
  | some a => exact failsWith_pure a

theorem requireTags_fails (ids : List String) : (requireTags ids).FailsOnInput s := by
  induction ids generalizing s with
  | nil => exact failsWith_pure ()
  | cons id ids ih => exact (requireKnown_fails _ _).bind fun _ _ _ => ih

theorem save_fails (change : Change) (h : change.IsSave) {f : Store → Except StoreError Store}
    (hf : change.apply = f) (a : α) :
    Edit.FailsOnInput (do save f; pure a) s := by
  refine FailsWith.bind (failsWith_write fun e herror => ?_) fun _ _ _ => failsWith_pure a
  exact .of_isConstraint (change.isConstraint_of_save h (hf ▸ herror))

theorem saveCategory_fails [Libraries] (category : Category) :
    (saveCategory category).FailsOnInput s :=
  (obey_fails _).bind fun saved _ _ => save_fails (.saveCategory saved) trivial rfl _

theorem saveTag_fails [Libraries] (tag : Tag) : (saveTag tag).FailsOnInput s :=
  (obey_fails _).bind fun saved _ _ => save_fails (.saveTag saved) trivial rfl _

theorem saveUser_fails (user : User) (now : Timestamp) : (saveUser user now).FailsOnInput s :=
  (obey_fails _).bind fun _ _ _ => save_fails (.saveUser _) trivial rfl _

theorem saveMessage_fails (message : ContactMessage) : (saveMessage message).FailsOnInput s :=
  (obey_fails _).bind fun _ _ _ => save_fails (.saveMessage message) trivial rfl _

theorem saveSettings_fails (settings : SiteSettings) (now : Timestamp) :
    (saveSettings settings now).FailsOnInput s :=
  (obey_fails _).bind fun _ _ _ => save_fails (.saveSettings _) trivial rfl _

theorem saveReply_fails (comment : Comment) (now : Timestamp) :
    (saveReply comment now).FailsOnInput s := by
  unfold saveReply
  cases comment.parentId with
  | none => exact save_fails (.saveComment _) trivial rfl _
  | some id =>
      refine (requireKnown_fails _ _).bind fun parent t _ => ?_
      split
      · exact failsWith_throw trivial
      · exact save_fails (.saveComment _) trivial rfl _

/-- A comment is not taken in for what it states, if the post that it names can be read. -/
theorem saveComment_fails (comment : Comment) (now : Timestamp)
    (hread : ∃ found, s.findPost? comment.postId = .ok found) :
    (saveComment comment now).FailsOnInput s := by
  rw [saveComment_eq]
  refine (obey_fails _).then_reads (obey_onlyReads _) fun _ _ => ?_
  refine (failsWith_readOr hread).bind fun found t _ => ?_
  cases found with
  | none => exact failsWith_throw trivial
  | some post => exact saveReply_fails comment now

theorem saveTagged_fails (post : Post) : (saveTagged post).FailsOnInput s :=
  (requireTags_fails _).bind fun _ _ _ => save_fails (.savePost post) trivial rfl _

theorem savePost_fails [Libraries] (post : Post) (now : Timestamp) :
    (savePost post now).FailsOnInput s := by
  rw [savePost_eq]
  refine (obey_fails _).bind fun prepared t _ => ?_
  cases prepared.categoryId with
  | none => exact saveTagged_fails prepared
  | some id => exact (requireKnown_fails _ _).bind fun _ _ _ => saveTagged_fails prepared

end Editor

namespace Api
open Api.Action

abbrev Action.FailsOnInput {α : Type} (p : Action α) (s : Store) : Prop :=
  p.FailsWith ApiError.IsAboutInput s

variable {α β : Type} {s : Store}

theorem ensure_fails (holds : Bool) {e : ApiError} (h : e.IsAboutInput) :
    (ensure holds e).FailsOnInput s := by
  cases holds with
  | false => exact failsWith_throw h
  | true => exact failsWith_pure ()

theorem edit_fails {p : Editor.Edit α} (h : p.FailsOnInput s) : (edit p).FailsOnInput s :=
  FailsWith.adapt h

theorem settleStatus_fails (replace : Bool) (old : PostStatus) (given : Option String) :
    (settleStatus replace old given).FailsOnInput s := by
  unfold settleStatus
  split
  · exact failsWith_pure _
  · split
    · exact failsWith_pure _
    · exact failsWith_throw trivial

theorem settleCategory_fails (replace : Bool) (old given : Option String) :
    (settleCategory replace old given).FailsOnInput s := by
  unfold settleCategory
  split
  · exact failsWith_pure _
  · dsimp only
    split
    · exact failsWith_pure _
    · refine FailsWith.bind (failsWith_read _) fun found _ _ => ?_
      cases found with
      | none => exact failsWith_throw trivial
      | some category => exact failsWith_pure _

theorem findTags_fails (slugs : List String) : (findTags slugs).FailsOnInput s := by
  induction slugs generalizing s with
  | nil => exact failsWith_pure _
  | cons slug slugs ih =>
      refine FailsWith.bind (failsWith_read _) fun found _ _ => ?_
      cases found with
      | none => exact failsWith_throw trivial
      | some tag => exact ih.bind fun _ _ _ => failsWith_pure _

theorem settleTags_fails (replace : Bool) (old : List String) (given : Option (List String)) :
    (settleTags replace old given).FailsOnInput s := by
  cases given with
  | none => exact failsWith_pure _
  | some slugs => exact findTags_fails slugs

theorem applyInput_fails (input : PostInput) (replace : Bool) (post : Post) :
    (applyInput input replace post).FailsOnInput s := by
  rw [applyInput_eq]
  exact (settleStatus_fails _ _ _).bind fun _ _ _ => (settleCategory_fails _ _ _).bind
    fun _ _ _ => (settleTags_fails _ _ _).bind fun _ _ _ => failsWith_pure _

theorem savePost_fails [Libraries] (context : Context) {post : Post} (hs : s.Sound)
    (hread : ∀ row, s.posts.row? post.id = some row → Store.Readable row) :
    (savePost context post).FailsOnInput s := fun e t h =>
  edit_fails (Editor.savePost_fails post context.now) e t ((savePost_error_iff hs hread).1 h)

end Api
end Gazette
