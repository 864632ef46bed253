import Gazette.Proofs.Effects
import Gazette.Proofs.Listing

/-!
# Authority

What a request comes to whose caller is no admin: at most one of the effects that are open to
everyone or, if the caller is known, to the caller. Every action checks by itself who calls it and
whose thing it is about, so there is one lemma for each action, and the operations are put together
from them.

A profile is saved with its username trimmed anew. That this changes nothing rests on how users are
saved: the editor trims each username, and neither the interface nor the command line saves a user
past the editor.
-/
namespace Gazette
open StoreProcedure

namespace Store
variable {s t : Store} {id : String}

/-- Whether no stored username has white space around it. -/
def NamesTrimmed (s : Store) : Prop :=
  ∀ user ∈ s.users, Text.trim user.username = user.username

def HasRoom (s : Store) : Prop :=
  ∀ row ∈ s.posts, row.viewCount.HasRoom ∧ row.likes.HasRoom

instance (s : Store) : Decidable s.HasRoom :=
  inferInstanceAs (Decidable (∀ row ∈ s.posts, _))

theorem Sound.update_post (hs : s.Sound) {row : PostRow} (hrow : row ∈ s.posts)
    {f g : PostRow → PostRow} (h : f row = g row) :
    { s with posts := s.posts.update row.id f } = { s with posts := s.posts.update row.id g } :=
  congrArg (fun posts => { s with posts := posts }) (Table.update_congr hs.post_ids hrow h)

theorem recordView_eq (hs : s.Sound) {row : PostRow} (hrow : row ∈ s.posts)
    (hroom : row.viewCount.HasRoom) :
    ∃ n, row.viewCount = .exact n ∧ s.recordView row.id = { s with
      posts := s.posts.update row.id fun row => { row with viewCount := .exact (n + 1) } } := by
  obtain ⟨n, hn, hnext⟩ := hroom.next
  exact ⟨n, hn, hs.update_post hrow (by rw [hnext])⟩

theorem like_eq (hs : s.Sound) {row : PostRow} (hrow : row ∈ s.posts)
    (hroom : row.likes.HasRoom) :
    ∃ n, row.likes = .exact n ∧ s.like row.id = { s with
      posts := s.posts.update row.id fun row => { row with likes := .exact (n + 1) } } := by
  obtain ⟨n, hn, hnext⟩ := hroom.next
  exact ⟨n, hn, hs.update_post hrow (by rw [hnext])⟩

/-- A user who saves a post under an id that no post of somebody else has creates or edits it. -/
theorem OwnEffect.of_savePost {post : Post} (hs : s.Sound) (hsave : s.savePost post = .ok t)
    (hauthor : post.authorId = id) (hown : ∀ row ∈ s.posts, row.id = post.id → row.authorId = id) :
    OwnEffect id s t := by
  obtain ⟨-, -, -, -, rfl⟩ := savePost_ok.1 hsave
  have hlinks : ∀ link ∈ post.tagIds.eraseDups.map (TagLink.mk post.id),
      link.postId = post.id := by
    intro link hlink
    obtain ⟨tagId, -, rfl⟩ := List.mem_map.1 hlink
    rfl
  cases hhas : s.posts.has post.id with
  | true =>
      obtain ⟨row, hrow, hkey⟩ := Table.has_iff.1 hhas
      have hid : row.id = post.id := hkey
      rw [← hid] at hlinks
      rw [Table.put_of_has hs.post_ids hhas, key_postRow]
      show OwnEffect id s { s with
        posts := s.posts.update post.id (PostRow.merge · (PostRow.ofPost post))
        links := s.links.filter (·.postId != post.id) ++ post.tagIds.eraseDups.map (⟨post.id, ·⟩) }
      rw [← hid]
      exact .edited hrow (hown row hrow hid) hid.symm hlinks
  | false =>
      have hkept : s.links.filter (·.postId != post.id) = s.links := by
        refine List.filter_eq_self.2 fun link hlink => bne_iff_ne.2 ?_
        intro hpost
        have hthere := hs.link_post link hlink
        rw [hpost, hhas] at hthere
        cases hthere
      rw [Table.put_of_has_eq_false hhas, hkept]
      exact .posted hhas hauthor hlinks

/-- A user whose row is saved with another email, text and date has changed the profile. -/
theorem OwnEffect.of_saveUser {old user : User} (hs : s.Sound) (hold : old ∈ s.users)
    (hsave : s.saveUser user = .ok t)
    (hmerge : mergeUser old user =
      { old with email := user.email, bio := user.bio, updatedAt := user.updatedAt }) :
    OwnEffect old.id s t := by
  obtain ⟨-, -, rfl⟩ := saveUser_ok.1 hsave
  have hid : old.id = user.id := (congrArg User.id hmerge).symm
  have hhas : s.users.has (Keyed.key user) = true := Table.has_iff.2 ⟨old, hold, hid⟩
  rw [Table.put_of_has hs.user_ids hhas, show Keyed.key user = Keyed.key old from hid.symm]
  rw [Table.update_congr hs.user_ids hold (g := fun old =>
    { old with email := user.email, bio := user.bio, updatedAt := user.updatedAt }) hmerge]
  exact .profile user.email user.bio user.updatedAt

/-- A stored comment that is saved by its author, and not approved thereby, is rephrased. -/
theorem OwnEffect.of_saveComment {old comment : Comment} (hs : s.Sound) (hold : old ∈ s.comments)
    (hsave : s.saveComment comment = .ok t) (hid : comment.id = old.id)
    (happroved : comment.isApproved = old.isApproved) : OwnEffect old.authorId s t := by
  obtain ⟨-, rfl⟩ := saveComment_ok.1 hsave
  have hhas : s.comments.has (Keyed.key comment) = true := Table.has_iff.2 ⟨old, hold, hid.symm⟩
  have hmerge : mergeComment old comment =
      { old with content := comment.content, updatedAt := comment.updatedAt } := by
    rw [mergeComment, happroved]
  rw [Table.put_of_has hs.comment_ids hhas, show Keyed.key comment = Keyed.key old from hid]
  rw [Table.update_congr hs.comment_ids hold (g := fun old =>
    { old with content := comment.content, updatedAt := comment.updatedAt }) hmerge]
  exact .rephrased comment.content comment.updatedAt hold rfl

end Store

namespace Api
open Api.Action Store

theorem Caller.owns_of_mayModify {c : Caller} {ownerId : String} (hc : c.isAdmin = false)
    (h : c.mayModify ownerId = true) : ownerId = c.id := by
  have hid : c.id = ownerId := by simpa [mayModify, hc] using h
  exact hid.symm

theorem viewPost_ok {s t : Store} {slug : String} {view : PostView} (hs : s.Sound)
    (h : (viewPost slug).outcome s = (.ok view, t)) :
    ∃ row ∈ s.posts, s.postOf row = .ok view.post := by
  obtain ⟨row, hrow, -, hshows⟩ := findView?_ok hs (found_lookOr_ok.1 h).1
  exact ⟨row, hrow, hshows.post⟩

theorem ownPost_owned {c : Caller} {slug : String} {post : Post} {s t : Store}
    (hc : c.isAdmin = false) (h : (ownPost c slug).outcome s = (.ok post, t)) :
    ∃ row ∈ s.posts, s.postOf row = .ok post ∧ row.authorId = c.id := by
  obtain ⟨-, row, hrow, hpost, hmay⟩ := ownPost_ok h
  exact ⟨row, List.mem_of_find?_eq_some hrow, hpost, Caller.owns_of_mayModify hc hmay⟩

section Parts
variable {s : Store} {α β : Type} {caller : Option Caller}

theorem reading_leaves {p : Action α} (hp : p.OnlyReads) : p.Leaves s (s.Effect caller) :=
  hp.leaves (effect_refl _ _)

theorem reads_then_leaves {p : Action α} {f : α → Action β} (hp : p.OnlyReads)
    (hf : ∀ a, p.outcome s = (.ok a, s) → (f a).Leaves s (s.Effect caller)) :
    Leaves (p >>= f) s (s.Effect caller) :=
  Leaves.after_reads hp (effect_refl _ _) hf

theorem ensure_then_leaves {holds : Bool} {e : ApiError} {f : Unit → Action β}
    (hf : holds = true → (f ()).Leaves s (s.Effect caller)) :
    Leaves (ensure holds e >>= f) s (s.Effect caller) :=
  reads_then_leaves (ensure_reads _ _) fun _ h => hf (ensure_ok.1 h).1

theorem found_then_leaves {find : Store → Option α} {f : α → Action β}
    (hf : ∀ a, find s = some a → (f a).Leaves s (s.Effect caller)) :
    Leaves ((do found (← look find)) >>= f) s (s.Effect caller) :=
  reads_then_leaves (found_look_reads _) fun a h => hf a (Exchange.found_look_ok.1 h).1

theorem leaves_then_pure {p : Action α} {g : α → β} (hp : p.Leaves s (s.Effect caller)) :
    Leaves (do return g (← p)) s (s.Effect caller) :=
  hp.then_reads fun _ => moves_pure _

theorem change_then_leaves {f : Store → Except StoreError (α × Store)} {b : β}
    (hf : ∀ a t, f s = .ok (a, t) → s.Effect caller t) :
    Leaves (do let _ ← Action.change f; pure b) s (s.Effect caller) :=
  leaves_then_pure (leaves_change (effect_refl _ _) hf)

theorem edit_leaves {p : Editor.Edit α} (hp : p.Atomic)
    (hok : ∀ a t, p.outcome s = (.ok a, t) → s.Effect caller t) :
    (Action.edit p).Leaves s (s.Effect caller) :=
  (hp.leaves (effect_refl _ _) hok).adapt _

end Parts

variable {s : Store} {c : Caller} {context : Context}

theorem readPost_leaves (hs : s.Sound) (hroom : s.HasRoom) {caller : Option Caller}
    (hcaller : isAdmin caller = false) (slug : String) :
    (readPost caller slug).Leaves s (s.Effect caller) := by
  refine reads_then_leaves (found_lookOr_reads _) fun view hview => ?_
  refine ensure_then_leaves fun hvisible => change_then_leaves fun _ t h => ?_
  cases h
  obtain ⟨row, hrow, hpost⟩ := viewPost_ok hs hview
  have hsame := (postOf_ok.1 hpost).2.2
  obtain ⟨n, hn, hrecord⟩ := recordView_eq hs hrow (hroom row hrow).1
  rw [hsame] at hvisible
  rw [hsame, hrecord]
  rcases Bool.or_eq_true_iff.1 hvisible with hactive | hsees
  · exact OpenEffect.effect (.viewed hrow hactive hn)
  · cases caller with
    | none => cases hsees
    | some c => exact OwnEffect.effect (.viewed hrow (Caller.owns_of_mayModify hcaller hsees) hn)

theorem likePost_leaves (hs : s.Sound) (hroom : s.HasRoom) (c : Caller) (slug : String) :
    (likePost slug).Leaves s (s.Effect (some c)) := by
  refine reads_then_leaves (lookOr_reads _) fun read hread => ?_
  refine reads_then_leaves (found_reads _) fun post hfound => ?_
  refine Leaves.then_reads ?_ fun answer => ?_
  · show s.Effect (some c) (s.addLike post.id).2
    obtain ⟨rfl, -⟩ := found_ok.1 hfound
    obtain ⟨row, hfind, hpost⟩ := findPostAt?_ok (lookOr_ok.1 hread).1
    have hrow : row ∈ s.posts := List.mem_of_find?_eq_some hfind
    obtain ⟨n, hn, hlike⟩ := like_eq hs hrow (hroom row hrow).2
    rw [(postOf_ok.1 hpost).2.2]
    rw [addLike_eq_like, hlike]
    exact OwnEffect.effect (.liked hrow hn)
  · cases answer with
    | ok likes => exact moves_pure _
    | error e => exact moves_throw _

/-- Saving a post that an input makes of one of the caller's, or of a new one. -/
theorem savePost_leaves [Libraries] (hs : s.Sound) {base : Post} (hauthor : base.authorId = c.id)
    (hown : ∀ row ∈ s.posts, row.id = base.id → row.authorId = c.id) (input : PostInput)
    (replace : Bool) :
    Leaves (do savePost context (← applyInput input replace base)) s (s.Effect (some c)) := by
  refine reads_then_leaves (applyInput_reads _ _ _) fun given hgiven => ?_
  refine Leaves.then_reads ?_ fun _ => found_lookOr_reads _
  refine edit_leaves (Editor.savePost_atomic given context.now) fun saved t h => ?_
  obtain ⟨hprepare, -, -, hsave⟩ := Editor.savePost_ok.1 h
  have hsaved := (Post.prepare_ok.1 hprepare).2.2
  obtain ⟨-, hbase, -, -, hwriter, -⟩ := applyInput_ok hgiven
  have hid : saved.id = base.id := by rw [hsaved, ← hbase]
  have hsame : saved.authorId = c.id := by rw [hsaved, ← hauthor, ← hwriter]
  exact OwnEffect.effect (.of_savePost hs hsave hsame fun row hrow h => hown row hrow (h.trans hid))

theorem createPost_leaves [Libraries] (hs : s.Sound) (hfresh : s.posts.has context.freshId = false)
    (input : PostInput) : (createPost context c input).Leaves s (s.Effect (some c)) := by
  refine savePost_leaves hs rfl ?_ input true
  intro row hrow hid
  exact absurd hid (Table.has_eq_false_iff.1 hfresh row hrow)

theorem updatePost_leaves [Libraries] (hs : s.Sound) (hc : c.isAdmin = false) (slug : String)
    (input : PostInput) (replace : Bool) :
    (updatePost context c slug input replace).Leaves s (s.Effect (some c)) := by
  refine reads_then_leaves (ownPost_reads _ _) fun post hpost => ?_
  obtain ⟨row, hrow, hread, howner⟩ := ownPost_owned hc hpost
  have hsame := (postOf_ok.1 hread).2.2
  refine savePost_leaves hs (by rw [hsame, howner]) ?_ input replace
  intro other hother hid
  rw [hsame] at hid
  rw [List.inj_on_of_nodup_map hs.post_ids hother hrow hid, howner]

theorem deletePost_leaves (hs : s.Sound) (hc : c.isAdmin = false) (slug : String) :
    (deletePost c slug).Leaves s (s.Effect (some c)) := by
  refine reads_then_leaves (ownPost_reads _ _) fun post hpost => ?_
  obtain ⟨row, hrow, hread, howner⟩ := ownPost_owned hc hpost
  refine change_then_leaves fun found t h => ?_
  rw [(postOf_ok.1 hread).2.2, (deletesExactly hs).post row.id] at h
  split at h
  · cases h
  · cases h
    exact OwnEffect.effect (.withdrawn hrow howner)

theorem createTag_leaves [Libraries] (hfresh : s.tags.has context.freshId = false) (c : Caller)
    (input : TagInput) : (createTag context input).Leaves s (s.Effect (some c)) := by
  unfold createTag
  split
  · exact reading_leaves (moves_throw _)
  · refine edit_leaves (Editor.saveTag_atomic _) fun tag t h => ?_
    obtain ⟨hprepare, hsave⟩ := Editor.saveTag_ok.1 h
    obtain ⟨-, rfl⟩ := saveTag_ok.1 hsave
    have hid : tag.id = context.freshId := by rw [(Tag.prepare_ok.1 hprepare).2.2]
    rw [Table.put_of_has_eq_false (by rw [key_tag, hid, hfresh])]
    exact OwnEffect.effect (.tagged (hid ▸ hfresh))

theorem createComment_leaves (hc : c.isAdmin = false)
    (hfresh : s.comments.has context.freshId = false) (input : NewComment) :
    (createComment context c input).Leaves s (s.Effect (some c)) := by
  refine edit_leaves (Editor.saveComment_atomic _ _) fun saved t h => ?_
  obtain ⟨-, -, hreply⟩ := Editor.saveComment_ok.1 h
  obtain ⟨-, hsave, -⟩ := Editor.saveReply_ok.1 hreply
  obtain ⟨-, rfl⟩ := saveComment_ok.1 hsave
  rw [Table.put_of_has_eq_false hfresh]
  exact OwnEffect.effect (.commented hfresh rfl hc)

theorem updateComment_leaves (hs : s.Sound) (hc : c.isAdmin = false) (id : String)
    (input : CommentChange) : (updateComment context c id input).Leaves s (s.Effect (some c)) := by
  refine found_then_leaves fun old hold => ?_
  refine ensure_then_leaves fun hmay => ensure_then_leaves fun hplain => ?_
  refine edit_leaves (Editor.saveComment_atomic _ _) fun saved t h => ?_
  obtain ⟨-, -, hreply⟩ := Editor.saveComment_ok.1 h
  obtain ⟨-, hsave, -⟩ := Editor.saveReply_ok.1 hreply
  have howner := Caller.owns_of_mayModify hc hmay
  have hunstated : input.isApproved = none := by simpa [hc] using hplain
  have hown := OwnEffect.of_saveComment hs (Table.mem_of_row? hold) hsave rfl
    (by rw [hunstated]; rfl)
  exact (howner ▸ hown).effect

theorem deleteComment_leaves (hs : s.Sound) (hc : c.isAdmin = false) (id : String) :
    (deleteComment c id).Leaves s (s.Effect (some c)) := by
  refine found_then_leaves fun comment hcomment => ?_
  refine ensure_then_leaves fun hmay => change_then_leaves fun found t h => ?_
  have howner := Caller.owns_of_mayModify hc hmay
  rw [(deletesExactly hs).comment comment.id] at h
  split at h
  · cases h
  · cases h
    exact OwnEffect.effect (.retracted (Table.mem_of_row? hcomment) howner)

theorem sendMessage_leaves (hfresh : s.messages.has context.freshId = false)
    (caller : Option Caller) (form : ContactForm) :
    (sendMessage context form).Leaves s (s.Effect caller) := by
  refine edit_leaves (Editor.saveMessage_atomic _) fun saved t h => ?_
  obtain ⟨-, rfl, -⟩ := Editor.saveMessage_ok.1 h
  rw [Store.saveMessage, Table.put_of_has_eq_false hfresh]
  exact OpenEffect.effect (.messaged hfresh rfl)

/-- Whoever registers is stored even if the session that comes with it is refused. -/
theorem register_leaves {caller : Option Caller} (hcaller : isAdmin caller = false)
    (hfresh : s.users.has context.freshId = false) (input : Registration) :
    (register context caller input).Leaves s (s.Effect caller) := by
  unfold register
  rw [hcaller]
  refine reads_then_leaves (look_reads _) fun settings _ => ensure_then_leaves fun _ => ?_
  refine Leaves.bind (fun e t h => ?_) fun user t h => ?_
  · rw [(Editor.saveUser_atomic _ _).adapt _ s e t h]
    exact effect_refl _ _
  · obtain ⟨-, hsave, rfl⟩ := Editor.saveUser_ok.1 (outcome_adapt_ok.1 h)
    obtain ⟨-, -, rfl⟩ := saveUser_ok.1 hsave
    rw [Table.put_of_has_eq_false hfresh]
    refine Leaves.then_reads (leaves_change ?_ ?_) fun _ => moves_pure _
    · exact OpenEffect.effect (.registered_alone hfresh rfl)
    · intro _ t hsession
      obtain ⟨u, hcreate, heq⟩ := Change.of_map_ok hsession
      obtain ⟨-, -, -, rfl⟩ := createSession_ok.1 hcreate
      cases heq
      exact OpenEffect.effect (.registered hfresh rfl (Nat.le_refl 1) (by simp))

theorem updateProfile_leaves (hs : s.Sound) (hnames : s.NamesTrimmed) (input : ProfileChange) :
    (updateProfile context c input).Leaves s (s.Effect (some c)) := by
  refine found_then_leaves fun old hrow => ?_
  refine edit_leaves (Editor.saveUser_atomic _ _) fun saved t h => ?_
  obtain ⟨-, hsave, -⟩ := Editor.saveUser_ok.1 h
  have hmem := Table.mem_of_row? hrow
  have hid : old.id = c.id := Table.key_of_row? hrow
  have hown := OwnEffect.of_saveUser hs hmem hsave (by
    simp [mergeUser, ProfileChange.apply, User.trimmed, hnames old hmem])
  exact (hid ▸ hown).effect

theorem requireAdmin_leaves {α : Type} {f : Unit → Action α} (hc : c.isAdmin = false)
    (caller : Option Caller) : Leaves (requireAdmin c >>= f) s (s.Effect caller) := by
  refine ensure_then_leaves fun hadmin => ?_
  rw [hc] at hadmin
  cases hadmin

theorem markMessage_leaves (hc : c.isAdmin = false) (id : String) (mark : ReadMark) :
    (markMessage c id mark).Leaves s (s.Effect (some c)) := by
  refine reads_then_leaves (readMessage_reads _ _) fun message h => ?_
  obtain ⟨_, hensure, -⟩ := (ensure_reads _ _).then_ok.1 h
  have hadmin := (ensure_ok.1 hensure).1
  rw [hc] at hadmin
  cases hadmin

namespace Exchange
variable {x : Exchange}

def callerIn (x : Exchange) (s : Store) : Option Caller :=
  (x.request.token? x.site.cookieName).bind fun token =>
    (s.authenticate? token x.now).map Caller.ofUser

/-- Who a request comes from can be told from its headers and the time. -/
theorem callerIn_congr {x y : Exchange} {s t : Store} (hsite : x.site = y.site)
    (hheaders : x.request.headers = y.request.headers) (hnow : x.now = y.now)
    (husers : s.users = t.users) (hsessions : s.sessions = t.sessions) :
    x.callerIn s = y.callerIn t := by
  have htoken : ∀ name, x.request.token? name = y.request.token? name := fun name => by
    simp only [Http.Request.token?, Http.Request.bearerToken?, Http.Request.cookie?,
      Http.Request.visibleHeader?, Http.Request.headerValues, hheaders]
  simp only [callerIn, htoken, hsite, hnow, Store.authenticate?, husers, hsessions]

theorem outcome_caller? (x : Exchange) (s : Store) :
    x.caller?.outcome s = (.ok (x.callerIn s), s) := by
  unfold caller? callerIn
  cases x.request.token? x.site.cookieName <;> rfl

theorem caller?_then_leaves {f : Option Caller → Action Http.Response}
    (hf : (f (x.callerIn s)).Leaves s (s.Effect (x.callerIn s))) :
    Leaves (x.caller? >>= f) s (s.Effect (x.callerIn s)) := by
  rw [Leaves, outcome_bind, outcome_caller?]
  exact hf

theorem caller_then_leaves {f : Caller → Action Http.Response}
    (hcaller : isAdmin (x.callerIn s) = false)
    (hf : ∀ c : Caller, c.isAdmin = false → (f c).Leaves s (s.Effect (some c))) :
    Leaves (x.caller >>= f) s (s.Effect (x.callerIn s)) := by
  rw [Leaves, outcome_bind, caller, outcome_bind, outcome_caller?]
  cases h : x.callerIn s with
  | none => exact effect_refl _ _
  | some c =>
      rw [h] at hcaller
      exact hf c hcaller

theorem parameter_then_leaves {caller : Option Caller} {name raw : String}
    {f : String → Action Http.Response} (hf : ∀ slug, (f slug).Leaves s (s.Effect caller)) :
    Leaves (parameter name raw >>= f) s (s.Effect caller) :=
  reads_then_leaves (parameter_reads name raw) fun slug _ => hf slug

theorem input_then_leaves {α : Type} [Input α] {caller : Option Caller}
    {f : α → Action Http.Response} (hf : ∀ a, (f a).Leaves s (s.Effect caller)) :
    Leaves (x.input α >>= f) s (s.Effect caller) :=
  reads_then_leaves (x.input_reads α) fun a _ => hf a

/-- An operation that is asked for by no admin has one of the effects that are open to the
caller. -/
theorem perform_leaves [Libraries] (hs : s.Sound) (hnames : s.NamesTrimmed) (hroom : s.HasRoom)
    (hfresh : s.Unused x.freshId) (hcaller : isAdmin (x.callerIn s) = false) (op : Operation) :
    (x.perform op).Leaves s (s.Effect (x.callerIn s)) := by
  cases op with
  | createPost =>
      exact caller_then_leaves hcaller fun _ _ => input_then_leaves fun _ =>
        leaves_then_pure (createPost_leaves hs hfresh.posts _)
  | readPost raw =>
      exact caller?_then_leaves <| parameter_then_leaves fun _ =>
        leaves_then_pure (readPost_leaves hs hroom hcaller _)
  | replacePost raw =>
      exact caller_then_leaves hcaller fun _ hc => parameter_then_leaves fun _ =>
        input_then_leaves fun _ => leaves_then_pure <|
          ensure_then_leaves fun _ => updatePost_leaves hs hc _ _ _
  | updatePost raw =>
      exact caller_then_leaves hcaller fun _ hc => parameter_then_leaves fun _ =>
        input_then_leaves fun _ => leaves_then_pure (updatePost_leaves hs hc _ _ _)
  | deletePost raw =>
      exact caller_then_leaves hcaller fun _ hc => parameter_then_leaves fun _ =>
        leaves_then_pure (deletePost_leaves hs hc _)
  | likePost raw =>
      exact caller_then_leaves hcaller fun c _ => parameter_then_leaves fun _ =>
        leaves_then_pure (likePost_leaves hs hroom c _)
  | createCategory =>
      exact caller_then_leaves hcaller fun _ hc => input_then_leaves fun _ =>
        leaves_then_pure (requireAdmin_leaves hc _)
  | replaceCategory raw =>
      exact caller_then_leaves hcaller fun _ hc => parameter_then_leaves fun _ =>
        input_then_leaves fun _ => leaves_then_pure (requireAdmin_leaves hc _)
  | updateCategory raw =>
      exact caller_then_leaves hcaller fun _ hc => parameter_then_leaves fun _ =>
        input_then_leaves fun _ => leaves_then_pure (requireAdmin_leaves hc _)
  | deleteCategory raw =>
      exact caller_then_leaves hcaller fun _ hc => parameter_then_leaves fun _ =>
        leaves_then_pure (requireAdmin_leaves hc _)
  | createTag =>
      exact caller_then_leaves hcaller fun c _ => input_then_leaves fun _ =>
        leaves_then_pure (createTag_leaves hfresh.tags c _)
  | updateTag raw =>
      exact caller_then_leaves hcaller fun _ hc => parameter_then_leaves fun _ =>
        input_then_leaves fun _ => leaves_then_pure (requireAdmin_leaves hc _)
  | deleteTag raw =>
      exact caller_then_leaves hcaller fun _ hc => parameter_then_leaves fun _ =>
        leaves_then_pure (requireAdmin_leaves hc _)
  | createComment =>
      exact caller_then_leaves hcaller fun _ hc => input_then_leaves fun _ =>
        leaves_then_pure (createComment_leaves hc hfresh.comments _)
  | updateComment raw =>
      exact caller_then_leaves hcaller fun _ hc => parameter_then_leaves fun _ =>
        input_then_leaves fun _ => leaves_then_pure (updateComment_leaves hs hc _ _)
  | deleteComment raw =>
      exact caller_then_leaves hcaller fun _ hc => parameter_then_leaves fun _ =>
        leaves_then_pure (deleteComment_leaves hs hc _)
  | sendMessage =>
      exact input_then_leaves fun _ => leaves_then_pure (sendMessage_leaves hfresh.messages _ _)
  | markMessage raw =>
      exact caller_then_leaves hcaller fun _ hc => parameter_then_leaves fun _ =>
        input_then_leaves fun _ => leaves_then_pure (markMessage_leaves hc _ _)
  | deleteMessage raw =>
      exact caller_then_leaves hcaller fun _ hc => parameter_then_leaves fun _ =>
        leaves_then_pure (requireAdmin_leaves hc _)
  | updateSettings =>
      exact caller_then_leaves hcaller fun _ hc => input_then_leaves fun _ =>
        leaves_then_pure (requireAdmin_leaves hc _)
  | register =>
      exact caller?_then_leaves <| input_then_leaves fun _ =>
        leaves_then_pure (register_leaves hcaller hfresh.users _)
  | updateSelf =>
      exact caller_then_leaves hcaller fun _ _ => input_then_leaves fun _ =>
        leaves_then_pure (updateProfile_leaves hs hnames _)
  | deleteUser raw =>
      exact caller_then_leaves hcaller fun _ hc => parameter_then_leaves fun _ =>
        leaves_then_pure (requireAdmin_leaves hc _)
  | _ => exact reading_leaves (x.perform_reads fun _ h => h.2)

theorem effect_after [Libraries] (hs : s.Sound) (hnames : s.NamesTrimmed) (hroom : s.HasRoom)
    (hfresh : s.Unused x.freshId) (hcaller : isAdmin (x.callerIn s) = false) :
    s.Effect (x.callerIn s) (x.after s) := by
  have hunguarded : x.unguarded.Leaves s (s.Effect (x.callerIn s)) := by
    unfold unguarded
    split
    · exact reading_leaves (moves_pure _)
    · exact reading_leaves (moves_pure _)
    · exact perform_leaves hs hnames hroom hfresh hcaller _
  rcases x.answer_run s with ⟨-, hafter, -⟩ | ⟨hafter, -⟩
  · rw [after, hafter]
    exact effect_refl _ _
  · rw [after, hafter]
    exact reads_then_leaves x.guard_reads fun _ _ => hunguarded

end Exchange
end Api

theorem Store.namesTrimmed_fresh : Database.fresh.store.NamesTrimmed := by
  rw [Database.fresh_store]
  intro user huser
  cases huser

/-- A change leaves all users as the rules of content have them, if a user that it saves went
through these. -/
theorem Change.keeps_users [Libraries] {P : User → Prop} {change : Change} {s t : Store}
    (h : change.apply s = .ok t) (hs : s.Sound)
    (hprepared : ∀ user, change = .saveUser user → change.Prepared)
    (hrules : ∀ (given : User) (joined now : Timestamp), given.trimmed.validate = .ok () →
      P { given.trimmed with dateJoined := joined, updatedAt := now })
    (hold : ∀ user ∈ s.users, P user) : ∀ user ∈ t.users, P user := by
  rcases (apply_keeps h hs).users with ⟨user, rfl⟩ | ⟨p, hp⟩
  · obtain ⟨given, now, hvalid, rfl⟩ := hprepared user rfl
    obtain ⟨-, -, rfl⟩ := Store.saveUser_ok.1 h
    have hrow := fun joined => hrules given joined now hvalid
    generalize given.trimmed = trimmed at hrow ⊢
    exact Table.forall_put hold (hrow trimmed.dateJoined) fun old _ => hrow old.dateJoined
  · intro user huser
    rw [hp] at huser
    exact hold user (List.mem_filter.1 huser).1

namespace Call

/-- Where users are only saved through the editor, all of them are as the rules of content have
them. -/
theorem run_keeps_users [Libraries] {P : User → Prop} {calls : List Call} {s : Store}
    (hcalls : ∀ user, .direct (.saveUser user) ∉ calls) (hs : s.Sound)
    (hrules : ∀ (given : User) (joined now : Timestamp), given.trimmed.validate = .ok () →
      P { given.trimmed with dateJoined := joined, updatedAt := now })
    (hold : ∀ user ∈ s.users, P user) : ∀ user ∈ (run calls s).users, P user := by
  refine run_keeps_of_sound (I := fun t => ∀ user ∈ t.users, P user) ?_ hs hold
  intro call hcall change t u hmakes happly ht
  refine Change.keeps_users happly ht ?_ hrules
  rintro user rfl
  refine prepared_of_makes hmakes ?_
  rintro rfl
  exact hcalls user hcall

/-- Whatever was asked of a database, as long as users were only saved through the editor: a
request of somebody who is no admin has at most one of the effects that are open to everyone or,
if the caller is known, to the caller. Nobody's rights change, and no comment is approved. -/
theorem authority_is_bounded [Libraries] {calls : List Call}
    (hcalls : ∀ user, .direct (.saveUser user) ∉ calls) {s : Store}
    (hrun : run calls Database.fresh.store = s) (hroom : s.HasRoom) (x : Api.Exchange)
    (hfresh : s.Unused x.freshId) (hcaller : Api.isAdmin (x.callerIn s) = false) :
    s.Effect (x.callerIn s) (x.after s) ∧
      (x.callerIn s = none → s.OpenEffect (x.after s)) ∧ s.KeepsRights (x.after s) := by
  have hs : s.Sound := hrun ▸ run_keeps_sound calls Database.sound_fresh
  have hnames : s.NamesTrimmed :=
    hrun ▸ run_keeps_users hcalls Database.sound_fresh
      (fun given _ _ _ => Text.trim_trim given.username) Store.namesTrimmed_fresh
  have heffect := Api.Exchange.effect_after hs hnames hroom hfresh hcaller
  refine ⟨heffect, ?_, heffect.keepsRights hs⟩
  intro hnone
  rw [hnone] at heffect
  exact heffect.open_of_none

end Call

attribute [local instance] Libraries.bare

namespace Sample

def member : User :=
  { admin with id := "u2", username := "bob", email := "bob@example.com", isAdmin := false }

def joined : List Call :=
  [.submit (.user member (.ofSeconds 0)),
    .direct (.createSession "session" "token" member.id 1 (.ofSeconds 0)),
    .request (request 5 "p1" .post "/api/posts" "\x7b\"title\":\"Hello\"\x7d")]

def rename : Api.Exchange :=
  request 6 "p2" .patch "/api/posts/hello" "\x7b\"title\":\"New\"\x7d"

end Sample

/-- The member may rename the post, and nothing comes of it but that. -/
theorem Call.authority_is_bounded_of_renamed :
    let s := run Sample.joined Database.fresh.store
    (s.Effect (Sample.rename.callerIn s) (Sample.rename.after s) ∧
      (Sample.rename.callerIn s = none → s.OpenEffect (Sample.rename.after s)) ∧
        s.KeepsRights (Sample.rename.after s)) ∧
      Sample.rename.callerIn s = some (.ofUser Sample.member) ∧
        (Sample.rename.after s).posts.map (·.title) = ["New"] := by
  have hcalls : ∀ user, .direct (.saveUser user) ∉ Sample.joined := by
    simp [Sample.joined]
  exact ⟨authority_is_bounded hcalls rfl (by decide +kernel) Sample.rename (by decide +kernel)
    (by decide +kernel), by decide +kernel, by decide +kernel⟩

end Gazette
