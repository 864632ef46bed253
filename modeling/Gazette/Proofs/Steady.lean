import Gazette.Proofs.Limits
import Gazette.Proofs.Tally

/-!
# Steady actions

What an action can fail with while the database works. Every stored post can be read as long as its
counters are exact, and the store explains what it refuses, except the deletion of what stands at
the start of too long a chain of references. So no action ends in an internal error, unless it
deletes such a thing.
-/
namespace Gazette
open StoreProcedure

theorem exists_mapM_ok {ε α β : Type} {f : α → Except ε β} {o : Option α}
    (h : ∀ a ∈ o, ∃ b, f a = .ok b) : ∃ found, o.mapM f = .ok found := by
  cases o with
  | none => exact ⟨none, rfl⟩
  | some a =>
      obtain ⟨b, hb⟩ := h a rfl
      rw [Option.mapM_some, hb]
      exact ⟨some b, rfl⟩

namespace Store
variable {s : Store}

/-- Every row is read back from its record. Every stored post can be read in every way, and no
look-up and no listing of posts fails. -/
structure ReadsAll (s : Store) : Prop where
  users : ∀ user ∈ s.users, User.ofRecord user.record = .ok user
  categories : ∀ category ∈ s.categories, Category.ofRecord category.record = .ok category
  tags : ∀ tag ∈ s.tags, Tag.ofRecord tag.record = .ok tag
  comments : ∀ comment ∈ s.comments, Comment.ofRecord comment.record = .ok comment
  messages : ∀ message ∈ s.messages, ContactMessage.ofRecord message.record = .ok message
  settings : ∀ settings ∈ s.settings, SiteSettings.ofRecord settings.record = .ok settings
  posts : ∀ row ∈ s.posts, ∃ views likes, row.viewCount = .exact views ∧
    row.likes = .exact likes ∧ Post.ofRecord row.record = .ok (row.shown views likes)
  rows : ∀ row ∈ s.posts, s.Reads row
  by_id : ∀ id, ∃ found, s.findPost? id = .ok found
  at_slug : ∀ slug, ∃ found, s.findPostAt? slug = .ok found
  view : ∀ slug, ∃ found, s.findView? slug = .ok found
  listed : ∀ filter : PostFilter, (∀ limit, filter.limit = some limit → limit < 2 ^ 63) →
    ∃ views, s.listPosts filter = .ok views

theorem readsAll (hs : s.Sound) (hread : ∀ row ∈ s.posts, Readable row) : s.ReadsAll where
  users user _ := user.ofRecord_record
  categories category _ := category.ofRecord_record
  tags tag _ := tag.ofRecord_record
  comments comment _ := comment.ofRecord_record
  messages message _ := message.ofRecord_record
  settings settings _ := settings.ofRecord_record
  posts row hrow := ofRecord_of_readable (hread row hrow)
  rows := (reads_iff hs).2 hread
  by_id _ := exists_mapM_ok fun row hrow => exists_postOf.2 (hread row (Table.mem_of_row? hrow))
  at_slug _ := exists_mapM_ok fun row hrow =>
    exists_postOf.2 (hread row (List.mem_of_find?_eq_some hrow))
  view _ := exists_mapM_ok fun joined hjoined => by
    have hrow := (joins_of_mem hs (List.mem_of_find?_eq_some hjoined)).row
    obtain ⟨post, hpost⟩ := (exists_postOf (s := s)).2 (hread joined.row hrow)
    obtain ⟨view, hview, -⟩ := viewOf_ok joined hpost
    exact ⟨view, hview⟩
  listed filter hlimit := exists_listPosts filter hs hread hlimit

theorem createSession_error {id token userId : String} {hours : Nat} {now : Timestamp}
    {e : StoreError} (h : s.createSession id token userId hours now = .error e) :
    e.isConstraint = true := by
  unfold createSession at h
  by_cases hlate : lastSecond < expiry now hours
  · rw [if_pos hlate] at h
    cases h
    rfl
  · rw [if_neg hlate] at h
    by_cases htaken : s.sessions.any (·.token == token) = true
    · rw [if_pos htaken] at h
      cases h
      rfl
    · rw [if_neg htaken] at h
      by_cases hid : s.sessions.has id = true
      · rw [if_pos hid] at h
        cases h
        rfl
      · rw [if_neg hid] at h
        exact Change.requireRows_then_constraint h nofun

end Store

namespace Change
variable {s : Store} {change : Change}

/-- A change is refused for a rule of the store, or because a deletion would go too deep. -/
theorem refusal (hs : s.Sound) {e : StoreError} (h : change.apply s = .error e) :
    e.isConstraint = true ∨
      e = .cascadeTooDeep ∧ ∃ root, change.root? = some root ∧ s.TooDeep root := by
  have hdeletion : ∀ {root : Entry} {result : Except StoreError (Bool × Store)}
      {answer : Bool × Store}, change.root? = some root →
      result = (open Classical in if s.TooDeep root then .error .cascadeTooDeep else .ok answer) →
      result.map (·.2) = .error e →
        e = .cascadeTooDeep ∧ ∃ root, change.root? = some root ∧ s.TooDeep root := by
    intro root result answer hroot hresult herror
    split at hresult
    · rw [hresult] at herror
      exact ⟨(Except.error.inj herror).symm, root, hroot, ‹_›⟩
    · rw [hresult] at herror
      cases herror
  have hsave : change.IsSave → e.isConstraint = true := fun hsave => isConstraint_of_save hsave h
  have hexact := Store.deletesExactly hs
  cases change with
  | deleteUser id => exact .inr (hdeletion rfl (hexact.user id) h)
  | deletePost id => exact .inr (hdeletion rfl (hexact.post id) h)
  | deleteComment id => exact .inr (hdeletion rfl (hexact.comment id) h)
  | createSession id token userId hours now => exact .inl (Store.createSession_error h)
  | saveUser | saveCategory | saveTag | savePost | saveComment | saveMessage | saveSettings =>
      exact .inl (hsave trivial)
  | _ => cases h

end Change

namespace Api
open Api.Action

/-- Whether a client is told what the store refuses: that a rule of the store is broken, with the
status 409, or that a row is missing, with the status 404. -/
def ExplainsRefusal (e : StoreError) : Prop :=
  e.isConstraint = true ∧ (ApiError.ofStore e).status = 409 ∨
    (∃ id, e = .noSuchPost id) ∧ (ApiError.ofStore e).status = 404

theorem explainsRefusal_of_isConstraint {e : StoreError} (h : e.isConstraint = true) :
    ExplainsRefusal e := by
  refine .inl ⟨h, ?_⟩
  simp [ApiError.ofStore, h, ApiError.status]

theorem ExplainsRefusal.ne_internal {e : StoreError} (h : ExplainsRefusal e) :
    ApiError.ofStore e ≠ .internal := by
  intro hinternal
  rw [ExplainsRefusal, hinternal] at h
  simp [ApiError.status] at h

theorem ApiError.IsAboutInput.ne_internal {e : ApiError} (h : e.IsAboutInput) :
    e ≠ .internal := by
  rintro rfl
  exact h

theorem ApiError.status_ne_iff {e : ApiError} : e.status ≠ 500 ↔ e ≠ .internal := by
  cases e with
  | rejected cause => cases cause <;> simp [ApiError.status, Rejection.status]
  | _ => simp [ApiError.status]

/-- An action does not end in an internal error. -/
abbrev Action.Steady {α : Type} (p : Action α) (s : Store) : Prop :=
  p.FailsWith (· ≠ .internal) s

structure Action.Answers (p : Action Http.Response) (s : Store) : Prop where
  steady : p.Steady s
  status : ∀ response t, p.outcome s = (.ok response, t) → response.status ≠ 500

section Rules
variable {α β : Type} {s : Store}

theorem Action.FailsOnInput.steady {p : Action α} (h : p.FailsOnInput s) : p.Steady s :=
  h.imp fun _ => ApiError.IsAboutInput.ne_internal

theorem ensure_then_steady {holds : Bool} {e : ApiError} {f : Unit → Action α}
    (he : e ≠ .internal) (hf : holds = true → (f ()).Steady s) :
    Action.Steady (ensure holds e >>= f) s := by
  cases holds with
  | false => exact FailsWith.bind (failsWith_throw he) nofun
  | true => exact hf rfl

theorem ensure_steady (holds : Bool) {e : ApiError} (he : e ≠ .internal) :
    (ensure holds e).Steady s := by
  cases holds with
  | false => exact failsWith_throw he
  | true => exact failsWith_pure ()

theorem once_steady (f : Store → α × Store) :
    Action.Steady (ExceptT.mk (.once fun s => (.ok (f s).1, (f s).2))) s := by
  intro e t h
  cases h

theorem found_steady (found? : Option α) : (found found?).Steady s := by
  cases found? with
  | none => exact failsWith_throw ApiError.noConfusion
  | some a => exact failsWith_pure a

theorem found_look_steady (f : Store → Option α) : Action.Steady (do found (← look f)) s :=
  (failsWith_read f).bind fun found? _ _ => found_steady found?

theorem found_look_then_steady {find : Store → Option α} {f : α → Action β}
    (hf : ∀ a, find s = some a → (f a).Steady s) :
    Action.Steady ((do found (← look find)) >>= f) s :=
  (found_look_steady find).then_reads (found_look_reads find) fun a ha =>
    hf a (Exchange.found_look_ok.1 ha).1

theorem found_lookOr_steady {f : Store → Except StoreError (Option α)}
    (h : ∃ found?, f s = .ok found?) : Action.Steady (do found (← lookOr f)) s :=
  (failsWith_readOr h).bind fun found? _ _ => found_steady found?

theorem change_steady {f : Store → Except StoreError (α × Store)}
    (h : ∀ e, f s = .error e → ExplainsRefusal e) : (change f).Steady s :=
  failsWith_change fun e he => (h e he).ne_internal

theorem change_ok_steady (f : Store → α × Store) : (change fun s => .ok (f s)).Steady s :=
  failsWith_change fun _ h => nomatch h

/-- After what only looks at the store, the rest starts where everything started. -/
theorem Action.Answers.after_reads {p : Action α} {f : α → Action Http.Response}
    (hp : p.Steady s) (hreads : p.OnlyReads)
    (hf : ∀ a, p.outcome s = (.ok a, s) → (f a).Answers s) : Action.Answers (p >>= f) s where
  steady := hp.then_reads hreads fun a ha => (hf a ha).steady
  status response t h := by
    obtain ⟨a, ha, hrest⟩ := hreads.then_ok.1 h
    exact (hf a ha).status response t hrest

theorem Action.Steady.answers {p : Action α} {g : α → Http.Response} (hp : p.Steady s)
    (hg : ∀ a, (g a).status ≠ 500) : Action.Answers (do return g (← p)) s where
  steady := hp.bind fun _ _ _ => failsWith_pure _
  status response t h := by
    obtain ⟨a, -, rfl⟩ := outcome_then_pure_ok.1 h
    exact hg a

theorem shown_answers {toJson : α → Json} {p : Action α} (hp : p.Steady s) :
    (Exchange.shown toJson p).Answers s :=
  hp.answers fun _ => (by omega : 200 ≠ 500)

theorem shownAll_answers {toJson : α → Json} {p : Action (List α)} (hp : p.Steady s) :
    (Exchange.shownAll toJson p).Answers s :=
  hp.answers fun _ => (by omega : 200 ≠ 500)

theorem created_answers {toJson : α → Json} {p : Action α} (hp : p.Steady s) :
    (Exchange.created toJson p).Answers s :=
  hp.answers fun _ => (by omega : 201 ≠ 500)

theorem removed_answers {p : Action Unit} (hp : p.Steady s) : (Exchange.removed p).Answers s :=
  hp.answers fun _ => (by omega : 204 ≠ 500)

end Rules

section Operations
variable {s : Store} {context : Context} {caller : Caller}

theorem edit_steady {α : Type} {p : Editor.Edit α} (h : p.FailsOnInput s) : (edit p).Steady s :=
  (edit_fails h).steady

theorem listPosts_steady (hall : s.ReadsAll) {filter : PostFilter}
    (hlimit : ∀ limit, filter.limit = some limit → limit < 2 ^ 63) : (listPosts filter).Steady s :=
  failsWith_readOr (hall.listed filter hlimit)

theorem readHome_steady (hall : s.ReadsAll) : readHome.Steady s := by
  refine (failsWith_read _).then_reads (look_reads _) fun settings _ => ?_
  refine (listPosts_steady hall ?_).bind fun _ _ _ => failsWith_pure _
  rintro limit hlimit
  cases hlimit
  decide

theorem readPost_steady (hall : s.ReadsAll) (reader : Option Caller) (slug : String) :
    (readPost reader slug).Steady s := by
  refine (found_lookOr_steady (hall.view slug)).then_reads (found_lookOr_reads _) fun view _ => ?_
  refine ensure_then_steady ApiError.noConfusion fun _ => ?_
  exact (change_ok_steady _).bind fun _ _ _ => failsWith_pure _

theorem ownPost_steady (hall : s.ReadsAll) (caller : Caller) (slug : String) :
    (ownPost caller slug).Steady s := by
  refine (failsWith_readOr (hall.at_slug slug)).then_reads (lookOr_reads _) fun post? _ => ?_
  refine (found_steady post?).then_reads (found_reads _) fun post _ => ?_
  exact ensure_then_steady ApiError.noConfusion fun _ => failsWith_pure _

theorem savePost_steady [Libraries] (hs : s.Sound) (hread : ∀ row ∈ s.posts, Store.Readable row)
    (input : PostInput) (replace : Bool) (base : Post) :
    Action.Steady (do savePost context (← applyInput input replace base)) s :=
  (applyInput_fails _ _ _).steady.then_reads (applyInput_reads _ _ _) fun _ _ =>
    (savePost_fails context hs fun _ hrow => hread _ (Table.mem_of_row? hrow)).steady

theorem updatePost_steady [Libraries] (hs : s.Sound) (hread : ∀ row ∈ s.posts, Store.Readable row)
    (slug : String) (input : PostInput) (replace : Bool) :
    (updatePost context caller slug input replace).Steady s :=
  (ownPost_steady (Store.readsAll hs hread) _ _).then_reads (ownPost_reads _ _) fun _ _ =>
    savePost_steady hs hread input replace _

/-- A post is deleted without an internal error unless what goes with it goes too deep. -/
theorem deletePost_steady (hs : s.Sound) (hread : ∀ row ∈ s.posts, Store.Readable row)
    {slug : String} (hshallow : ∀ row, s.findPostRowAt? slug = some row →
      caller.mayModify row.authorId = true → ¬ s.TooDeep (.post row.id)) :
    (deletePost caller slug).Steady s := by
  refine (ownPost_steady (Store.readsAll hs hread) _ _).then_reads (ownPost_reads _ _) ?_
  intro post hown
  obtain ⟨-, row, hat, hpost, hmay⟩ := ownPost_ok hown
  refine FailsWith.bind (change_steady fun e h => ?_) fun _ _ _ => failsWith_pure _
  rw [(Store.deletesExactly hs).post, (Store.postOf_ok.1 hpost).2.2,
    if_neg (hshallow row hat hmay)] at h
  cases h

theorem likePost_steady (hall : s.ReadsAll) {slug : String}
    (hroom : ∀ row, s.findPostRowAt? slug = some row →
      ∀ stored, s.posts.row? row.id = some stored → stored.likes.next ≠ .inexact) :
    (likePost slug).Steady s := by
  refine (failsWith_readOr (hall.at_slug slug)).then_reads (lookOr_reads _) fun post? hlook => ?_
  refine (found_steady post?).then_reads (found_reads _) fun post hfound => ?_
  obtain ⟨rfl, -⟩ := found_ok.1 hfound
  obtain ⟨row, hat, hpost⟩ := findPostAt?_ok (lookOr_ok.1 hlook).1
  refine FailsWith.bind (once_steady (Store.addLike post.id)) fun answer t hanswer => ?_
  cases answer with
  | ok likes => exact failsWith_pure _
  | error e =>
      have hadd : (s.addLike post.id).1 = .error e := Except.ok.inj (congrArg Prod.fst hanswer)
      rw [(Store.postOf_ok.1 hpost).2.2] at hadd
      rw [Store.addLike_error (hroom row hat) hadd]
      exact failsWith_throw ApiError.noConfusion

theorem createCategory_steady [Libraries] (input : CategoryInput) :
    (createCategory context caller input).Steady s :=
  ensure_then_steady ApiError.noConfusion fun _ => ensure_then_steady ApiError.noConfusion fun _ =>
    edit_steady (Editor.saveCategory_fails _)

theorem updateCategory_steady [Libraries] (slug : String) (input : CategoryInput) (replace : Bool) :
    (updateCategory caller slug input replace).Steady s :=
  ensure_then_steady ApiError.noConfusion fun _ => ensure_then_steady ApiError.noConfusion fun _ =>
    found_look_then_steady fun _ _ => edit_steady (Editor.saveCategory_fails _)

theorem deleteCategory_steady (slug : String) : (deleteCategory caller slug).Steady s :=
  ensure_then_steady ApiError.noConfusion fun _ => found_look_then_steady fun _ _ =>
    (change_ok_steady _).bind fun _ _ _ => failsWith_pure _

theorem listCategoryPosts_steady (hall : s.ReadsAll) (slug : String) {filter : PostFilter}
    (hlimit : filter.limit = none) : (listCategoryPosts slug filter).Steady s :=
  found_look_then_steady fun _ _ => listPosts_steady hall fun _ h =>
    nomatch hlimit.symm.trans h

theorem createTag_steady [Libraries] (input : TagInput) : (createTag context input).Steady s := by
  unfold createTag
  cases input.name with
  | none => exact failsWith_throw ApiError.noConfusion
  | some name => exact edit_steady (Editor.saveTag_fails _)

theorem updateTag_steady [Libraries] (slug : String) (input : TagInput) :
    (updateTag caller slug input).Steady s :=
  ensure_then_steady ApiError.noConfusion fun _ => found_look_then_steady fun _ _ =>
    edit_steady (Editor.saveTag_fails _)

theorem deleteTag_steady (slug : String) : (deleteTag caller slug).Steady s :=
  ensure_then_steady ApiError.noConfusion fun _ => found_look_then_steady fun _ _ =>
    (change_ok_steady _).bind fun _ _ _ => failsWith_pure _

theorem createComment_steady (hall : s.ReadsAll) (input : NewComment) :
    (createComment context caller input).Steady s :=
  edit_steady (Editor.saveComment_fails _ _ (hall.by_id _))

theorem readComment_steady (reader : Option Caller) (id : String) :
    (readComment reader id).Steady s :=
  found_look_then_steady fun _ _ =>
    ensure_then_steady ApiError.noConfusion fun _ => failsWith_pure _

theorem updateComment_steady (hall : s.ReadsAll) (id : String) (input : CommentChange) :
    (updateComment context caller id input).Steady s :=
  found_look_then_steady fun _ _ =>
    ensure_then_steady ApiError.noConfusion fun _ =>
      ensure_then_steady ApiError.noConfusion fun _ =>
        edit_steady (Editor.saveComment_fails _ _ (hall.by_id _))

/-- A comment is deleted without an internal error unless the replies to it go too deep. -/
theorem deleteComment_steady (hs : s.Sound) {id : String}
    (hshallow : ∀ comment, s.comments.row? id = some comment →
      caller.mayModify comment.authorId = true → ¬ s.TooDeep (.comment comment.id)) :
    (deleteComment caller id).Steady s := by
  refine found_look_then_steady fun comment hfound => ?_
  refine ensure_then_steady ApiError.noConfusion fun hmay => ?_
  refine FailsWith.bind (change_steady fun e h => ?_) fun _ _ _ => failsWith_pure _
  rw [(Store.deletesExactly hs).comment,
    if_neg (hshallow comment hfound hmay)] at h
  cases h

theorem sendMessage_steady (form : ContactForm) : (sendMessage context form).Steady s :=
  edit_steady (Editor.saveMessage_fails _)

theorem listMessages_steady : (listMessages caller).Steady s :=
  ensure_then_steady ApiError.noConfusion fun _ => failsWith_read _

theorem readMessage_steady (id : String) : (readMessage caller id).Steady s :=
  ensure_then_steady ApiError.noConfusion fun _ => found_look_steady _

theorem markMessage_steady (id : String) (mark : ReadMark) :
    (markMessage caller id mark).Steady s :=
  (readMessage_steady id).then_reads (readMessage_reads _ _) fun _ _ =>
    edit_steady (Editor.saveMessage_fails _)

theorem deleteMessage_steady (id : String) : (deleteMessage caller id).Steady s :=
  ensure_then_steady ApiError.noConfusion fun _ =>
    (change_ok_steady _).bind fun _ _ _ => ensure_steady _ ApiError.noConfusion

theorem updateSettings_steady (input : SettingsInput) :
    (updateSettings context caller input).Steady s :=
  ensure_then_steady ApiError.noConfusion fun _ =>
    (failsWith_read _).then_reads (look_reads _) fun _ _ =>
      edit_steady (Editor.saveSettings_fails _ _)

/-- Whoever registers is refused for what is stated, or because no session can be added. -/
theorem enrol_steady (given : User) : (enrol context given).Steady s := by
  refine (edit_steady (Editor.saveUser_fails _ _)).bind fun user t _ => ?_
  refine FailsWith.bind (change_steady fun e h => ?_) fun _ _ _ => failsWith_pure _
  cases hcreate : t.createSession context.freshSessionId context.freshToken user.id
      context.sessionHours context.now with
  | ok u =>
      rw [hcreate] at h
      cases h
  | error cause =>
      rw [hcreate] at h
      cases h
      exact explainsRefusal_of_isConstraint (Store.createSession_error hcreate)

theorem register_steady (reader : Option Caller) (input : Registration) :
    (register context reader input).Steady s := by
  unfold register
  split
  · refine (failsWith_read _).then_reads (look_reads _) fun _ _ => ?_
    exact ensure_then_steady ApiError.noConfusion fun _ => enrol_steady _
  · exact enrol_steady _

theorem readUser_steady (id : String) : (readUser id).Steady s :=
  found_look_steady _

theorem updateProfile_steady (input : ProfileChange) :
    (updateProfile context caller input).Steady s :=
  found_look_then_steady fun _ _ => edit_steady (Editor.saveUser_fails _ _)

/-- A user is deleted without an internal error unless what goes with the user goes too deep. -/
theorem deleteUser_steady (hs : s.Sound) {id : String}
    (hshallow : caller.isAdmin = true → ¬ s.TooDeep (.user id)) :
    (deleteUser caller id).Steady s := by
  refine ensure_then_steady ApiError.noConfusion fun hadmin => ?_
  refine FailsWith.bind (change_steady fun e h => ?_) fun _ _ _ =>
    ensure_steady _ ApiError.noConfusion
  rw [(Store.deletesExactly hs).user, if_neg (hshallow hadmin)] at h
  cases h

end Operations
end Api
end Gazette
