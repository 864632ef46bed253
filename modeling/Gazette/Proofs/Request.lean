import Gazette.Api.Answer
import Gazette.Proofs.Editor

/-!
# Requests

What the steps of a request may do to the store. Most of them only look at it. The others are
changes, and of the things with a slug an operation writes those of one kind at most, after they
went through the rules of content.
-/
namespace Gazette.Api
open StoreProcedure Change

def Operation.writes? : Operation → Option Kind
  | .createPost | .replacePost _ | .updatePost _ => some .post
  | .createCategory | .replaceCategory _ | .updateCategory _ => some .category
  | .createTag | .updateTag _ => some .tag
  | _ => none

def Operation.creates : Operation → Bool
  | .createPost | .createCategory | .createTag => true
  | _ => false

/-- Whether an operation may make a change. An operation that writes what has a slug makes no
change of another kind. -/
structure Operation.Allows [Libraries] (op : Operation) (change : Change) : Prop where
  prepared : change.Prepared
  kind : change.written?.map Prod.fst = op.writes?

def Operation.savesComment : Operation → Bool
  | .createComment | .updateComment _ => true
  | _ => false

def Operation.Counts : Operation → Prop
  | .readPost _ | .likePost _ => True
  | _ => False

/-- Whether an operation may make a change, and neither saves a comment nor counts anything unless
it is there for it. -/
structure Operation.May [Libraries] (op : Operation) (change : Change) :
    Prop extends op.Allows change where
  comment : change.savesComment = op.savesComment
  counts : change.Counts ↔ op.Counts

/-- Whether an operation is there for a change. What is saved has gone through the rules of
content. -/
def Operation.IsFor [Libraries] (op : Operation) (change : Change) : Prop :=
  change.Prepared ∧
    match op with
    | .createPost | .replacePost _ | .updatePost _ => ∃ post, change = .savePost post
    | .readPost _ => ∃ id, change = .recordView id
    | .deletePost _ => ∃ id, change = .deletePost id
    | .likePost _ => ∃ id, change = .addLike id
    | .createCategory | .replaceCategory _ | .updateCategory _ =>
        ∃ category, change = .saveCategory category
    | .deleteCategory _ => ∃ id, change = .deleteCategory id
    | .createTag | .updateTag _ => ∃ tag, change = .saveTag tag
    | .deleteTag _ => ∃ id, change = .deleteTag id
    | .createComment | .updateComment _ => ∃ comment, change = .saveComment comment
    | .deleteComment _ => ∃ id, change = .deleteComment id
    | .sendMessage | .markMessage _ => ∃ message, change = .saveMessage message
    | .deleteMessage _ => ∃ id, change = .deleteMessage id
    | .updateSettings => ∃ settings, change = .saveSettings settings
    | .register =>
        (∃ user, change = .saveUser user) ∨
          ∃ id token userId hours now, change = .createSession id token userId hours now
    | .updateSelf => ∃ user, change = .saveUser user
    | .deleteUser _ => ∃ id, change = .deleteUser id
    | _ => False

theorem Operation.IsFor.may [Libraries] {op : Operation} {change : Change} (h : op.IsFor change) :
    op.May change := by
  obtain ⟨hprepared, h⟩ := h
  cases op with
  | register =>
      obtain ⟨_, rfl⟩ | ⟨_, _, _, _, _, rfl⟩ := h
      · exact ⟨⟨hprepared, rfl⟩, rfl, .rfl⟩
      · exact ⟨⟨hprepared, rfl⟩, rfl, .rfl⟩
  | _ => obtain ⟨_, rfl⟩ := h <;> exact ⟨⟨hprepared, rfl⟩, rfl, .rfl⟩

variable {α β : Type} {R : Store → Store → Prop} {P : Change → Prop} {s t : Store}

section Reading
open Api.Action

theorem found_reads (a : Option α) : OnlyReads (found a) := by
  cases a with
  | none => exact moves_throw _
  | some a => exact moves_pure _

theorem ensure_reads (holds : Bool) (e : ApiError) : OnlyReads (ensure holds e) := by
  cases holds with
  | false => exact moves_throw _
  | true => exact moves_pure _

theorem look_reads (f : Store → α) : OnlyReads (look f) :=
  moves_read (fun _ => rfl) f

theorem lookOr_reads (f : Store → Except StoreError α) : OnlyReads (lookOr f) :=
  moves_readOr (fun _ => rfl) _ f

theorem found_look_reads (f : Store → Option α) : OnlyReads (do found (← look f)) :=
  (look_reads f).bind fun a => found_reads a

theorem found_lookOr_reads (f : Store → Except StoreError (Option α)) :
    OnlyReads (do found (← lookOr f)) :=
  (lookOr_reads f).bind fun a => found_reads a

theorem readHome_reads : OnlyReads readHome :=
  (look_reads _).bind fun _ => (lookOr_reads _).bind fun _ => moves_pure _

theorem listCategoryPosts_reads (slug : String) (filter : PostFilter) :
    OnlyReads (listCategoryPosts slug filter) :=
  (found_look_reads _).bind fun _ => lookOr_reads _

theorem listComments_reads (caller : Option Caller) (postId : Option String) :
    OnlyReads (listComments caller postId) :=
  look_reads _

theorem readComment_reads (caller : Option Caller) (id : String) :
    OnlyReads (readComment caller id) :=
  (found_look_reads _).bind fun _ => (ensure_reads _ _).bind fun _ => moves_pure _

theorem listMessages_reads (caller : Caller) : OnlyReads (listMessages caller) :=
  (ensure_reads _ _).bind fun _ => look_reads _

theorem readMessage_reads (caller : Caller) (id : String) : OnlyReads (readMessage caller id) :=
  (ensure_reads _ _).bind fun _ => found_look_reads _

theorem ownPost_reads (caller : Caller) (slug : String) : OnlyReads (ownPost caller slug) :=
  (lookOr_reads _).bind fun _ => (found_reads _).bind fun _ => (ensure_reads _ _).bind fun _ =>
    moves_pure _

theorem settleStatus_reads (replace : Bool) (old : PostStatus) (given : Option String) :
    OnlyReads (settleStatus replace old given) := by
  unfold settleStatus
  split
  · exact moves_pure _
  · split
    · exact moves_pure _
    · exact moves_throw _

theorem settleCategory_reads (replace : Bool) (old given : Option String) :
    OnlyReads (settleCategory replace old given) := by
  unfold settleCategory
  split
  · exact moves_pure _
  · dsimp only
    split
    · exact moves_pure _
    · refine (look_reads _).bind fun found => ?_
      cases found with
      | none => exact moves_throw _
      | some category => exact moves_pure _

theorem findTags_reads (slugs : List String) : OnlyReads (findTags slugs) := by
  induction slugs with
  | nil => exact moves_pure _
  | cons slug slugs ih =>
      refine (look_reads _).bind fun found => ?_
      cases found with
      | none => exact moves_throw _
      | some tag => exact ih.bind fun _ => moves_pure _

def settleTags (replace : Bool) (old : List String) (given : Option (List String)) :
    Action (List String) :=
  match given with
  | some slugs => findTags slugs
  | none => pure (settle replace [] old none)

theorem settleTags_reads (replace : Bool) (old : List String) (given : Option (List String)) :
    OnlyReads (settleTags replace old given) := by
  cases given with
  | none => exact moves_pure _
  | some slugs => exact findTags_reads slugs

theorem applyInput_eq (input : PostInput) (replace : Bool) (post : Post) :
    applyInput input replace post = (do
      let status ← settleStatus replace post.status input.status
      let categoryId ← settleCategory replace post.categoryId input.category
      let tagIds ← settleTags replace post.tagIds input.tags
      return { post with
        title := input.title.getD post.title
        slug := input.slug.getD post.slug
        content := settle replace "" post.content input.content
        excerpt := settle replace "" post.excerpt input.excerpt
        status := status
        isActive := settle replace true post.isActive input.isActive
        categoryId := categoryId
        tagIds := tagIds }) := by
  unfold applyInput settleTags
  cases input.tags <;> rfl

theorem applyInput_reads (input : PostInput) (replace : Bool) (post : Post) :
    OnlyReads (applyInput input replace post) := by
  rw [applyInput_eq]
  exact (settleStatus_reads _ _ _).bind fun _ => (settleCategory_reads _ _ _).bind fun _ =>
    (settleTags_reads _ _ _).bind fun _ => moves_pure _

end Reading

theorem edit_asks {p : Editor.Edit α} (hp : p.Asks P) : Asks P (Action.edit p) :=
  hp.adapt _

theorem readPost_asks (caller : Option Caller) (slug : String)
    (hP : ∀ id, P (.recordView id)) : Asks P (readPost caller slug) := by
  refine Asks.after_reads (found_lookOr_reads _) fun view => ?_
  refine Asks.after_reads (ensure_reads _ _) fun _ => ?_
  exact Asks.bind (asks_change (hP view.post.id) fun _ => rfl) fun _ => asks_pure _

theorem savePost_asks [Libraries] {context : Context} {post : Post}
    (hP : ∀ saved, post.prepare context.now = .ok saved → P (.savePost saved)) :
    Asks P (savePost context post) :=
  Asks.bind (edit_asks (Editor.savePost_asks hP)) fun _ =>
    (found_lookOr_reads _).asks

theorem createPost_asks [Libraries] (context : Context) (caller : Caller) (input : PostInput)
    (hP : ∀ post, (Change.savePost post).Prepared → P (.savePost post)) :
    Asks P (createPost context caller input) :=
  Asks.after_reads (applyInput_reads _ _ _) fun _ =>
    savePost_asks fun _ h => hP _ ⟨_, _, h⟩

theorem updatePost_asks [Libraries] (context : Context) (caller : Caller) (slug : String)
    (input : PostInput) (replace : Bool)
    (hP : ∀ post, (Change.savePost post).Prepared → P (.savePost post)) :
    Asks P (updatePost context caller slug input replace) :=
  Asks.after_reads (ownPost_reads _ _) fun _ => Asks.after_reads (applyInput_reads _ _ _) fun _ =>
    savePost_asks fun _ h => hP _ ⟨_, _, h⟩

theorem deletePost_asks (caller : Caller) (slug : String) (hP : ∀ id, P (.deletePost id)) :
    Asks P (deletePost caller slug) := by
  refine Asks.after_reads (ownPost_reads _ _) fun post => ?_
  exact Asks.bind (asks_change (hP post.id) fun _ => rfl) fun _ => asks_pure _

theorem likePost_asks (slug : String) (hP : ∀ id, P (.addLike id)) :
    Asks P (likePost slug) := by
  refine Asks.after_reads (lookOr_reads _) fun _ => Asks.after_reads (found_reads _) fun post => ?_
  refine Asks.bind (asks_once (f := Store.addLike post.id) (hP post.id) fun _ => rfl) ?_
  rintro (e | likes)
  · exact asks_throw _
  · exact asks_pure _

theorem createCategory_asks [Libraries] (context : Context) (caller : Caller)
    (input : CategoryInput)
    (hP : ∀ category, (Change.saveCategory category).Prepared → P (.saveCategory category)) :
    Asks P (createCategory context caller input) :=
  Asks.after_reads (ensure_reads _ _) fun _ => Asks.after_reads (ensure_reads _ _) fun _ =>
    edit_asks <| Editor.saveCategory_asks fun _ h => hP _ ⟨_, h⟩

theorem updateCategory_asks [Libraries] (caller : Caller) (slug : String) (input : CategoryInput)
    (replace : Bool)
    (hP : ∀ category, (Change.saveCategory category).Prepared → P (.saveCategory category)) :
    Asks P (updateCategory caller slug input replace) :=
  Asks.after_reads (ensure_reads _ _) fun _ => Asks.after_reads (ensure_reads _ _) fun _ =>
    Asks.after_reads (found_look_reads _) fun _ =>
      edit_asks <| Editor.saveCategory_asks fun _ h => hP _ ⟨_, h⟩

theorem deleteCategory_asks (caller : Caller) (slug : String)
    (hP : ∀ id, P (.deleteCategory id)) : Asks P (deleteCategory caller slug) := by
  refine Asks.after_reads (ensure_reads _ _) fun _ => ?_
  refine Asks.after_reads (found_look_reads _) fun category => ?_
  exact Asks.bind (asks_change (hP category.id) fun _ => rfl) fun _ => asks_pure _

theorem createTag_asks [Libraries] (context : Context) (input : TagInput)
    (hP : ∀ tag, (Change.saveTag tag).Prepared → P (.saveTag tag)) :
    Asks P (createTag context input) := by
  unfold createTag
  split
  · exact asks_throw _
  · exact edit_asks <| Editor.saveTag_asks fun _ h => hP _ ⟨_, h⟩

theorem updateTag_asks [Libraries] (caller : Caller) (slug : String) (input : TagInput)
    (hP : ∀ tag, (Change.saveTag tag).Prepared → P (.saveTag tag)) :
    Asks P (updateTag caller slug input) :=
  Asks.after_reads (ensure_reads _ _) fun _ => Asks.after_reads (found_look_reads _) fun _ =>
    edit_asks <| Editor.saveTag_asks fun _ h => hP _ ⟨_, h⟩

theorem deleteTag_asks (caller : Caller) (slug : String) (hP : ∀ id, P (.deleteTag id)) :
    Asks P (deleteTag caller slug) := by
  refine Asks.after_reads (ensure_reads _ _) fun _ => ?_
  refine Asks.after_reads (found_look_reads _) fun tag => ?_
  exact Asks.bind (asks_change (hP tag.id) fun _ => rfl) fun _ => asks_pure _

theorem createComment_asks (context : Context) (caller : Caller) (input : NewComment)
    (hP : ∀ comment, P (.saveComment comment)) :
    Asks P (createComment context caller input) :=
  edit_asks <| Editor.saveComment_asks hP

theorem updateComment_asks (context : Context) (caller : Caller) (id : String)
    (input : CommentChange) (hP : ∀ comment, P (.saveComment comment)) :
    Asks P (updateComment context caller id input) :=
  Asks.after_reads (found_look_reads _) fun _ => Asks.after_reads (ensure_reads _ _) fun _ =>
    Asks.after_reads (ensure_reads _ _) fun _ => edit_asks <| Editor.saveComment_asks hP

theorem deleteComment_asks (caller : Caller) (id : String) (hP : ∀ id, P (.deleteComment id)) :
    Asks P (deleteComment caller id) := by
  refine Asks.after_reads (found_look_reads _) fun comment => ?_
  refine Asks.after_reads (ensure_reads _ _) fun _ => ?_
  exact Asks.bind (asks_change (hP comment.id) fun _ => rfl) fun _ => asks_pure _

theorem sendMessage_asks (context : Context) (form : ContactForm)
    (hP : ∀ message, P (.saveMessage message)) : Asks P (sendMessage context form) :=
  edit_asks <| Editor.saveMessage_asks hP

theorem markMessage_asks (caller : Caller) (id : String) (mark : ReadMark)
    (hP : ∀ message, P (.saveMessage message)) : Asks P (markMessage caller id mark) :=
  Asks.after_reads (readMessage_reads _ _) fun _ => edit_asks <| Editor.saveMessage_asks hP

theorem deleteMessage_asks (caller : Caller) (id : String) (hP : ∀ id, P (.deleteMessage id)) :
    Asks P (deleteMessage caller id) := by
  refine Asks.after_reads (ensure_reads _ _) fun _ => ?_
  exact Asks.bind (asks_change (hP id) fun _ => rfl) fun _ => (ensure_reads _ _).asks

theorem enrol_asks [Libraries] (context : Context) (user : User)
    (hsave : ∀ user, (Change.saveUser user).Prepared → P (.saveUser user))
    (hcreate : ∀ id token userId hours now, P (.createSession id token userId hours now)) :
    Asks P (enrol context user) := by
  refine Asks.bind (edit_asks (Editor.saveUser_asks hsave)) fun saved => ?_
  refine Asks.bind (asks_change (hcreate context.freshSessionId context.freshToken saved.id
    context.sessionHours context.now) fun s => ?_) fun _ => asks_pure _
  show _ = s.createSession _ _ _ _ _
  cases s.createSession context.freshSessionId context.freshToken saved.id context.sessionHours
    context.now <;> rfl

theorem register_asks [Libraries] (context : Context) (caller : Option Caller)
    (input : Registration) (hsave : ∀ user, (Change.saveUser user).Prepared → P (.saveUser user))
    (hcreate : ∀ id token userId hours now, P (.createSession id token userId hours now)) :
    Asks P (register context caller input) := by
  unfold register
  split
  · refine Asks.after_reads (look_reads _) fun _ => ?_
    exact Asks.after_reads (ensure_reads _ _) fun _ => enrol_asks context _ hsave hcreate
  · exact enrol_asks context _ hsave hcreate

theorem updateProfile_asks [Libraries] (context : Context) (caller : Caller) (input : ProfileChange)
    (hP : ∀ user, (Change.saveUser user).Prepared → P (.saveUser user)) :
    Asks P (updateProfile context caller input) :=
  Asks.after_reads (found_look_reads _) fun _ => edit_asks <| Editor.saveUser_asks hP

theorem deleteUser_asks (caller : Caller) (id : String) (hP : ∀ id, P (.deleteUser id)) :
    Asks P (deleteUser caller id) := by
  refine Asks.after_reads (ensure_reads _ _) fun _ => ?_
  exact Asks.bind (asks_change (hP id) fun _ => rfl) fun _ => (ensure_reads _ _).asks

theorem updateSettings_asks (context : Context) (caller : Caller) (input : SettingsInput)
    (hP : ∀ settings, P (.saveSettings settings)) :
    Asks P (updateSettings context caller input) :=
  Asks.after_reads (ensure_reads _ _) fun _ => Asks.after_reads (look_reads _) fun _ =>
    edit_asks <| Editor.saveSettings_asks hP

namespace Exchange
variable (x : Exchange)

theorem caller?_reads : OnlyReads x.caller? := by
  unfold caller?
  split
  · exact moves_pure _
  · exact look_reads _

theorem caller_reads : OnlyReads x.caller := by
  refine x.caller?_reads.bind fun caller => ?_
  cases caller with
  | none => exact moves_throw _
  | some caller => exact moves_pure _

theorem parameter_reads (name raw : String) : OnlyReads (parameter name raw) := by
  unfold parameter
  split
  · exact moves_pure _
  · exact moves_throw _

theorem queryFields_reads (names : List String) : OnlyReads (x.queryFields names) :=
  (ensure_reads _ _).bind fun _ => moves_pure _

theorem postFilter_reads : OnlyReads x.postFilter :=
  (x.queryFields_reads _).bind fun _ => moves_pure _

theorem input_reads (α : Type) [Input α] : OnlyReads (x.input α) := by
  refine (ensure_reads _ _).bind fun _ => ?_
  split
  · exact moves_pure _
  · exact moves_throw _
  · exact moves_throw _

theorem shown_asks {toJson : α → Json} {action : Action α} (h : action.Asks P) :
    Asks P (shown toJson action) :=
  h.bind fun _ => asks_pure _

theorem shownAll_asks {toJson : α → Json} {action : Action (List α)} (h : action.Asks P) :
    Asks P (shownAll toJson action) :=
  h.bind fun _ => asks_pure _

theorem created_asks {toJson : α → Json} {action : Action α} (h : action.Asks P) :
    Asks P (created toJson action) :=
  h.bind fun _ => asks_pure _

theorem removed_asks {action : Action Unit} (h : action.Asks P) : Asks P (removed action) :=
  h.bind fun _ => asks_pure _

theorem shown_reads {toJson : α → Json} {action : Action α} (h : action.OnlyReads) :
    Asks P (shown toJson action) :=
  shown_asks h.asks

theorem shownAll_reads {toJson : α → Json} {action : Action (List α)} (h : action.OnlyReads) :
    Asks P (shownAll toJson action) :=
  shownAll_asks h.asks

theorem parameter_then {name raw : String} {f : String → Action α}
    (hf : ∀ slug, (f slug).Asks P) : Asks P (parameter name raw >>= f) :=
  Asks.after_reads (parameter_reads name raw) hf

theorem caller_then {f : Caller → Action α} (hf : ∀ caller, (f caller).Asks P) :
    Asks P (x.caller >>= f) :=
  Asks.after_reads x.caller_reads hf

theorem caller?_then {f : Option Caller → Action α} (hf : ∀ caller, (f caller).Asks P) :
    Asks P (x.caller? >>= f) :=
  Asks.after_reads x.caller?_reads hf

theorem input_then {γ : Type} [Input γ] {f : γ → Action α} (hf : ∀ a, (f a).Asks P) :
    Asks P (x.input γ >>= f) :=
  Asks.after_reads (x.input_reads γ) hf

/-- Every step of an operation looks at the store or makes a change that the operation is there
for. -/
theorem perform_isFor [Libraries] (op : Operation) : Asks op.IsFor (x.perform op) := by
  cases op with
  | showHome => exact Asks.after_reads readHome_reads fun _ => asks_pure _
  | listPosts => exact Asks.after_reads x.postFilter_reads fun _ => shownAll_reads (lookOr_reads _)
  | listFeatured => exact shownAll_reads (lookOr_reads _)
  | createPost =>
      exact x.caller_then fun _ => x.input_then fun _ =>
        created_asks (createPost_asks _ _ _ fun _ h => ⟨h, _, rfl⟩)
  | readPost raw =>
      exact x.caller?_then fun _ => parameter_then fun _ =>
        shown_asks (readPost_asks _ _ fun _ => ⟨trivial, _, rfl⟩)
  | replacePost raw =>
      exact x.caller_then fun _ => parameter_then fun _ => x.input_then fun _ =>
        shown_asks (Asks.after_reads (ensure_reads _ _) fun _ =>
          updatePost_asks _ _ _ _ _ fun _ h => ⟨h, _, rfl⟩)
  | updatePost raw =>
      exact x.caller_then fun _ => parameter_then fun _ => x.input_then fun _ =>
        shown_asks (updatePost_asks _ _ _ _ _ fun _ h => ⟨h, _, rfl⟩)
  | deletePost raw =>
      exact x.caller_then fun _ => parameter_then fun _ =>
        removed_asks (deletePost_asks _ _ fun _ => ⟨trivial, _, rfl⟩)
  | likePost raw =>
      exact x.caller_then fun _ => parameter_then fun _ =>
        shown_asks (likePost_asks _ fun _ => ⟨trivial, _, rfl⟩)
  | listCategories => exact x.caller?_then fun _ => shownAll_reads (look_reads _)
  | createCategory =>
      exact x.caller_then fun _ => x.input_then fun _ =>
        created_asks (createCategory_asks _ _ _ fun _ h => ⟨h, _, rfl⟩)
  | readCategory raw => exact parameter_then fun _ => shown_reads (found_look_reads _)
  | replaceCategory raw =>
      exact x.caller_then fun _ => parameter_then fun _ => x.input_then fun _ =>
        shown_asks (updateCategory_asks _ _ _ _ fun _ h => ⟨h, _, rfl⟩)
  | updateCategory raw =>
      exact x.caller_then fun _ => parameter_then fun _ => x.input_then fun _ =>
        shown_asks (updateCategory_asks _ _ _ _ fun _ h => ⟨h, _, rfl⟩)
  | deleteCategory raw =>
      exact x.caller_then fun _ => parameter_then fun _ =>
        removed_asks (deleteCategory_asks _ _ fun _ => ⟨trivial, _, rfl⟩)
  | listCategoryPosts raw =>
      exact parameter_then fun _ => Asks.after_reads x.postFilter_reads fun _ =>
        shownAll_reads (listCategoryPosts_reads _ _)
  | listTags => exact shownAll_reads (look_reads _)
  | createTag =>
      exact x.caller_then fun _ => x.input_then fun _ =>
        created_asks (createTag_asks _ _ fun _ h => ⟨h, _, rfl⟩)
  | readTag raw => exact parameter_then fun _ => shown_reads (found_look_reads _)
  | updateTag raw =>
      exact x.caller_then fun _ => parameter_then fun _ => x.input_then fun _ =>
        shown_asks (updateTag_asks _ _ _ fun _ h => ⟨h, _, rfl⟩)
  | deleteTag raw =>
      exact x.caller_then fun _ => parameter_then fun _ =>
        removed_asks (deleteTag_asks _ _ fun _ => ⟨trivial, _, rfl⟩)
  | listComments =>
      exact x.caller?_then fun _ => Asks.after_reads (x.queryFields_reads _) fun _ =>
        shownAll_reads (listComments_reads _ _)
  | createComment =>
      exact x.caller_then fun _ => x.input_then fun _ =>
        created_asks (createComment_asks _ _ _ fun _ => ⟨trivial, _, rfl⟩)
  | readComment raw =>
      exact x.caller?_then fun _ => parameter_then fun _ => shown_reads (readComment_reads _ _)
  | updateComment raw =>
      exact x.caller_then fun _ => parameter_then fun _ => x.input_then fun _ =>
        shown_asks (updateComment_asks _ _ _ _ fun _ => ⟨trivial, _, rfl⟩)
  | deleteComment raw =>
      exact x.caller_then fun _ => parameter_then fun _ =>
        removed_asks (deleteComment_asks _ _ fun _ => ⟨trivial, _, rfl⟩)
  | listMessages => exact x.caller_then fun _ => shownAll_reads (listMessages_reads _)
  | sendMessage =>
      exact x.input_then fun _ =>
        created_asks (sendMessage_asks _ _ fun _ => ⟨trivial, _, rfl⟩)
  | readMessage raw =>
      exact x.caller_then fun _ => parameter_then fun _ => shown_reads (readMessage_reads _ _)
  | markMessage raw =>
      exact x.caller_then fun _ => parameter_then fun _ => x.input_then fun _ =>
        shown_asks (markMessage_asks _ _ _ fun _ => ⟨trivial, _, rfl⟩)
  | deleteMessage raw =>
      exact x.caller_then fun _ => parameter_then fun _ =>
        removed_asks (deleteMessage_asks _ _ fun _ => ⟨trivial, _, rfl⟩)
  | readSettings => exact shown_reads (look_reads _)
  | updateSettings =>
      exact x.caller_then fun _ => x.input_then fun _ =>
        shown_asks (updateSettings_asks _ _ _ fun _ => ⟨trivial, _, rfl⟩)
  | listUsers => exact shownAll_reads (look_reads _)
  | register =>
      exact x.caller?_then fun _ => x.input_then fun _ =>
        created_asks (register_asks _ _ _ (fun _ h => ⟨h, .inl ⟨_, rfl⟩⟩)
          fun _ _ _ _ _ => ⟨trivial, .inr ⟨_, _, _, _, _, rfl⟩⟩)
  | readSelf => exact x.caller_then fun _ => shown_reads (found_look_reads _)
  | updateSelf =>
      exact x.caller_then fun _ => x.input_then fun _ =>
        shown_asks (updateProfile_asks _ _ _ fun _ h => ⟨h, _, rfl⟩)
  | readUser raw => exact parameter_then fun _ => shown_reads (found_look_reads _)
  | deleteUser raw =>
      exact x.caller_then fun _ => parameter_then fun _ =>
        removed_asks (deleteUser_asks _ _ fun _ => ⟨trivial, _, rfl⟩)

theorem perform_asks [Libraries] (op : Operation) : Asks op.May (x.perform op) :=
  (x.perform_isFor op).imp fun _ h => h.may

/-- An operation that is there for no change only looks at the store. -/
theorem perform_reads [Libraries] {op : Operation} (hop : ∀ change, ¬ op.IsFor change) :
    OnlyReads (x.perform op) := by
  refine (x.perform_isFor op).moves.imp ?_
  rintro s t (rfl | ⟨change, hchange, -⟩)
  · rfl
  · exact absurd hchange (hop change)

end Exchange
end Gazette.Api
