import Gazette.Editor
import Gazette.Proofs.Change
import Gazette.Proofs.Procedure
import Gazette.Proofs.Table

/-!
# The editor

When the editor takes something in and what it then asks of the store. Each of its procedures
reads first and changes the store in its last step only, so that a refused submission leaves no
trace.
-/
namespace Gazette.Editor
open StoreProcedure

variable {s t : Store} {α β : Type}

theorem obey_onlyReads (r : Except ContentError α) : OnlyReads (obey r) :=
  ⟨trivial⟩

theorem obey_then_ok {r : Except ContentError α} {f : α → Edit β} {b : β} :
    outcome (obey r >>= f) s = (.ok b, t) ↔ ∃ a, r = .ok a ∧ (f a).outcome s = (.ok b, t) := by
  have h : (obey r).outcome s = (r.mapError .content, s) := rfl
  rw [outcome_bind, h]
  cases r <;> simp

theorem requireKnown_onlyReads (missing : ContentError) (find : Store → Option α) :
    OnlyReads (requireKnown missing find) := by
  refine Moves.bind (moves_read (fun _ => rfl) find) ?_
  rintro (_ | a)
  · exact moves_throw _
  · exact moves_pure _

theorem requireKnown_then_ok {missing : ContentError} {find : Store → Option α} {f : α → Edit β}
    {b : β} :
    outcome (requireKnown missing find >>= f) s = (.ok b, t) ↔
      ∃ a, find s = some a ∧ (f a).outcome s = (.ok b, t) := by
  rw [outcome_bind, requireKnown, outcome_bind, outcome_read]
  cases h : find s <;> simp

theorem requireTags_onlyReads (ids : List String) : OnlyReads (requireTags ids) := by
  induction ids with
  | nil => exact moves_pure _
  | cons id ids ih => exact Moves.bind (requireKnown_onlyReads _ _) fun _ => ih

theorem requireTags_ok {ids : List String} {u : Unit} :
    (requireTags ids).outcome s = (.ok u, t) ↔ (∀ id ∈ ids, s.tags.has id = true) ∧ t = s := by
  induction ids with
  | nil =>
      rw [requireTags, outcome_pure]
      simp only [Prod.mk.injEq, true_and, List.not_mem_nil, false_imp_iff, implies_true]
      exact eq_comm
  | cons id ids ih =>
      rw [requireTags, requireKnown_then_ok, ih, List.forall_mem_cons, Table.has_eq_isSome,
        Option.isSome_iff_exists, exists_and_right, and_assoc]

theorem save_then_ok {f : Store → Except StoreError Store} {a b : α} :
    outcome (do save f; pure a : Edit α) s = (.ok b, t) ↔ f s = .ok t ∧ a = b := by
  rw [outcome_bind, save, outcome_write]
  cases h : f s <;> simp [and_comm]

theorem save_then_atomic (f : Store → Except StoreError Store) (a : α) :
    Atomic (do save f; pure a : Edit α) :=
  (atomic_write _ f).then_pure fun _ => a

theorem saveUser_ok {user saved : User} {now : Timestamp} :
    (saveUser user now).outcome s = (.ok saved, t) ↔
      user.trimmed.validate = .ok () ∧ s.saveUser { user.trimmed with updatedAt := now } = .ok t ∧
        { user.trimmed with updatedAt := now } = saved := by
  rw [saveUser, obey_then_ok]
  constructor
  · rintro ⟨_, hrules, hrest⟩
    exact ⟨hrules, save_then_ok.1 hrest⟩
  · rintro ⟨hrules, hrest⟩
    exact ⟨(), hrules, save_then_ok.2 hrest⟩

theorem saveUser_atomic (user : User) (now : Timestamp) : (saveUser user now).Atomic :=
  Atomic.after_reads (obey_onlyReads _) fun _ => save_then_atomic _ _

theorem saveCategory_ok [Libraries] {category saved : Category} :
    (saveCategory category).outcome s = (.ok saved, t) ↔
      category.prepare = .ok saved ∧ s.saveCategory saved = .ok t := by
  rw [saveCategory, obey_then_ok]
  constructor
  · rintro ⟨_, hrules, hrest⟩
    obtain ⟨hsave, rfl⟩ := save_then_ok.1 hrest
    exact ⟨hrules, hsave⟩
  · rintro ⟨hrules, hsave⟩
    exact ⟨saved, hrules, save_then_ok.2 ⟨hsave, rfl⟩⟩

theorem saveCategory_atomic [Libraries] (category : Category) : (saveCategory category).Atomic :=
  Atomic.after_reads (obey_onlyReads _) fun _ => save_then_atomic _ _

theorem saveTag_ok [Libraries] {tag saved : Tag} :
    (saveTag tag).outcome s = (.ok saved, t) ↔
      tag.prepare = .ok saved ∧ s.saveTag saved = .ok t := by
  rw [saveTag, obey_then_ok]
  constructor
  · rintro ⟨_, hrules, hrest⟩
    obtain ⟨hsave, rfl⟩ := save_then_ok.1 hrest
    exact ⟨hrules, hsave⟩
  · rintro ⟨hrules, hsave⟩
    exact ⟨saved, hrules, save_then_ok.2 ⟨hsave, rfl⟩⟩

theorem saveTag_atomic [Libraries] (tag : Tag) : (saveTag tag).Atomic :=
  Atomic.after_reads (obey_onlyReads _) fun _ => save_then_atomic _ _

/-- The last part of saving a post, once its category is known. -/
def saveTagged (post : Post) : Edit Post := do
  requireTags post.tagIds
  save (Store.savePost post)
  return post

theorem saveTagged_ok {post saved : Post} :
    (saveTagged post).outcome s = (.ok saved, t) ↔
      (∀ id ∈ post.tagIds, s.tags.has id = true) ∧ s.savePost post = .ok t ∧ post = saved := by
  rw [saveTagged, outcome_bind_ok]
  constructor
  · rintro ⟨_, _, hfirst, hrest⟩
    obtain ⟨htags, rfl⟩ := requireTags_ok.1 hfirst
    exact ⟨htags, save_then_ok.1 hrest⟩
  · rintro ⟨htags, hsave⟩
    exact ⟨(), s, requireTags_ok.2 ⟨htags, rfl⟩, save_then_ok.2 hsave⟩

theorem saveTagged_atomic (post : Post) : (saveTagged post).Atomic :=
  Atomic.after_reads (requireTags_onlyReads _) fun _ => save_then_atomic _ _

theorem savePost_eq [Libraries] (post : Post) (now : Timestamp) :
    savePost post now = (do
      let post ← obey (post.prepare now)
      match post.categoryId with
      | some id => do
        let _ ← requireKnown (.unknownCategory id) fun s => s.categories.row? id
        saveTagged post
      | none => saveTagged post) := by
  unfold savePost
  congr 1
  funext prepared
  cases prepared.categoryId <;> rfl

theorem savePost_ok [Libraries] {post saved : Post} {now : Timestamp} :
    (savePost post now).outcome s = (.ok saved, t) ↔
      post.prepare now = .ok saved ∧ (∀ id ∈ saved.categoryId, s.categories.has id = true) ∧
        (∀ id ∈ saved.tagIds, s.tags.has id = true) ∧ s.savePost saved = .ok t := by
  rw [savePost_eq, obey_then_ok]
  have hknown : ∀ prepared : Post,
      outcome (match prepared.categoryId with
        | some id => do
          let _ ← requireKnown (.unknownCategory id) fun s => s.categories.row? id
          saveTagged prepared
        | none => saveTagged prepared : Edit Post) s = (.ok saved, t) ↔
      (∀ id ∈ prepared.categoryId, s.categories.has id = true) ∧
        (saveTagged prepared).outcome s = (.ok saved, t) := by
    intro prepared
    cases prepared.categoryId with
    | none => simp
    | some id =>
        simp only [requireKnown_then_ok, exists_and_right, Option.mem_some_iff, forall_eq']
        rw [Table.has_eq_isSome, Option.isSome_iff_exists]
  simp only [hknown, saveTagged_ok]
  constructor
  · rintro ⟨prepared, hrules, hcategory, htags, hsave, rfl⟩
    exact ⟨hrules, hcategory, htags, hsave⟩
  · rintro ⟨hrules, hcategory, htags, hsave⟩
    exact ⟨saved, hrules, hcategory, htags, hsave, rfl⟩

theorem savePost_atomic [Libraries] (post : Post) (now : Timestamp) :
    (savePost post now).Atomic := by
  rw [savePost_eq]
  refine Atomic.after_reads (obey_onlyReads _) fun prepared => ?_
  cases prepared.categoryId with
  | none => exact saveTagged_atomic prepared
  | some id =>
      exact Atomic.after_reads (requireKnown_onlyReads _ _) fun _ => saveTagged_atomic prepared

/-- The last part of saving a comment, once its post is known. -/
def saveReply (comment : Comment) (now : Timestamp) : Edit Comment := do
  let saveNow : Edit Comment := do
    save (Store.saveComment { comment with updatedAt := now })
    return { comment with updatedAt := now }
  match comment.parentId with
  | none => saveNow
  | some id => do
    let parent ← requireKnown (.unknownParent id) fun s => s.comments.row? id
    if parent.postId ≠ comment.postId then throw (.content .parentOnOtherPost) else saveNow

theorem saveComment_eq (comment : Comment) (now : Timestamp) :
    saveComment comment now = (do
      obey (require "content" comment.content)
      match ← StoreProcedure.readOr .store (Store.findPost? comment.postId) with
      | some _ => saveReply comment now
      | none => throw (.content (.unknownPost comment.postId))) := by
  unfold saveComment
  congr 1
  funext _
  congr 1
  funext found
  cases found with
  | none => rfl
  | some post =>
      unfold saveReply
      cases hparent : comment.parentId with
      | none => rfl
      | some id => rfl

theorem saveReply_ok {comment saved : Comment} {now : Timestamp} :
    (saveReply comment now).outcome s = (.ok saved, t) ↔
      (∀ id ∈ comment.parentId,
          ∃ parent, s.comments.row? id = some parent ∧ parent.postId = comment.postId) ∧
        s.saveComment { comment with updatedAt := now } = .ok t ∧
          { comment with updatedAt := now } = saved := by
  unfold saveReply
  cases comment.parentId with
  | none => simp only [save_then_ok, Option.not_mem_none, false_imp_iff, implies_true, true_and]
  | some id =>
      dsimp only
      rw [requireKnown_then_ok]
      simp only [Option.mem_some_iff, forall_eq', ← exists_and_right, and_assoc]
      refine exists_congr fun parent => and_congr_right fun _ => ?_
      by_cases hpost : parent.postId = comment.postId
      · simp only [hpost, ne_eq, not_true, if_false, save_then_ok, true_and]
      · simp [hpost]

theorem saveReply_atomic (comment : Comment) (now : Timestamp) :
    (saveReply comment now).Atomic := by
  unfold saveReply
  cases comment.parentId with
  | none => exact save_then_atomic _ _
  | some id =>
      refine Atomic.after_reads (requireKnown_onlyReads _ _) fun parent => ?_
      split
      · exact atomic_throw _
      · exact save_then_atomic _ _

theorem saveComment_ok {comment saved : Comment} {now : Timestamp} :
    (saveComment comment now).outcome s = (.ok saved, t) ↔
      require "content" comment.content = .ok () ∧
        (∃ post, s.findPost? comment.postId = .ok (some post)) ∧
          (saveReply comment now).outcome s = (.ok saved, t) := by
  rw [saveComment_eq, obey_then_ok, outcome_bind, outcome_readOr]
  have hrules : ∀ P : Prop, (∃ a : Unit, require "content" comment.content = .ok a ∧ P) ↔
      require "content" comment.content = .ok () ∧ P :=
    fun P => ⟨fun ⟨_, h⟩ => h, fun h => ⟨(), h⟩⟩
  rw [hrules]
  refine and_congr_right fun _ => ?_
  cases h : s.findPost? comment.postId with
  | error e => simp
  | ok found => cases found <;> simp

theorem saveComment_atomic (comment : Comment) (now : Timestamp) :
    (saveComment comment now).Atomic := by
  rw [saveComment_eq]
  refine Atomic.after_reads (obey_onlyReads _) fun _ => ?_
  refine Atomic.after_reads (moves_readOr (fun _ => rfl) _ _) fun found => ?_
  cases found with
  | none => exact atomic_throw _
  | some post => exact saveReply_atomic comment now

theorem saveMessage_ok {message saved : ContactMessage} :
    (saveMessage message).outcome s = (.ok saved, t) ↔
      message.validate = .ok () ∧ s.saveMessage message = t ∧ message = saved := by
  rw [saveMessage, obey_then_ok]
  constructor
  · rintro ⟨_, hrules, hrest⟩
    obtain ⟨hsave, hsaved⟩ := save_then_ok.1 hrest
    exact ⟨hrules, Except.ok.inj hsave, hsaved⟩
  · rintro ⟨hrules, hsave, hsaved⟩
    exact ⟨(), hrules, save_then_ok.2 ⟨congrArg _ hsave, hsaved⟩⟩

theorem saveMessage_atomic (message : ContactMessage) : (saveMessage message).Atomic :=
  Atomic.after_reads (obey_onlyReads _) fun _ => save_then_atomic _ _

theorem saveSettings_ok {settings saved : SiteSettings} {now : Timestamp} :
    (saveSettings settings now).outcome s = (.ok saved, t) ↔
      settings.validate = .ok () ∧ s.saveSettings { settings with updatedAt := some now } = t ∧
        { settings with updatedAt := some now } = saved := by
  rw [saveSettings, obey_then_ok]
  constructor
  · rintro ⟨_, hrules, hrest⟩
    obtain ⟨hsave, hsaved⟩ := save_then_ok.1 hrest
    exact ⟨hrules, Except.ok.inj hsave, hsaved⟩
  · rintro ⟨hrules, hsave, hsaved⟩
    exact ⟨(), hrules, save_then_ok.2 ⟨congrArg _ hsave, hsaved⟩⟩

theorem saveSettings_atomic (settings : SiteSettings) (now : Timestamp) :
    (saveSettings settings now).Atomic :=
  Atomic.after_reads (obey_onlyReads _) fun _ => save_then_atomic _ _

variable {P : Change → Prop}

theorem obey_then_asks {r : Except ContentError α} {f : α → Edit β}
    (hf : ∀ a, r = .ok a → (f a).Asks P) : Asks P (obey r >>= f) := by
  cases r with
  | error e => exact ⟨trivial⟩
  | ok a => exact ⟨(hf a rfl).each⟩

theorem save_then_asks (change : Change) {f : Store → Except StoreError Store} {a : α}
    (hf : change.apply = f) (hP : P change) : Asks P (do save f; pure a : Edit α) :=
  Asks.bind (asks_write hP hf) fun _ => asks_pure _

theorem saveUser_asks [Libraries] {user : User} {now : Timestamp}
    (hP : ∀ saved, (Change.saveUser saved).Prepared → P (.saveUser saved)) :
    Asks P (saveUser user now) :=
  obey_then_asks fun _ hrules => save_then_asks (.saveUser _) rfl (hP _ ⟨user, now, hrules, rfl⟩)

theorem saveCategory_asks [Libraries] {category : Category}
    (hP : ∀ saved, category.prepare = .ok saved → P (.saveCategory saved)) :
    Asks P (saveCategory category) :=
  obey_then_asks fun saved h => save_then_asks (.saveCategory saved) rfl (hP saved h)

theorem saveTag_asks [Libraries] {tag : Tag}
    (hP : ∀ saved, tag.prepare = .ok saved → P (.saveTag saved)) :
    Asks P (saveTag tag) :=
  obey_then_asks fun saved h => save_then_asks (.saveTag saved) rfl (hP saved h)

theorem saveTagged_asks {post : Post} (hP : P (.savePost post)) :
    Asks P (saveTagged post) :=
  Asks.after_reads (requireTags_onlyReads _) fun _ =>
    save_then_asks (.savePost post) rfl hP

theorem savePost_asks [Libraries] {post : Post} {now : Timestamp}
    (hP : ∀ saved, post.prepare now = .ok saved → P (.savePost saved)) :
    Asks P (savePost post now) := by
  rw [savePost_eq]
  refine obey_then_asks fun saved h => ?_
  cases saved.categoryId with
  | none => exact saveTagged_asks (hP saved h)
  | some id =>
      exact Asks.after_reads (requireKnown_onlyReads _ _) fun _ =>
        saveTagged_asks (hP saved h)

theorem saveReply_asks {comment : Comment} {now : Timestamp}
    (hP : ∀ comment, P (.saveComment comment)) :
    Asks P (saveReply comment now) := by
  unfold saveReply
  cases comment.parentId with
  | none => exact save_then_asks (.saveComment _) rfl (hP _)
  | some id =>
      refine Asks.after_reads (requireKnown_onlyReads _ _) fun parent => ?_
      split
      · exact asks_throw _
      · exact save_then_asks (.saveComment _) rfl (hP _)

theorem saveComment_asks {comment : Comment} {now : Timestamp}
    (hP : ∀ comment, P (.saveComment comment)) :
    Asks P (saveComment comment now) := by
  rw [saveComment_eq]
  refine obey_then_asks fun _ _ => ?_
  refine Asks.after_reads (moves_readOr (fun _ => rfl) _ _) fun found => ?_
  cases found with
  | none => exact asks_throw _
  | some post => exact saveReply_asks hP

theorem saveMessage_asks {message : ContactMessage} (hP : ∀ message, P (.saveMessage message)) :
    Asks P (saveMessage message) :=
  obey_then_asks fun _ _ => save_then_asks (.saveMessage message) rfl (hP _)

theorem saveSettings_asks {settings : SiteSettings} {now : Timestamp}
    (hP : ∀ settings, P (.saveSettings settings)) :
    Asks P (saveSettings settings now) :=
  obey_then_asks fun _ _ => save_then_asks (.saveSettings _) rfl (hP _)

end Gazette.Editor
