import Gazette.Proofs.Table
import Gazette.Store.Save
import Gazette.Store.Find
import Gazette.Store.Sessions

/-!
# Saving

When the store takes a save, and the store that the save then leaves. Nothing else is known about
a save further on.
-/
namespace Gazette

@[simp] theorem key_user (user : User) : Keyed.key user = user.id := rfl
@[simp] theorem key_category (category : Category) : Keyed.key category = category.id := rfl
@[simp] theorem key_tag (tag : Tag) : Keyed.key tag = tag.id := rfl
@[simp] theorem key_postRow (row : PostRow) : Keyed.key row = row.id := rfl
@[simp] theorem key_comment (comment : Comment) : Keyed.key comment = comment.id := rfl
@[simp] theorem key_message (message : ContactMessage) : Keyed.key message = message.id := rfl

namespace Store
variable {s t : Store}

theorem requireFree_then_ok {α β γ : Type} [Keyed α] [BEq β] {unique : UniqueColumn}
    {column : α → β} {row : α} {table : Table α} {rest : Except StoreError γ} {c : γ} :
    (requireFree unique column row table >>= fun _ => rest) = .ok c ↔
      table.isTaken column row = false ∧ rest = .ok c := by
  cases h : table.isTaken column row <;> simp [requireFree, h, bind, Except.bind]

theorem requireRows_then_ok {γ : Type} {allExist : Bool} {rest : Except StoreError γ} {c : γ} :
    (requireRows allExist >>= fun _ => rest) = .ok c ↔ allExist = true ∧ rest = .ok c := by
  cases allExist <;> simp [requireRows, bind, Except.bind]

/-- The row that a saved user leaves behind. The date of joining is written once. -/
def mergeUser (old new : User) : User :=
  { new with dateJoined := old.dateJoined }

def mergeCategory (old new : Category) : Category :=
  { new with createdAt := old.createdAt }

def mergeTag (old new : Tag) : Tag :=
  { new with createdAt := old.createdAt }

/-- The row that a saved comment leaves behind. It stays in its place of the discussion. -/
def mergeComment (old new : Comment) : Comment :=
  { old with content := new.content, isApproved := new.isApproved, updatedAt := new.updatedAt }

def mergeMessage (old new : ContactMessage) : ContactMessage :=
  { old with isRead := new.isRead }

theorem mergeUser_keepsKey : Table.KeepsKey mergeUser := fun _ _ _ => rfl
theorem mergeCategory_keepsKey : Table.KeepsKey mergeCategory := fun _ _ _ => rfl
theorem mergeTag_keepsKey : Table.KeepsKey mergeTag := fun _ _ _ => rfl
theorem mergePost_keepsKey : Table.KeepsKey PostRow.merge := fun _ _ _ => rfl
theorem mergeComment_keepsKey : Table.KeepsKey mergeComment := fun _ _ h => h
theorem mergeMessage_keepsKey : Table.KeepsKey mergeMessage := fun _ _ h => h

theorem saveUser_ok {user : User} :
    s.saveUser user = .ok t ↔
      s.users.isTaken User.email user = false ∧ s.users.isTaken User.username user = false ∧
        t = { s with users := s.users.put mergeUser user } := by
  rw [saveUser, requireFree_then_ok, requireFree_then_ok, Except.ok.injEq, eq_comm (b := t)]
  rfl

theorem saveCategory_ok {category : Category} :
    s.saveCategory category = .ok t ↔
      s.categories.isTaken Category.slug category = false ∧
        t = { s with categories := s.categories.put mergeCategory category } := by
  rw [saveCategory, requireFree_then_ok, Except.ok.injEq, eq_comm (b := t)]
  rfl

theorem saveTag_ok {tag : Tag} :
    s.saveTag tag = .ok t ↔
      s.tags.isTaken Tag.slug tag = false ∧ t = { s with tags := s.tags.put mergeTag tag } := by
  rw [saveTag, requireFree_then_ok, Except.ok.injEq, eq_comm (b := t)]
  rfl

theorem savePost_ok {post : Post} :
    s.savePost post = .ok t ↔
      s.posts.isTaken PostRow.slug (PostRow.ofPost post) = false ∧
      (s.posts.has post.id = true ∨ s.users.has post.authorId = true) ∧
      (∀ id ∈ post.categoryId, s.categories.has id = true) ∧
      (∀ id ∈ post.tagIds, s.tags.has id = true) ∧
        t = { s with
          posts := s.posts.put PostRow.merge (PostRow.ofPost post)
          links := s.links.filter (·.postId != post.id) ++
            post.tagIds.eraseDups.map (⟨post.id, ·⟩) } := by
  simp only [savePost, requireFree_then_ok, requireRows_then_ok, Bool.or_eq_true,
    Option.all_eq_true, List.all_eq_true, Except.ok.injEq, Option.mem_def, eq_comm (b := t)]

theorem saveComment_ok {comment : Comment} :
    s.saveComment comment = .ok t ↔
      (s.comments.has comment.id = true ∨
        (s.posts.has comment.postId = true ∧ s.users.has comment.authorId = true ∧
          ∀ id ∈ comment.parentId, id = comment.id ∨ s.comments.has id = true)) ∧
        t = { s with comments := s.comments.put mergeComment comment } := by
  rw [saveComment, requireRows_then_ok, Except.ok.injEq, eq_comm (b := t)]
  simp only [Bool.or_eq_true, Bool.and_eq_true, Option.all_eq_true, beq_iff_eq, and_assoc,
    Option.mem_def]
  rfl

theorem createSession_ok {id token userId : String} {hours : Nat} {now : Timestamp} :
    s.createSession id token userId hours now = .ok t ↔
      expiry now hours ≤ lastSecond ∧
      (∀ session ∈ s.sessions, session.id ≠ id ∧ session.token ≠ token) ∧
      s.users.has userId = true ∧
        t = { s with sessions :=
          s.sessions ++ [⟨id, token, userId, Timestamp.secondText (expiry now hours)⟩] } := by
  have hnew : (∀ session ∈ s.sessions, session.id ≠ id ∧ session.token ≠ token) ↔
      s.sessions.any (·.token == token) = false ∧ s.sessions.has id = false := by
    simp [Table.has, Keyed.key, forall_and, and_comm]
  rw [hnew]
  unfold createSession
  by_cases hlate : lastSecond < expiry now hours
  · have hexpiry : ¬ expiry now hours ≤ lastSecond := Int.not_le.2 hlate
    simp [hlate, hexpiry, bind, Except.bind]
  · have hexpiry : expiry now hours ≤ lastSecond := Int.not_lt.1 hlate
    cases htoken : s.sessions.any (·.token == token) with
    | true => simp [hlate, bind, Except.bind]
    | false =>
        cases hid : s.sessions.has id with
        | true => simp [hlate, bind, Except.bind]
        | false =>
            simp only [hlate, if_false, Bool.false_eq_true, hexpiry, true_and]
            show (requireRows (s.users.has userId) >>= fun _ => _) = _ ↔ _
            rw [requireRows_then_ok, Except.ok.injEq, eq_comm (b := t)]

theorem settings_saveSettings (settings : SiteSettings) (s : Store) :
    (s.saveSettings settings).settings = settings :: s.settings.tail := by
  unfold saveSettings
  cases s.settings <;> rfl

theorem loadSettings_saveSettings (settings : SiteSettings) (s : Store) :
    (s.saveSettings settings).loadSettings = settings := by
  rw [loadSettings, settings_saveSettings]
  rfl

theorem saveSettings_of_once (h : s.settings.length ≤ 1) (settings : SiteSettings) :
    s.saveSettings settings = { s with settings := [settings] } := by
  have hrest : s.settings.tail = [] := List.length_eq_zero_iff.1 (by rw [List.length_tail]; omega)
  have hsave : s.saveSettings settings =
    { s with settings := (s.saveSettings settings).settings } := rfl
  rw [hsave, settings_saveSettings, hrest]

/-- Refused or not, a like of a post that is there has been counted. -/
theorem addLike_eq_like (id : String) (s : Store) : (s.addLike id).2 = s.like id := by
  unfold addLike
  cases hrow : s.posts.row? id with
  | none =>
      have hhas : s.posts.has id = false := by rw [Table.has_eq_isSome, hrow]; rfl
      rw [like, Table.update_of_has_eq_false hhas]
  | some row => rfl

/-- A like is refused for a missing row only, if the counter can take it in. -/
theorem addLike_error {id : String} {e : StoreError}
    (hroom : ∀ row, s.posts.row? id = some row → row.likes.next ≠ .inexact)
    (h : (s.addLike id).1 = .error e) : e = .noSuchPost id := by
  unfold addLike at h
  cases hrow : s.posts.row? id with
  | none =>
      rw [hrow] at h
      exact (Except.error.inj h).symm
  | some row =>
      rw [hrow] at h
      cases hnext : row.likes.next with
      | inexact => exact absurd hnext (hroom row hrow)
      | exact n =>
          simp [hnext, Record.read, Column.read, Counter.cell] at h

end Store
end Gazette
