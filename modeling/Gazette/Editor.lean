import Gazette.Content.Rules
import Gazette.Store.Find
import Gazette.Store.Procedure
import Gazette.Store.Save

/-!
# The editor

The editor takes content in: it applies the rules of content, checks what the content refers to
and then saves it. The first rule or reference that fails is reported, and nothing is saved.
-/
namespace Gazette

/-- Why content is not taken in. -/
inductive EditorError
  | content (cause : ContentError)
  | store (cause : StoreError)
deriving DecidableEq, Repr, Inhabited

def EditorError.message : EditorError → String
  | content cause => cause.message
  | store cause => cause.message

def EditorError.isConstraint : EditorError → Bool
  | content _ => false
  | store cause => cause.isConstraint

namespace Editor

/-- A procedure of the editor. -/
abbrev Edit (α : Type) := StoreProcedure EditorError α

/-- Goes on unless a rule of content is broken. -/
def obey {α : Type} (outcome : Except ContentError α) : Edit α :=
  ExceptT.mk <| pure <| outcome.mapError .content

/-- Goes on if something that is referred to exists. -/
def requireKnown {α : Type} (missing : ContentError) (find : Store → Option α) : Edit α := do
  match ← StoreProcedure.read find with
  | some a => return a
  | none => throw (.content missing)

def save (f : Store → Except StoreError Store) : Edit Unit :=
  StoreProcedure.write .store f

def saveUser (user : User) (now : Timestamp) : Edit User := do
  let user := user.trimmed
  obey user.validate
  let user := { user with updatedAt := now }
  save (Store.saveUser user)
  return user

def requireTags : List String → Edit Unit
  | [] => return
  | id :: ids => do
    let _ ← requireKnown (.unknownTag id) fun s => s.tags.row? id
    requireTags ids

def savePost [Libraries] (post : Post) (now : Timestamp) : Edit Post := do
  let post ← obey (post.prepare now)
  if let some id := post.categoryId then
    let _ ← requireKnown (.unknownCategory id) fun s => s.categories.row? id
  requireTags post.tagIds
  save (Store.savePost post)
  return post

def saveCategory [Libraries] (category : Category) : Edit Category := do
  let category ← obey category.prepare
  save (Store.saveCategory category)
  return category

def saveTag [Libraries] (tag : Tag) : Edit Tag := do
  let tag ← obey tag.prepare
  save (Store.saveTag tag)
  return tag

/-- Saves a comment. A reply must be on the same post as the comment it replies to. -/
def saveComment (comment : Comment) (now : Timestamp) : Edit Comment := do
  obey (require "content" comment.content)
  match ← StoreProcedure.readOr .store (Store.findPost? comment.postId) with
  | some _ => pure ()
  | none => throw (.content (.unknownPost comment.postId))
  if let some id := comment.parentId then
    let parent ← requireKnown (.unknownParent id) fun s => s.comments.row? id
    if parent.postId ≠ comment.postId then throw (.content .parentOnOtherPost)
  let comment := { comment with updatedAt := now }
  save (Store.saveComment comment)
  return comment

def saveMessage (message : ContactMessage) : Edit ContactMessage := do
  obey message.validate
  save fun s => .ok (s.saveMessage message)
  return message

def saveSettings (settings : SiteSettings) (now : Timestamp) : Edit SiteSettings := do
  obey settings.validate
  let settings := { settings with updatedAt := some now }
  save fun s => .ok (s.saveSettings settings)
  return settings

end Editor
end Gazette
