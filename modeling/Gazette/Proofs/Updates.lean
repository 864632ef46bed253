import Gazette.Proofs.Discretion
import Gazette.Proofs.Registration
import Gazette.Proofs.Shown
import Gazette.Proofs.Slugs

/-!
# Updates

What an update leaves of the thing that it names. What the request does not state stays as it was,
or becomes what it is in a new thing where a post or a category is replaced. The answer tells what
is stored then, and nothing else was written.
-/
namespace Gazette
open StoreProcedure Text

namespace Api
variable {s t : Store} {caller : Caller} {context : Context}

/-- A status is the one that a word stands for, or another one if no word is given. -/
def IsStatus (given : Option String) (otherwise status : PostStatus) : Prop :=
  match given with
  | none => status = otherwise
  | some word => PostStatus.ofWord? (trim word) = some status

/-- A category is the one at a slug, none if the slug is blank, or another one if no slug is
given. -/
def IsCategory (given otherwise categoryId : Option String) (s : Store) : Prop :=
  match given with
  | none => categoryId = otherwise
  | some slug =>
    if trim slug = "" then categoryId = none
    else ∃ category, s.findCategoryAt? (trim slug) = some category ∧ categoryId = some category.id

/-- Tags are those at some slugs, or other ones if no slugs are given. -/
def AreTags (given : Option (List String)) (otherwise tagIds : List String) (s : Store) : Prop :=
  match given with
  | none => ∀ id, id ∈ tagIds ↔ id ∈ otherwise
  | some slugs => ∀ id, id ∈ tagIds ↔
    ∃ slug ∈ slugs, ∃ tag, s.findTagAt? (trim slug) = some tag ∧ tag.id = id

/-- An input gives a post what it states, and for what it leaves out the values of another post. -/
structure PostInput.Fills (input : PostInput) (s : Store) (base new : Post) : Prop where
  content : new.content = input.content.getD base.content
  excerpt : new.excerpt = input.excerpt.getD base.excerpt
  isActive : new.isActive = input.isActive.getD base.isActive
  status : IsStatus input.status base.status new.status
  category : IsCategory input.category base.categoryId new.categoryId s
  tags : AreTags input.tags base.tagIds new.tagIds s

/-- What becomes of a stored post when an input is applied to it. What is neither stated nor taken
from the other post stays as it was, and a date of publication is never moved. -/
structure PostInput.Updates [Libraries] (input : PostInput) (now : Timestamp) (s : Store)
    (old base new : Post) : Prop extends input.Fills s base new where
  id : new.id = old.id
  title : new.title = input.title.getD old.title
  slug : new.slug = (Writing.mk .post old.id input.slug).leaves old.slug new.title
  authorId : new.authorId = old.authorId
  viewCount : new.viewCount = old.viewCount
  likes : new.likes = old.likes
  createdAt : new.createdAt = old.createdAt
  publishedDate : new.publishedDate =
    old.publishedDate.or (if new.status = .published then some now else none)
  updatedAt : new.updatedAt = now

end Api

namespace Api
variable {s t : Store} {caller : Caller} {context : Context}

structure CategoryInput.Updates [Libraries] (input : CategoryInput) (old base new : Category) :
    Prop where
  id : new.id = old.id
  name : new.name = input.name.getD old.name
  slug : new.slug = (Writing.mk .category old.id input.slug).leaves old.slug new.name
  description : new.description = input.description.getD base.description
  color : new.color = input.color.getD base.color
  order : new.order = input.order.getD base.order
  isActive : new.isActive = input.isActive.getD base.isActive
  createdAt : new.createdAt = old.createdAt

structure TagInput.Updates [Libraries] (input : TagInput) (old new : Tag) : Prop where
  id : new.id = old.id
  name : new.name = input.name.getD old.name
  slug : new.slug = (Writing.mk .tag old.id input.slug).leaves old.slug new.name
  createdAt : new.createdAt = old.createdAt

def Operation.Edits : Operation → Prop
  | .createPost | .replacePost _ | .updatePost _ | .likePost _ | .createCategory
  | .replaceCategory _ | .updateCategory _ | .createTag | .updateTag _ | .createComment
  | .updateComment _ | .sendMessage | .markMessage _ | .updateSettings | .register
  | .updateSelf => True
  | _ => False

namespace Exchange
variable {x : Exchange} {op : Operation} {response : Http.Response}

/-- Whether what a request states for the post at a part of its path makes another one of it. What
is left out is taken from a base. -/
def UpdatesPost [Libraries] (x : Exchange) (raw : String) (base : Post → Post) (new : Post)
    (s : Store) :
    Prop :=
  ∃ slug old input, parameter? raw = some slug ∧ s.findPostAt? slug = .ok (some old) ∧
    x.input? PostInput = some input ∧ input.Updates x.now s old (base old) new

def UpdatesCategory [Libraries] (x : Exchange) (raw : String) (base : Category → Category)
    (new : Category) (s : Store) : Prop :=
  ∃ slug old input, parameter? raw = some slug ∧ s.findCategoryAt? slug = some old ∧
    x.input? CategoryInput = some input ∧ input.Updates old (base old) new

/-- What a request makes of the item that it is about, going by what it states and by what is
stored. Something new has the id that came with the request. -/
def Settles [Libraries] (x : Exchange) (op : Operation) (shown : Shown) (s : Store) : Prop :=
  match op, shown with
  | .createPost, .post view => view.post.id = x.freshId
  | .replacePost raw, .post view =>
    x.UpdatesPost raw (fun old => newPost x.context old.authorId) view.post s
  | .updatePost raw, .post view => x.UpdatesPost raw (fun old => old) view.post s
  | .likePost raw, .post view =>
    ∃ slug old, parameter? raw = some slug ∧ s.findPostAt? slug = .ok (some old) ∧
      view.post = { old with likes := old.likes + 1 }
  | .createCategory, .category category => category.id = x.freshId
  | .replaceCategory raw, .category category =>
    x.UpdatesCategory raw (fun _ => newCategory x.context) category s
  | .updateCategory raw, .category category => x.UpdatesCategory raw (fun old => old) category s
  | .createTag, .tag tag => tag.id = x.freshId
  | .updateTag raw, .tag tag =>
    ∃ slug old input, parameter? raw = some slug ∧ s.findTagAt? slug = some old ∧
      x.input? TagInput = some input ∧ input.Updates old tag
  | .createComment, .comment comment => comment.id = x.freshId
  | .updateComment raw, .comment comment =>
    ∃ id old input, parameter? raw = some id ∧ s.comments.row? id = some old ∧
      x.input? CommentChange = some input ∧
      comment = { old with
        content := input.content.getD old.content
        isApproved := input.isApproved.getD old.isApproved
        updatedAt := x.now }
  | .sendMessage, .message message => message.id = x.freshId
  | .markMessage raw, .message message =>
    ∃ id old mark, parameter? raw = some id ∧ s.messages.row? id = some old ∧
      x.input? ReadMark = some mark ∧ message = { old with isRead := mark.isRead }
  | .updateSettings, .settings settings =>
    ∃ input, x.input? SettingsInput = some input ∧
      settings = { s.loadSettings with
        siteName := input.siteName.getD s.loadSettings.siteName
        adminEmail := input.adminEmail.getD s.loadSettings.adminEmail
        postsPerPage := input.postsPerPage.getD s.loadSettings.postsPerPage
        maintenanceMode := input.maintenanceMode.getD s.loadSettings.maintenanceMode
        allowRegistrations := input.allowRegistrations.getD s.loadSettings.allowRegistrations
        updatedAt := some x.now }
  | .register, .user user => user.id = x.freshId
  | .updateSelf, .user user =>
    ∃ caller old input, x.callerIn s = some caller ∧ s.users.row? caller.id = some old ∧
      x.input? ProfileChange = some input ∧
      user = { old with
        email := (input.email.map trim).getD old.email
        bio := input.bio.getD old.bio
        updatedAt := x.now }
  | _, _ => False

/-- The document that answers a request. A registration also tells the token of the session, and a
like tells the number of likes alone. -/
def document (x : Exchange) (op : Operation) (shown : Shown) : Json :=
  match op, shown with
  | .register, _ => .object [("user", shown.toJson), ("token", .text x.freshToken)]
  | .likePost _, .post view => .object [("likes", .int view.post.likes)]
  | _, _ => shown.toJson

end Exchange
end Api

attribute [local instance] Libraries.bare

end Gazette
