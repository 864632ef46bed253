import Gazette.Store.Query

/-!
# Listings

Every listing has a fixed order. Texts are ordered by their octets, and things that the order does
not tell apart stand in the order of their insertion.
-/
namespace Gazette.Store

def listUsers (s : Store) : List User :=
  s.users.mergeSort fun a b => a.username ≤ b.username

def listTags (s : Store) : List Tag :=
  s.tags.mergeSort fun a b => a.name ≤ b.name

/-- The categories in the order that they state, then by name. -/
def listCategories (includeInactive : Bool) (s : Store) : List Category :=
  (s.categories.filter fun category => category.isActive || includeInactive).mergeSort fun a b =>
    a.order < b.order || (a.order == b.order && a.name ≤ b.name)

/-- The contact messages, newest first. -/
def listMessages (s : Store) : List ContactMessage :=
  s.messages.mergeSort fun a b => isNewestFirst (some a.createdAt, a.id) (some b.createdAt, b.id)

/-- The comments on a post, or on all of them, oldest first. -/
def listComments (postId : Option String) (includeUnapproved : Bool) (s : Store) :
    List CommentView :=
  let chosen := s.comments.filter fun comment =>
    postId.all (· == comment.postId) && (comment.isApproved || includeUnapproved)
  let sorted := chosen.mergeSort fun a b =>
    isNewestFirst (some b.createdAt, b.id) (some a.createdAt, a.id)
  sorted.filterMap fun comment =>
    (s.users.row? comment.authorId).map fun author => ⟨comment, author.username⟩

/-- The greatest limit that can be stated. -/
def greatestLimit : Nat := 0x7fffffffffffffff

/-- The posts that meet a filter. -/
def listPosts (filter : PostFilter) (s : Store) : Except StoreError (List PostView) :=
  let query := PostQuery.ofFilter filter
  if query.limit.any (greatestLimit < ·) then .error .limitTooLarge
  else (query.answer s).mapM fun joined => s.viewOf joined

end Gazette.Store
