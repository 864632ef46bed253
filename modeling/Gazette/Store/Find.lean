import Gazette.Content.Filter
import Gazette.Store.Record

/-!
# Reading
-/
namespace Gazette.Store

def findUserNamed? (username : String) (s : Store) : Option User :=
  s.users.find? fun user => user.username == username

def findCategoryAt? (slug : String) (s : Store) : Option Category :=
  s.categories.find? fun category => category.slug == slug

def findTagAt? (slug : String) (s : Store) : Option Tag :=
  s.tags.find? fun tag => tag.slug == slug

def findPostRowAt? (slug : String) (s : Store) : Option PostRow :=
  s.posts.find? fun row => row.slug == slug

/-- The tags of a post, by name. -/
def tagsOf (postId : String) (s : Store) : List Tag :=
  (s.tags.filter fun tag => s.links.contains ⟨postId, tag.id⟩).mergeSort fun a b =>
    a.name < b.name || (a.name == b.name && a.id ≤ b.id)

/-- A stored post with its tags. -/
def postOf (row : PostRow) (s : Store) : Except StoreError Post := do
  let post ← Post.ofRecord row.record
  .ok { post with tagIds := (s.tagsOf row.id).map (·.id) }

def findPost? (id : String) (s : Store) : Except StoreError (Option Post) :=
  (s.posts.row? id).mapM fun row => s.postOf row

def findPostAt? (slug : String) (s : Store) : Except StoreError (Option Post) :=
  (s.findPostRowAt? slug).mapM fun row => s.postOf row

/-- The number of approved comments on a post. -/
def approvedCount (postId : String) (s : Store) : Nat :=
  s.comments.countP fun comment => comment.postId == postId && comment.isApproved

/-- A stored post next to its author and to its category, if it is in one. -/
structure JoinedPost where
  row : PostRow
  author : User
  category : Option Category
deriving DecidableEq, Repr, Inhabited

/-- The stored posts, each next to every user who is its author and every category that it is in.
A post in no category stands alone, and one without an author is left out. -/
def joinedPosts (s : Store) : List JoinedPost :=
  s.posts.flatMap fun row =>
    (s.users.filter fun user => user.id == row.authorId).flatMap fun author =>
      match s.categories.filter fun category => row.categoryId == some category.id with
      | [] => [⟨row, author, none⟩]
      | categories => categories.map fun category => ⟨row, author, some category⟩

/-- The record of a joined post: its own columns, and after these what the post shows of its author,
of its category and of its comments. -/
def joinedRecord (joined : JoinedPost) (s : Store) : Record :=
  joined.row.record ++
    [ ("username", Column.write joined.author.username),
      ("slug", Column.write (joined.category.map (·.slug))),
      ("name", Column.write (joined.category.map (·.name))),
      ("(SELECT COUNT(*) FROM comments cm WHERE cm.post_id = p.id AND cm.is_approved = 1)",
        Column.write (s.approvedCount joined.row.id : Int)) ]

def viewOf (joined : JoinedPost) (s : Store) : Except StoreError PostView := do
  let record := s.joinedRecord joined
  let post ← Post.ofRecord record
  let slug : Option String ← record.read 15
  let name : Option String ← record.read 16
  let author : String ← record.read 14
  let count : Int ← record.read 17
  let tags := s.tagsOf joined.row.id
  .ok {
    post := { post with tagIds := tags.map (·.id) }
    authorUsername := author
    category := slug.bind fun slug => name.map fun name => ⟨slug, name⟩
    tags := tags.map fun tag => ⟨tag.slug, tag.name⟩
    commentCount := count.toNat }

/-- The view of the post with a slug, active or not. -/
def findView? (slug : String) (s : Store) : Except StoreError (Option PostView) :=
  (s.joinedPosts.find? fun joined => joined.row.slug == slug).mapM fun joined => s.viewOf joined

def loadSettings (s : Store) : SiteSettings :=
  (s.settings.row? "1").getD {}

def maintenanceMode (s : Store) : Bool :=
  s.loadSettings.maintenanceMode

end Gazette.Store
