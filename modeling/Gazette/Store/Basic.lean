import Gazette.Content.Model
import Gazette.Store.Counter
import Gazette.Store.Error
import Gazette.Store.Table

/-!
# The store

The store holds one table for each kind of thing, the links between posts and tags, the sessions
of users, and the settings once they have been saved.
-/
namespace Gazette

/-- A post as it is stored. Its tags are stored as links. -/
structure PostRow where
  id : String
  title : String
  slug : String
  content : String
  excerpt : String
  authorId : String
  categoryId : Option String
  status : PostStatus
  isActive : Bool
  publishedDate : Option Timestamp
  viewCount : Counter
  likes : Counter
  createdAt : Timestamp
  updatedAt : Timestamp
deriving DecidableEq, Repr, Inhabited

/-- A post has a tag. -/
structure TagLink where
  postId : String
  tagId : String
deriving DecidableEq, Repr, Inhabited

/-- A session belongs to whoever knows its token, and ends at a full second. -/
structure Session where
  id : String
  token : String
  userId : String
  /-- The text of that second. -/
  expiresAt : String
deriving DecidableEq, Repr, Inhabited

instance : Keyed User := ⟨User.id⟩
instance : Keyed Category := ⟨Category.id⟩
instance : Keyed Tag := ⟨Tag.id⟩
instance : Keyed PostRow := ⟨PostRow.id⟩
instance : Keyed Comment := ⟨Comment.id⟩
instance : Keyed ContactMessage := ⟨ContactMessage.id⟩
instance : Keyed Session := ⟨Session.id⟩

/-- The settings have a fixed key, so that there is one row of them at most. -/
instance : Keyed SiteSettings := ⟨fun _ => "1"⟩

structure Store where
  users : Table User := []
  sessions : Table Session := []
  categories : Table Category := []
  tags : Table Tag := []
  posts : Table PostRow := []
  links : List TagLink := []
  comments : Table Comment := []
  messages : Table ContactMessage := []
  settings : Table SiteSettings := []
deriving DecidableEq, Repr, Inhabited

end Gazette
