import Gazette.Content.Status
import Gazette.Time.Timestamp

/-!
# Content models

The things a blog is made of, as its writers and readers see them.
-/
namespace Gazette

structure User where
  id : String
  username : String
  email : String
  bio : String
  isAdmin : Bool
  dateJoined : Timestamp
  updatedAt : Timestamp
deriving DecidableEq, Repr, Inhabited

structure Category where
  id : String
  name : String
  slug : String
  description : String
  color : String
  order : Int
  isActive : Bool
  createdAt : Timestamp
deriving DecidableEq, Repr, Inhabited

structure Tag where
  id : String
  name : String
  slug : String
  createdAt : Timestamp
deriving DecidableEq, Repr, Inhabited

structure Post where
  id : String
  title : String
  slug : String
  content : String
  excerpt : String
  authorId : String
  categoryId : Option String
  tagIds : List String
  status : PostStatus
  isActive : Bool
  publishedDate : Option Timestamp
  viewCount : Int
  likes : Int
  createdAt : Timestamp
  updatedAt : Timestamp
deriving DecidableEq, Repr, Inhabited

structure Comment where
  id : String
  postId : String
  authorId : String
  parentId : Option String
  content : String
  isApproved : Bool
  createdAt : Timestamp
  updatedAt : Timestamp
deriving DecidableEq, Repr, Inhabited

structure ContactMessage where
  id : String
  name : String
  email : String
  subject : String
  message : String
  isRead : Bool
  createdAt : Timestamp
deriving DecidableEq, Repr, Inhabited

/-- The settings of the site. The default values hold until settings are saved. -/
structure SiteSettings where
  siteName : String := "My Blog"
  adminEmail : String := "admin@example.com"
  postsPerPage : Int := 10
  maintenanceMode : Bool := false
  allowRegistrations : Bool := true
  updatedAt : Option Timestamp := none
deriving DecidableEq, Repr, Inhabited

/-- A category or tag as a post mentions it. -/
structure SlugRef where
  slug : String
  name : String
deriving DecidableEq, Repr, Inhabited

/-- A post together with what it refers to. The comment count is of approved comments. -/
structure PostView where
  post : Post
  authorUsername : String
  category : Option SlugRef
  tags : List SlugRef
  commentCount : Nat
deriving DecidableEq, Repr, Inhabited

/-- A comment together with its author's name. -/
structure CommentView where
  comment : Comment
  authorUsername : String
deriving DecidableEq, Repr, Inhabited

def Comment.isReply (c : Comment) : Bool :=
  c.parentId.isSome

/-- The color of a category that was given none. -/
def Category.defaultColor : String := "#6c757d"

end Gazette
