import Gazette.Api.Action
import Gazette.Page.Home
import Gazette.Store.Listing

/-!
# Reading

What callers can read. Inactive posts and unapproved comments are shown to admins and to their
authors only, as if they did not exist.
-/
namespace Gazette.Api
open Api.Action

def listPosts (filter : PostFilter) : Action (List PostView) :=
  lookOr (Store.listPosts filter)

def viewPost (slug : String) : Action PostView := do
  found (← lookOr (Store.findView? slug))

/-- Reads a post and counts the view. The answer counts it too. -/
def readPost (caller : Option Caller) (slug : String) : Action PostView := do
  let view ← viewPost slug
  ensure (view.post.isActive || maySeeHidden caller view.post.authorId) .notFound
  change fun s => .ok ((), s.recordView view.post.id)
  return { view with post := { view.post with viewCount := view.post.viewCount + 1 } }

def readCategory (slug : String) : Action Category := do
  found (← look (Store.findCategoryAt? slug))

/-- The posts of a category that meet the other conditions of a filter. -/
def listCategoryPosts (slug : String) (filter : PostFilter) : Action (List PostView) := do
  let category ← readCategory slug
  listPosts { filter with categorySlug := some category.slug }

def readTag (slug : String) : Action Tag := do
  found (← look (Store.findTagAt? slug))

/-- Admins see inactive categories too. -/
def listCategories (caller : Option Caller) : Action (List Category) :=
  look (Store.listCategories (isAdmin caller))

/-- The comments on one post or on all. Admins see unapproved comments too. -/
def listComments (caller : Option Caller) (postId : Option String) : Action (List CommentView) :=
  look (Store.listComments (postId.bind Text.nonBlank?) (isAdmin caller))

def findComment (id : String) : Action Comment := do
  found (← look fun s => s.comments.row? id)

def readComment (caller : Option Caller) (id : String) : Action Comment := do
  let comment ← findComment id
  ensure (comment.isApproved || maySeeHidden caller comment.authorId) .notFound
  return comment

def listMessages (caller : Caller) : Action (List ContactMessage) := do
  requireAdmin caller
  look Store.listMessages

def readMessage (caller : Caller) (id : String) : Action ContactMessage := do
  requireAdmin caller
  found (← look fun s => s.messages.row? id)

def readUser (id : String) : Action User := do
  found (← look fun s => s.users.row? id)

def readHome : Action Page.Home := do
  let settings ← look Store.loadSettings
  let featured ← listPosts PostFilter.featured
  return {
    siteName := settings.siteName
    maintenanceMode := settings.maintenanceMode
    featured := featured.map Page.Teaser.ofView }

end Gazette.Api
