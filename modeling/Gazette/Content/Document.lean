import Gazette.Content.Filter
import Gazette.Content.Model
import Gazette.Json.Value

/-!
# Documents

The JSON form in which the things of a blog are shown. An absent value is shown as `null`, an
instant as its written form, and a view shows the members of what it views before its own.
-/
namespace Gazette

def Timestamp.toJson (t : Timestamp) : Json :=
  .text t.text

def SlugRef.toJson (ref : SlugRef) : Json :=
  .object [("slug", .text ref.slug), ("name", .text ref.name)]

def User.toJson (user : User) : Json :=
  .object
    [ ("id", .text user.id), ("username", .text user.username), ("email", .text user.email),
      ("bio", .text user.bio), ("is_admin", .bool user.isAdmin),
      ("date_joined", user.dateJoined.toJson), ("updated_at", user.updatedAt.toJson) ]

def Category.toJson (category : Category) : Json :=
  .object
    [ ("id", .text category.id), ("name", .text category.name), ("slug", .text category.slug),
      ("description", .text category.description), ("color", .text category.color),
      ("order", .int category.order), ("is_active", .bool category.isActive),
      ("created_at", category.createdAt.toJson) ]

def Tag.toJson (tag : Tag) : Json :=
  .object
    [ ("id", .text tag.id), ("name", .text tag.name), ("slug", .text tag.slug),
      ("created_at", tag.createdAt.toJson) ]

def Post.members (post : Post) : List (String × Json) :=
  [ ("id", .text post.id), ("title", .text post.title), ("slug", .text post.slug),
    ("content", .text post.content), ("excerpt", .text post.excerpt),
    ("author_id", .text post.authorId), ("category_id", .ofOption .text post.categoryId),
    ("tag_ids", .array (post.tagIds.map .text)), ("status", .text post.status.word),
    ("is_active", .bool post.isActive),
    ("published_date", .ofOption Timestamp.toJson post.publishedDate),
    ("view_count", .int post.viewCount), ("likes", .int post.likes),
    ("created_at", post.createdAt.toJson), ("updated_at", post.updatedAt.toJson) ]

def Post.toJson (post : Post) : Json :=
  .object post.members

def PostView.toJson (view : PostView) : Json :=
  .object <| view.post.members ++
    [ ("author_username", .text view.authorUsername),
      ("category", .ofOption SlugRef.toJson view.category),
      ("tags", .array (view.tags.map SlugRef.toJson)),
      ("comment_count", .int view.commentCount) ]

def Comment.members (comment : Comment) : List (String × Json) :=
  [ ("id", .text comment.id), ("post_id", .text comment.postId),
    ("author_id", .text comment.authorId), ("parent_id", .ofOption .text comment.parentId),
    ("content", .text comment.content), ("is_approved", .bool comment.isApproved),
    ("created_at", comment.createdAt.toJson), ("updated_at", comment.updatedAt.toJson) ]

def Comment.toJson (comment : Comment) : Json :=
  .object comment.members

def CommentView.toJson (view : CommentView) : Json :=
  .object <| view.comment.members ++
    [ ("author_username", .text view.authorUsername), ("is_reply", .bool view.comment.isReply) ]

def ContactMessage.toJson (message : ContactMessage) : Json :=
  .object
    [ ("id", .text message.id), ("name", .text message.name), ("email", .text message.email),
      ("subject", .text message.subject), ("message", .text message.message),
      ("is_read", .bool message.isRead), ("created_at", message.createdAt.toJson) ]

def SiteSettings.toJson (settings : SiteSettings) : Json :=
  .object
    [ ("site_name", .text settings.siteName), ("admin_email", .text settings.adminEmail),
      ("posts_per_page", .int settings.postsPerPage),
      ("maintenance_mode", .bool settings.maintenanceMode),
      ("allow_registrations", .bool settings.allowRegistrations),
      ("updated_at", .ofOption Timestamp.toJson settings.updatedAt) ]

def PostOrder.word : PostOrder → String
  | created => "created"
  | published => "published"

def PostFilter.toJson (filter : PostFilter) : Json :=
  .object
    [ ("category_slug", .ofOption .text filter.categorySlug),
      ("author_id", .ofOption .text filter.authorId),
      ("tag_slug", .ofOption .text filter.tagSlug),
      ("status", .ofOption (fun s => .text s.word) filter.status),
      ("published_only", .bool filter.publishedOnly), ("order", .text filter.order.word),
      ("limit", .ofOption (fun n => .int n) filter.limit) ]

end Gazette
