import Gazette.Http.Request

/-!
# Resources

The interface is made of resources, each at a path of its own, and of the operations that a
resource offers. A part of a path that stands for a slug or an id is kept as it was sent.
-/
namespace Gazette.Api
open Gazette.Http Gazette.Text

inductive Operation
  | showHome
  | listPosts
  | listFeatured
  | createPost
  | readPost (slug : String)
  | replacePost (slug : String)
  | updatePost (slug : String)
  | deletePost (slug : String)
  | likePost (slug : String)
  | listCategories
  | createCategory
  | readCategory (slug : String)
  | replaceCategory (slug : String)
  | updateCategory (slug : String)
  | deleteCategory (slug : String)
  | listCategoryPosts (slug : String)
  | listTags
  | createTag
  | readTag (slug : String)
  | updateTag (slug : String)
  | deleteTag (slug : String)
  | listComments
  | createComment
  | readComment (id : String)
  | updateComment (id : String)
  | deleteComment (id : String)
  | listMessages
  | sendMessage
  | readMessage (id : String)
  | markMessage (id : String)
  | deleteMessage (id : String)
  | readSettings
  | updateSettings
  | listUsers
  | register
  | readSelf
  | updateSelf
  | readUser (id : String)
  | deleteUser (id : String)
deriving DecidableEq, Repr

/-- A resource, as the operations that it offers and their methods. -/
abbrev Resource := List (Method × Operation)

namespace Resource

/-- The resource at a path below `/api`, given as its parts. -/
def ofParts? : List String → Option Resource
  | ["posts"] => some [(.get, .listPosts), (.post, .createPost)]
  | ["posts", "featured"] => some [(.get, .listFeatured)]
  | ["posts", slug, "like"] => some [(.post, .likePost slug)]
  | ["posts", slug] =>
    some [(.get, .readPost slug), (.put, .replacePost slug), (.patch, .updatePost slug),
      (.delete, .deletePost slug)]
  | ["categories"] => some [(.get, .listCategories), (.post, .createCategory)]
  | ["categories", slug, "posts"] => some [(.get, .listCategoryPosts slug)]
  | ["categories", slug] =>
    some [(.get, .readCategory slug), (.put, .replaceCategory slug),
      (.patch, .updateCategory slug), (.delete, .deleteCategory slug)]
  | ["tags"] => some [(.get, .listTags), (.post, .createTag)]
  | ["tags", slug] =>
    some [(.get, .readTag slug), (.put, .updateTag slug), (.patch, .updateTag slug),
      (.delete, .deleteTag slug)]
  | ["comments"] => some [(.get, .listComments), (.post, .createComment)]
  | ["comments", id] =>
    some [(.get, .readComment id), (.patch, .updateComment id), (.delete, .deleteComment id)]
  | ["contact"] => some [(.get, .listMessages), (.post, .sendMessage)]
  | ["contact", id] =>
    some [(.get, .readMessage id), (.patch, .markMessage id), (.delete, .deleteMessage id)]
  | ["settings"] =>
    some [(.get, .readSettings), (.put, .updateSettings), (.patch, .updateSettings)]
  | ["users"] => some [(.get, .listUsers), (.post, .register)]
  | ["users", "me"] => some [(.get, .readSelf), (.patch, .updateSelf)]
  | ["users", id] => some [(.get, .readUser id), (.delete, .deleteUser id)]
  | _ => none

/-- The resource at a path. A path that ends in a slash leads nowhere, but for the home page. An
empty part elsewhere can stand for a slug or an id like any other: `/api/posts//like` is a
resource. -/
def ofPath? (path : String) : Option Resource :=
  if path = "/" then some [(.get, .showHome)]
  else
    match (split (· == '/') path.toList).map String.ofList with
    | "" :: "api" :: parts => if parts.getLast? = some "" then none else ofParts? parts
    | _ => none

/-- The method whose operation answers a request. What can be got can also be asked for without
its body. -/
def effective : Method → Method
  | .head => .get
  | method => method

def operation? (method : Method) (resource : Resource) : Option Operation :=
  resource.lookup (effective method)

/-- The methods that a resource allows. -/
def allow (resource : Resource) : String :=
  String.intercalate "," <| resource.flatMap fun (method, _) =>
    if method = .get then ["GET", "HEAD"] else [method.name]

end Resource
end Gazette.Api
