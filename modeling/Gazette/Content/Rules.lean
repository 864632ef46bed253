import Gazette.Content.Error
import Gazette.Content.Model
import Gazette.Content.Slug

/-!
# Rules of content

What holds for an entity before it is stored. None of the rules looks at other entities.
-/
namespace Gazette
open Gazette.Text

/-- Refuses a field that holds nothing but white space. -/
def require (field value : String) : Except ContentError Unit :=
  if isBlankText value then .error (.required field) else .ok ()

/-- The slug to store for an entity: the given one, trimmed, if it is not blank; else the one
derived from the display name. A given slug is never derived anew, whatever the name is. -/
def settleSlug [Libraries] (name slug : String) : Except ContentError String :=
  let given := trim slug
  if isBlankText slug then
    let derived := Slug.ofText name
    if derived = "" then .error (.emptySlug name) else .ok derived
  else if Slug.isWellFormed given then .ok given
  else .error (.invalidSlug given)

/-- Stamps the date on which a post is first published. It is never moved or cleared. -/
def Post.latchPublishedDate (post : Post) (now : Timestamp) : Post :=
  if post.status = .published ∧ post.publishedDate = none then
    { post with publishedDate := some now }
  else post

def Post.prepare [Libraries] (post : Post) (now : Timestamp) : Except ContentError Post := do
  require "title" post.title
  let slug ← settleSlug post.title post.slug
  .ok { { post with slug := slug }.latchPublishedDate now with updatedAt := now }

def Category.prepare [Libraries] (category : Category) : Except ContentError Category := do
  require "name" category.name
  let slug ← settleSlug category.name category.slug
  .ok { category with slug := slug }

def Tag.prepare [Libraries] (tag : Tag) : Except ContentError Tag := do
  require "name" tag.name
  let slug ← settleSlug tag.name tag.slug
  .ok { tag with slug := slug }

def User.validate (user : User) : Except ContentError Unit := do
  require "username" user.username
  require "email" user.email
  if '@' ∈ user.email.toList then .ok () else .error (.notAnEmail user.email)

def ContactMessage.validate (message : ContactMessage) : Except ContentError Unit := do
  require "name" message.name
  require "email" message.email
  require "subject" message.subject
  require "message" message.message

def SiteSettings.validate (settings : SiteSettings) : Except ContentError Unit := do
  require "site_name" settings.siteName
  if settings.postsPerPage < 1 then .error .tooFewPostsPerPage else .ok ()

/-- The username and the email of a user are stored without white space around them. -/
def User.trimmed (user : User) : User :=
  { user with username := trim user.username, email := trim user.email }

end Gazette
