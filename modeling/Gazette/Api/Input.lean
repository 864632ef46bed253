import Gazette.Content.Model
import Gazette.Json.Record

/-!
# Inputs

What a client may state about a thing. A field that is left out of an update keeps its value, and
is set to its default where a thing is replaced as a whole.
-/
namespace Gazette.Api
open Gazette.Json

/-- An input that can be read from a record. -/
class Input (α : Type) where
  fields : List Field
  ofRecord : Record → α

/-- The value to store for a field: the given one, or else the default if the thing is replaced, or
else the old value. -/
def settle {α : Type} (replace : Bool) (default old : α) (given : Option α) : α :=
  given.getD (if replace then default else old)

structure PostInput where
  title : Option String := none
  slug : Option String := none
  content : Option String := none
  excerpt : Option String := none
  status : Option String := none
  /-- The slug of a category; a blank one means no category. -/
  category : Option String := none
  /-- The slugs of all tags. -/
  tags : Option (List String) := none
  isActive : Option Bool := none
deriving DecidableEq, Repr, Inhabited

instance : Input PostInput where
  fields :=
    [⟨"title", .text, .optional⟩, ⟨"slug", .text, .optional⟩, ⟨"content", .text, .optional⟩,
      ⟨"excerpt", .text, .optional⟩, ⟨"status", .text, .optional⟩,
      ⟨"category", .text, .optional⟩, ⟨"tags", .texts, .optional⟩,
      ⟨"is_active", .flag, .optional⟩]
  ofRecord r :=
    { title := r.text? "title", slug := r.text? "slug", content := r.text? "content"
      excerpt := r.text? "excerpt", status := r.text? "status", category := r.text? "category"
      tags := r.texts? "tags", isActive := r.flag? "is_active" }

structure CategoryInput where
  name : Option String := none
  slug : Option String := none
  description : Option String := none
  color : Option String := none
  order : Option Int := none
  isActive : Option Bool := none
deriving DecidableEq, Repr, Inhabited

instance : Input CategoryInput where
  fields :=
    [⟨"name", .text, .optional⟩, ⟨"slug", .text, .optional⟩, ⟨"description", .text, .optional⟩,
      ⟨"color", .text, .optional⟩, ⟨"order", .integer, .optional⟩,
      ⟨"is_active", .flag, .optional⟩]
  ofRecord r :=
    { name := r.text? "name", slug := r.text? "slug", description := r.text? "description"
      color := r.text? "color", order := r.integer? "order", isActive := r.flag? "is_active" }

/-- The category that an input makes of another. -/
def CategoryInput.apply (input : CategoryInput) (replace : Bool) (category : Category) :
    Category :=
  { category with
    name := input.name.getD category.name
    slug := input.slug.getD category.slug
    description := settle replace "" category.description input.description
    color := settle replace Category.defaultColor category.color input.color
    order := settle replace 0 category.order input.order
    isActive := settle replace true category.isActive input.isActive }

structure TagInput where
  name : Option String := none
  slug : Option String := none
deriving DecidableEq, Repr, Inhabited

instance : Input TagInput where
  fields := [⟨"name", .text, .optional⟩, ⟨"slug", .text, .optional⟩]
  ofRecord r := { name := r.text? "name", slug := r.text? "slug" }

def TagInput.apply (input : TagInput) (tag : Tag) : Tag :=
  { tag with name := input.name.getD tag.name, slug := input.slug.getD tag.slug }

structure NewComment where
  post : String
  /-- The id of the comment that is replied to; a blank one means none. -/
  parent : Option String := none
  content : String
deriving DecidableEq, Repr, Inhabited

instance : Input NewComment where
  fields :=
    [⟨"post", .text, .required⟩, ⟨"parent", .text, .optional⟩, ⟨"content", .text, .required⟩]
  ofRecord r :=
    { post := (r.text? "post").getD "", parent := r.text? "parent"
      content := (r.text? "content").getD "" }

structure CommentChange where
  content : Option String := none
  isApproved : Option Bool := none
deriving DecidableEq, Repr, Inhabited

instance : Input CommentChange where
  fields := [⟨"content", .text, .optional⟩, ⟨"is_approved", .flag, .optional⟩]
  ofRecord r := { content := r.text? "content", isApproved := r.flag? "is_approved" }

structure ContactForm where
  name : String
  email : String
  subject : String
  message : String
deriving DecidableEq, Repr, Inhabited

instance : Input ContactForm where
  fields :=
    [⟨"name", .text, .required⟩, ⟨"email", .text, .required⟩, ⟨"subject", .text, .required⟩,
      ⟨"message", .text, .required⟩]
  ofRecord r :=
    { name := (r.text? "name").getD "", email := (r.text? "email").getD ""
      subject := (r.text? "subject").getD "", message := (r.text? "message").getD "" }

structure ReadMark where
  isRead : Bool
deriving DecidableEq, Repr, Inhabited

instance : Input ReadMark where
  fields := [⟨"is_read", .flag, .required⟩]
  ofRecord r := { isRead := (r.flag? "is_read").getD false }

structure SettingsInput where
  siteName : Option String := none
  adminEmail : Option String := none
  postsPerPage : Option Int := none
  maintenanceMode : Option Bool := none
  allowRegistrations : Option Bool := none
deriving DecidableEq, Repr, Inhabited

instance : Input SettingsInput where
  fields :=
    [⟨"site_name", .text, .optional⟩, ⟨"admin_email", .text, .optional⟩,
      ⟨"posts_per_page", .integer, .optional⟩, ⟨"maintenance_mode", .flag, .optional⟩,
      ⟨"allow_registrations", .flag, .optional⟩]
  ofRecord r :=
    { siteName := r.text? "site_name", adminEmail := r.text? "admin_email"
      postsPerPage := r.integer? "posts_per_page", maintenanceMode := r.flag? "maintenance_mode"
      allowRegistrations := r.flag? "allow_registrations" }

def SettingsInput.apply (input : SettingsInput) (settings : SiteSettings) : SiteSettings :=
  { settings with
    siteName := input.siteName.getD settings.siteName
    adminEmail := input.adminEmail.getD settings.adminEmail
    postsPerPage := input.postsPerPage.getD settings.postsPerPage
    maintenanceMode := input.maintenanceMode.getD settings.maintenanceMode
    allowRegistrations := input.allowRegistrations.getD settings.allowRegistrations }

structure Registration where
  username : String
  email : String
  bio : String := ""
  /-- Whether the new user is to be an admin. Only an admin may ask for this. -/
  isAdmin : Bool := false
deriving DecidableEq, Repr, Inhabited

instance : Input Registration where
  fields :=
    [⟨"username", .text, .required⟩, ⟨"email", .text, .required⟩, ⟨"bio", .text, .defaulted⟩,
      ⟨"is_admin", .flag, .defaulted⟩]
  ofRecord r :=
    { username := (r.text? "username").getD "", email := (r.text? "email").getD ""
      bio := (r.text? "bio").getD "", isAdmin := (r.flag? "is_admin").getD false }

structure ProfileChange where
  email : Option String := none
  bio : Option String := none
deriving DecidableEq, Repr, Inhabited

instance : Input ProfileChange where
  fields := [⟨"email", .text, .optional⟩, ⟨"bio", .text, .optional⟩]
  ofRecord r := { email := r.text? "email", bio := r.text? "bio" }

def ProfileChange.apply (change : ProfileChange) (user : User) : User :=
  { user with email := change.email.getD user.email, bio := change.bio.getD user.bio }

end Gazette.Api
