import Gazette.Store.Basic

/-!
# Records

A row is stored as a record, which names its columns in a fixed order. A column holds nothing, a
whole number, an inexact number or a text. A row is read back by the places of its columns, and what
cannot be read is an error that names the place.
-/
namespace Gazette

/-- What a column holds. No use is made of the value of an inexact number. -/
inductive Cell
  | null
  | integer (n : Int)
  | real
  | text (s : String)
deriving DecidableEq, Repr, Inhabited

/-- The name of the kind of a cell. -/
def Cell.kind : Cell → String
  | null => "Null"
  | integer _ => "Integer"
  | real => "Real"
  | text _ => "Text"

inductive CellError
  /-- Another kind of cell is wanted. -/
  | kind
  /-- The text has another form than is wanted. -/
  | text
deriving DecidableEq, Repr, Inhabited

class Column (α : Type) where
  write : α → Cell
  read : Cell → Except CellError α

namespace Column

instance : Column String where
  write := .text
  read
    | .text s => .ok s
    | _ => .error .kind

instance : Column Int where
  write := .integer
  read
    | .integer n => .ok n
    | _ => .error .kind

/-- A truth value is stored as 1 or 0, and every number but 0 is read as true. -/
instance : Column Bool where
  write b := .integer (if b then 1 else 0)
  read
    | .integer n => .ok (n != 0)
    | _ => .error .kind

/-- A value that is stored as a text. -/
@[reducible]
def ofText {α : Type} (write : α → String) (read? : String → Option α) : Column α where
  write a := .text (write a)
  read
    | .text s => (read? s).elim (.error .text) .ok
    | _ => .error .kind

instance : Column Timestamp :=
  ofText Timestamp.storedText Timestamp.readStored?

instance : Column PostStatus :=
  ofText PostStatus.word PostStatus.ofWord?

instance {α : Type} [Column α] : Column (Option α) where
  write
    | none => .null
    | some a => write a
  read
    | .null => .ok none
    | cell => (read cell).map some

end Column

/-- What a column holds for a counter. -/
def Counter.cell : Counter → Cell
  | exact n => .integer n
  | inexact => .real

/-- The names and cells of a row, in order. -/
abbrev Record := List (String × Cell)

namespace Record

/-- Reads the column at a place. -/
def read {α : Type} [Column α] (index : Nat) (record : Record) : Except StoreError α :=
  match record[index]? with
  | none => .error (.noColumn index)
  | some (name, cell) =>
    match Column.read cell with
    | .ok a => .ok a
    | .error .kind => .error (.mistyped cell.kind index name)
    | .error .text => .error (.malformed index)

end Record

open Column Record

namespace User

def record (user : User) : Record :=
  [ ("id", write user.id), ("username", write user.username), ("email", write user.email),
    ("bio", write user.bio), ("is_admin", write user.isAdmin),
    ("date_joined", write user.dateJoined), ("updated_at", write user.updatedAt) ]

def ofRecord (r : Record) : Except StoreError User := do
  .ok {
    id := ← r.read 0
    username := ← r.read 1
    email := ← r.read 2
    bio := ← r.read 3
    isAdmin := ← r.read 4
    dateJoined := ← r.read 5
    updatedAt := ← r.read 6 }

end User

namespace Category

def record (category : Category) : Record :=
  [ ("id", write category.id), ("name", write category.name), ("slug", write category.slug),
    ("description", write category.description), ("color", write category.color),
    ("sort_order", write category.order), ("is_active", write category.isActive),
    ("created_at", write category.createdAt) ]

def ofRecord (r : Record) : Except StoreError Category := do
  .ok {
    id := ← r.read 0
    name := ← r.read 1
    slug := ← r.read 2
    description := ← r.read 3
    color := ← r.read 4
    order := ← r.read 5
    isActive := ← r.read 6
    createdAt := ← r.read 7 }

end Category

namespace Tag

def record (tag : Tag) : Record :=
  [ ("id", write tag.id), ("name", write tag.name), ("slug", write tag.slug),
    ("created_at", write tag.createdAt) ]

def ofRecord (r : Record) : Except StoreError Tag := do
  .ok {
    id := ← r.read 0
    name := ← r.read 1
    slug := ← r.read 2
    createdAt := ← r.read 3 }

end Tag

namespace PostRow

def record (row : PostRow) : Record :=
  [ ("id", write row.id), ("title", write row.title), ("slug", write row.slug),
    ("content", write row.content), ("excerpt", write row.excerpt),
    ("author_id", write row.authorId), ("category_id", write row.categoryId),
    ("status", write row.status), ("is_active", write row.isActive),
    ("published_date", write row.publishedDate), ("view_count", row.viewCount.cell),
    ("likes", row.likes.cell), ("created_at", write row.createdAt),
    ("updated_at", write row.updatedAt) ]

end PostRow

namespace Post

/-- The post of a record. Its tags stand elsewhere. -/
def ofRecord (r : Record) : Except StoreError Post := do
  .ok {
    id := ← r.read 0
    title := ← r.read 1
    slug := ← r.read 2
    content := ← r.read 3
    excerpt := ← r.read 4
    authorId := ← r.read 5
    categoryId := ← r.read 6
    tagIds := []
    status := ← r.read 7
    isActive := ← r.read 8
    publishedDate := ← r.read 9
    viewCount := ← r.read 10
    likes := ← r.read 11
    createdAt := ← r.read 12
    updatedAt := ← r.read 13 }

end Post

namespace Comment

def record (comment : Comment) : Record :=
  [ ("id", write comment.id), ("post_id", write comment.postId),
    ("author_id", write comment.authorId), ("parent_id", write comment.parentId),
    ("content", write comment.content), ("is_approved", write comment.isApproved),
    ("created_at", write comment.createdAt), ("updated_at", write comment.updatedAt) ]

def ofRecord (r : Record) : Except StoreError Comment := do
  .ok {
    id := ← r.read 0
    postId := ← r.read 1
    authorId := ← r.read 2
    parentId := ← r.read 3
    content := ← r.read 4
    isApproved := ← r.read 5
    createdAt := ← r.read 6
    updatedAt := ← r.read 7 }

end Comment

namespace ContactMessage

def record (message : ContactMessage) : Record :=
  [ ("id", write message.id), ("name", write message.name), ("email", write message.email),
    ("subject", write message.subject), ("message", write message.message),
    ("is_read", write message.isRead), ("created_at", write message.createdAt) ]

def ofRecord (r : Record) : Except StoreError ContactMessage := do
  .ok {
    id := ← r.read 0
    name := ← r.read 1
    email := ← r.read 2
    subject := ← r.read 3
    message := ← r.read 4
    isRead := ← r.read 5
    createdAt := ← r.read 6 }

end ContactMessage

namespace SiteSettings

/-- The record of the settings without their fixed key, which is not read. -/
def record (settings : SiteSettings) : Record :=
  [ ("site_name", write settings.siteName), ("admin_email", write settings.adminEmail),
    ("posts_per_page", write settings.postsPerPage),
    ("maintenance_mode", write settings.maintenanceMode),
    ("allow_registrations", write settings.allowRegistrations),
    ("updated_at", write settings.updatedAt) ]

def ofRecord (r : Record) : Except StoreError SiteSettings := do
  .ok {
    siteName := ← r.read 0
    adminEmail := ← r.read 1
    postsPerPage := ← r.read 2
    maintenanceMode := ← r.read 3
    allowRegistrations := ← r.read 4
    updatedAt := ← r.read 5 }

end SiteSettings
end Gazette
