import Gazette.Store.Record

/-!
# Saving

A save writes a thing under its id. If the id is new, a row is added; otherwise only some columns
of the row are written, and the others keep what they hold. A save that would break a rule of the
store changes nothing.
-/
namespace Gazette.Store

/-- Refuses a row if another row holds the same value in a column. -/
def requireFree {α β : Type} [Keyed α] [BEq β] (unique : UniqueColumn) (column : α → β) (row : α)
    (table : Table α) : Except StoreError Unit :=
  if table.isTaken column row then .error (.taken unique) else .ok ()

/-- Refuses a reference to a row that does not exist. -/
def requireRows (allExist : Bool) : Except StoreError Unit :=
  if allExist then .ok () else .error .dangling

def saveUser (user : User) (s : Store) : Except StoreError Store := do
  requireFree .userEmail User.email user s.users
  requireFree .userName User.username user s.users
  .ok { s with
    users := s.users.put (fun old new => { new with dateJoined := old.dateJoined }) user }

def saveCategory (category : Category) (s : Store) : Except StoreError Store := do
  requireFree .categorySlug Category.slug category s.categories
  .ok { s with
    categories := s.categories.put (fun old new => { new with createdAt := old.createdAt })
      category }

def saveTag (tag : Tag) (s : Store) : Except StoreError Store := do
  requireFree .tagSlug Tag.slug tag s.tags
  .ok { s with tags := s.tags.put (fun old new => { new with createdAt := old.createdAt }) tag }

/-- The row that a new post is stored as. -/
def PostRow.ofPost (post : Post) : PostRow where
  id := post.id
  title := post.title
  slug := post.slug
  content := post.content
  excerpt := post.excerpt
  authorId := post.authorId
  categoryId := post.categoryId
  status := post.status
  isActive := post.isActive
  publishedDate := post.publishedDate
  viewCount := .exact post.viewCount
  likes := .exact post.likes
  createdAt := post.createdAt
  updatedAt := post.updatedAt

/-- The row that a saved post leaves behind. The author, the counters and the date of creation
are never written again, and the date of publication only once. -/
def PostRow.merge (old new : PostRow) : PostRow :=
  { new with
    authorId := old.authorId
    publishedDate := old.publishedDate.or new.publishedDate
    viewCount := old.viewCount
    likes := old.likes
    createdAt := old.createdAt }

/-- Saves a post and makes its tags exactly the given ones. -/
def savePost (post : Post) (s : Store) : Except StoreError Store := do
  let row := PostRow.ofPost post
  requireFree .postSlug PostRow.slug row s.posts
  -- The author is not written again, so only a new post needs one.
  requireRows (s.posts.has post.id || s.users.has post.authorId)
  requireRows (post.categoryId.all fun id => s.categories.has id)
  requireRows (post.tagIds.all fun id => s.tags.has id)
  .ok { s with
    posts := s.posts.put PostRow.merge row
    links := s.links.filter (·.postId != post.id) ++ post.tagIds.eraseDups.map (⟨post.id, ·⟩) }

/-- Saves a comment. What it is about, who wrote it and what it replies to is written once; a
comment may be its own parent. -/
def saveComment (comment : Comment) (s : Store) : Except StoreError Store := do
  requireRows (s.comments.has comment.id ||
    (s.posts.has comment.postId && s.users.has comment.authorId &&
      comment.parentId.all fun id => id == comment.id || s.comments.has id))
  .ok { s with
    comments := s.comments.put
      (fun old new =>
        { old with
          content := new.content
          isApproved := new.isApproved
          updatedAt := new.updatedAt })
      comment }

def saveMessage (message : ContactMessage) (s : Store) : Store :=
  { s with messages := s.messages.put (fun old new => { old with isRead := new.isRead }) message }

def saveSettings (settings : SiteSettings) (s : Store) : Store :=
  { s with settings := s.settings.put (fun _ new => new) settings }

/-- Counts a view of a post, if the post exists. -/
def recordView (id : String) (s : Store) : Store :=
  { s with posts := s.posts.update id fun row => { row with viewCount := row.viewCount.next } }

def like (id : String) (s : Store) : Store :=
  { s with posts := s.posts.update id fun row => { row with likes := row.likes.next } }

/-- Counts a like of a post and reads the new number. The like counts even if the number can no
longer be read. -/
def addLike (id : String) (s : Store) : Except StoreError Int × Store :=
  match s.posts.row? id with
  | none => (.error (.noSuchPost id), s)
  | some row => (Record.read 0 [("likes", row.likes.next.cell)], s.like id)

end Gazette.Store
