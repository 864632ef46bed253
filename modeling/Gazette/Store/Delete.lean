import Gazette.Store.Basic

/-!
# Deleting

Deleting a row deletes the rows that refer to it, and the rows that refer to those. A category is
an exception: its posts stay without it. A deletion that would have to follow too long a chain of
references is refused and changes nothing.
-/
namespace Gazette.Store

/-- The length that a chain of references may have. -/
def cascadeLimit : Nat := 1000

/-- Removes the selected comments and all replies to removed ones. A reply is stored after what it
replies to, so that one pass finds all of them. `removed` lists the comments removed so far, each
with the length of the chain of references that led to it; there is no result if a chain becomes
too long. -/
def withoutThreads (selected : Comment → Bool) (start : Nat) :
    (removed : List (String × Nat)) → Table Comment → Option (Table Comment)
  | _, [] => some []
  | removed, comment :: rest =>
    let length? :=
      match comment.parentId.bind (List.lookup · removed) with
      | some length => some (length + 1)
      -- A reply to what was removed is counted from there, even if it is selected by itself.
      | none => if selected comment then some start else none
    match length? with
    | some length =>
      if length < cascadeLimit then
        withoutThreads selected start ((comment.id, length) :: removed) rest
      else none
    | none => (withoutThreads selected start removed rest).map (comment :: ·)

/-- Removes comments and the replies to them. -/
def removeComments (selected : Comment → Bool) (start : Nat) (s : Store) :
    Except StoreError Store :=
  match withoutThreads selected start [] s.comments with
  | some comments => .ok { s with comments := comments }
  | none => .error .cascadeTooDeep

/-- Removes the comments on posts and the replies to them, post by post. What goes with one post is
gone when the turn of the next comes, so that no chain of references leads over it any more. -/
def removeCommentsOn (ids : List String) (start : Nat) (s : Store) : Except StoreError Store :=
  ids.foldlM (fun s id => s.removeComments (·.postId == id) start) s

/-- Removes posts with their tag links and comments. -/
def removePosts (selected : PostRow → Bool) (start : Nat) (s : Store) :
    Except StoreError Store :=
  let gone := (s.posts.filter selected).map (·.id)
  { s with
    posts := s.posts.filter fun row => !selected row
    links := s.links.filter fun link => !gone.contains link.postId }.removeCommentsOn gone
      (start + 1)

/-- Deletes a row, if it exists, and says whether it did. -/
def deleting {α : Type} [Keyed α] (id : String) (table : Table α) (s : Store)
    (remaining : Except StoreError Store) : Except StoreError (Bool × Store) :=
  if table.has id then remaining.map fun s => (true, s) else .ok (false, s)

/-- Deletes a comment and the replies to it. -/
def deleteComment (id : String) (s : Store) : Except StoreError (Bool × Store) :=
  deleting id s.comments s (s.removeComments (·.id == id) 0)

def deletePost (id : String) (s : Store) : Except StoreError (Bool × Store) :=
  deleting id s.posts s (s.removePosts (·.id == id) 0)

/-- Deletes a user with everything the user has written and all sessions. -/
def deleteUser (id : String) (s : Store) : Except StoreError (Bool × Store) :=
  deleting id s.users s <| do
    let s ← { s with users := s.users.remove id }.removeComments (·.authorId == id) 1
    let s ← s.removePosts (·.authorId == id) 1
    .ok { s with sessions := s.sessions.filter (·.userId != id) }

/-- Deletes a category. Its posts are left without a category. -/
def deleteCategory (id : String) (s : Store) : Bool × Store :=
  (s.categories.has id,
    { s with
      categories := s.categories.remove id
      posts := s.posts.map fun row =>
        if row.categoryId == some id then { row with categoryId := none } else row })

def deleteTag (id : String) (s : Store) : Bool × Store :=
  (s.tags.has id,
    { s with tags := s.tags.remove id, links := s.links.filter (·.tagId != id) })

def deleteMessage (id : String) (s : Store) : Bool × Store :=
  (s.messages.has id, { s with messages := s.messages.remove id })

end Gazette.Store
