import Gazette.Api.Input
import Gazette.Api.Reading
import Gazette.Store.Delete

/-!
# Publishing

Writing posts, categories and tags. A post belongs to its author; categories and tags are managed
by admins, but everyone with an account may add a tag.
-/
namespace Gazette.Api
open Api.Action Gazette.Text

variable [Libraries]

/-- The status that an input asks for. -/
def settleStatus (replace : Bool) (old : PostStatus) (given : Option String) :
    Action PostStatus :=
  match given with
  | none => return settle replace .draft old none
  | some word =>
    match PostStatus.ofWord? (trim word) with
    | some status => return status
    | none => throw (.ofContent (.invalidStatus (trim word)))

/-- The category that an input asks for, by its id. -/
def settleCategory (replace : Bool) (old : Option String) (given : Option String) :
    Action (Option String) :=
  match given with
  | none => return settle replace none old none
  | some slug => do
    let slug := trim slug
    if slug = "" then return none
    match ← look (Store.findCategoryAt? slug) with
    | some category => return some category.id
    | none => throw (.badRequest ("Unknown category " ++ slug))

/-- The ids of the tags with some slugs. -/
def findTags : List String → Action (List String)
  | [] => return []
  | slug :: slugs => do
    match ← look (Store.findTagAt? (trim slug)) with
    | some tag => return tag.id :: (← findTags slugs)
    | none => throw (.badRequest ("Unknown tag " ++ slug))

/-- The post that an input makes of another. -/
def applyInput (input : PostInput) (replace : Bool) (post : Post) : Action Post := do
  let status ← settleStatus replace post.status input.status
  let categoryId ← settleCategory replace post.categoryId input.category
  let tagIds ← match input.tags with
    | some slugs => findTags slugs
    | none => pure (settle replace [] post.tagIds none)
  -- A title and a slug that are left out stay, even where everything is replaced.
  return { post with
    title := input.title.getD post.title
    slug := input.slug.getD post.slug
    content := settle replace "" post.content input.content
    excerpt := settle replace "" post.excerpt input.excerpt
    status := status
    isActive := settle replace true post.isActive input.isActive
    categoryId := categoryId
    tagIds := tagIds }

/-- A post before anything is known about it but its author. -/
def newPost (context : Context) (authorId : String) : Post where
  id := context.freshId
  title := ""
  slug := ""
  content := ""
  excerpt := ""
  authorId := authorId
  categoryId := none
  tagIds := []
  status := .draft
  isActive := true
  publishedDate := none
  viewCount := 0
  likes := 0
  createdAt := context.now
  updatedAt := context.now

def savePost (context : Context) (post : Post) : Action PostView := do
  let saved ← edit (Editor.savePost post context.now)
  viewPost saved.slug

def createPost (context : Context) (caller : Caller) (input : PostInput) : Action PostView := do
  savePost context (← applyInput input true (newPost context caller.id))

/-- The post with a slug, if the caller may modify it. -/
def ownPost (caller : Caller) (slug : String) : Action Post := do
  let post ← found (← lookOr (Store.findPostAt? slug))
  ensure (caller.mayModify post.authorId) .forbidden
  return post

def updatePost (context : Context) (caller : Caller) (slug : String) (input : PostInput)
    (replace : Bool) : Action PostView := do
  let post ← ownPost caller slug
  savePost context (← applyInput input replace post)

/-- Replaces a post. A title must be given. -/
def replacePost (context : Context) (caller : Caller) (slug : String) (input : PostInput) :
    Action PostView := do
  ensure input.title.isSome (.badRequest "title is required")
  updatePost context caller slug input true

def deletePost (caller : Caller) (slug : String) : Action Unit := do
  let post ← ownPost caller slug
  let _ ← change (Store.deletePost post.id)

/-- Counts a like, and answers the new number. -/
def likePost (slug : String) : Action Int := do
  let post ← found (← lookOr (Store.findPostAt? slug))
  -- The like is counted and read in one step, and kept even if it cannot be read.
  let answer ← ExceptT.mk <| .once fun s =>
    let (outcome, s) := s.addLike post.id
    (.ok outcome, s)
  match answer with
  | .ok likes => return likes
  | .error e => throw (.ofStore e)

/-- A category before anything is known about it. -/
def newCategory (context : Context) : Category where
  id := context.freshId
  name := ""
  slug := ""
  description := ""
  color := Category.defaultColor
  order := 0
  isActive := true
  createdAt := context.now

def createCategory (context : Context) (caller : Caller) (input : CategoryInput) :
    Action Category := do
  requireAdmin caller
  ensure input.name.isSome (.badRequest "name is required")
  edit (Editor.saveCategory (input.apply true (newCategory context)))

def updateCategory (caller : Caller) (slug : String) (input : CategoryInput) (replace : Bool) :
    Action Category := do
  requireAdmin caller
  ensure (!replace || input.name.isSome) (.badRequest "name is required")
  let category ← readCategory slug
  edit (Editor.saveCategory (input.apply replace category))

def deleteCategory (caller : Caller) (slug : String) : Action Unit := do
  requireAdmin caller
  let category ← readCategory slug
  let _ ← change fun s => .ok (s.deleteCategory category.id)

def createTag (context : Context) (input : TagInput) : Action Tag := do
  match input.name with
  | none => throw (.badRequest "name is required")
  | some name =>
    edit <| Editor.saveTag
      { id := context.freshId, name := name, slug := input.slug.getD "", createdAt := context.now }

def updateTag (caller : Caller) (slug : String) (input : TagInput) : Action Tag := do
  requireAdmin caller
  let tag ← readTag slug
  edit (Editor.saveTag (input.apply tag))

def deleteTag (caller : Caller) (slug : String) : Action Unit := do
  requireAdmin caller
  let tag ← readTag slug
  let _ ← change fun s => .ok (s.deleteTag tag.id)

end Gazette.Api
