import Gazette.Api.Discussion
import Gazette.Api.Membership
import Gazette.Api.Publishing
import Gazette.Api.Resource
import Gazette.Content.Document
import Gazette.Http.MediaType

/-!
# Exchanges

How the operations of the interface take their input from a request and put their outcome into a
response. The caller is found out first, then the parts of the path, the query and the body are
read, and then the operation is carried out. A body is assumed to be within the limit of
2097152 octets beyond which it is not read.
-/
namespace Gazette.Api
open Gazette.Http Gazette.Text Api.Action

/-- What can be set for a site from outside. -/
structure Site where
  /-- The name of the cookie that holds the token of a session. -/
  cookieName : String
  /-- How long a new session lasts. -/
  sessionHours : Nat
  /-- The origins of the pages that may call the interface. No site is served with a list that holds
  the wildcard `*`. -/
  allowedOrigins : List String
deriving DecidableEq, Repr, Inhabited

/-- Whether a text can be the value of a header. -/
def isHeaderValue (s : String) : Bool :=
  s.toList.all fun c => c == '\t' || (0x20 ≤ c.toNat && c.toNat != 0x7f)

/-- The allowed origins that a request can name. -/
def Site.origins (site : Site) : List String :=
  site.allowedOrigins.filter isHeaderValue

/-- A request, and what is known when it arrives. -/
structure Exchange where
  site : Site
  request : Request
  now : Timestamp
  /-- An id that is not in use. -/
  freshId : String
  /-- An id of a session that is not in use. -/
  freshSessionId : String
  /-- A token that is not in use. -/
  freshToken : String
deriving Repr, Inhabited

namespace Exchange

def context (x : Exchange) : Context where
  now := x.now
  freshId := x.freshId
  freshSessionId := x.freshSessionId
  freshToken := x.freshToken
  sessionHours := x.site.sessionHours

/-- The caller, if the request carries the token of a live session. -/
def caller? (x : Exchange) : Action (Option Caller) :=
  match x.request.token? x.site.cookieName with
  | none => return none
  | some token => look fun s => (s.authenticate? token x.now).map Caller.ofUser

/-- The caller, who must be known. -/
def caller (x : Exchange) : Action Caller := do
  match ← x.caller? with
  | some caller => return caller
  | none => throw .unauthorized

/-- A part of the path, decoded. -/
def parameter (name raw : String) : Action String :=
  match Utf8.text? (Percent.decode raw.toList) with
  | some s => return s
  | none => throw (.rejected (.invalidParameter name))

/-- The fields of the query with given names. None of these may be given twice. -/
def queryFields (x : Exchange) (names : List String) : Action (List (String × String)) := do
  let fields := (Percent.formFields x.request.query.toList).filter fun f => names.contains f.1
  ensure ((fields.map (·.1)).eraseDups.length == fields.length) (.rejected .repeatedField)
  return fields

def postFilter (x : Exchange) : Action PostFilter := do
  let fields ← x.queryFields ["category", "author", "status", "tag"]
  return PostFilter.ofParams (fields.lookup "category") (fields.lookup "author")
    (fields.lookup "tag") (fields.lookup "status")

def input (x : Exchange) (α : Type) [Input α] : Action α := do
  ensure ((x.request.visibleHeader? "content-type").any MediaType.isJson) (.rejected .notJson)
  match Json.readRecord (Input.fields α) (Json.tokenize x.request.body) with
  | .ok record => return Input.ofRecord record
  | .error .malformed => throw (.rejected .malformedBody)
  | .error .mismatch => throw (.rejected .mismatchedBody)

def shown {α : Type} (toJson : α → Json) (action : Action α) : Action Response := do
  return .json 200 (toJson (← action))

def shownAll {α : Type} (toJson : α → Json) (action : Action (List α)) : Action Response := do
  return .json 200 (.array ((← action).map toJson))

def created {α : Type} (toJson : α → Json) (action : Action α) : Action Response := do
  return .json 201 (toJson (← action))

def removed (action : Action Unit) : Action Response := do
  action
  return .empty 204

def perform [Libraries] (x : Exchange) : Operation → Action Response
  | .showHome => do return .page (← readHome).render
  | .listPosts => do
    let filter ← x.postFilter
    shownAll PostView.toJson (listPosts filter)
  | .listFeatured => shownAll PostView.toJson (listPosts PostFilter.featured)
  | .createPost => do
    let caller ← x.caller
    let input ← x.input PostInput
    created PostView.toJson (createPost x.context caller input)
  | .readPost raw => do
    let caller ← x.caller?
    let slug ← parameter "slug" raw
    shown PostView.toJson (readPost caller slug)
  | .replacePost raw => do
    let caller ← x.caller
    let slug ← parameter "slug" raw
    let input ← x.input PostInput
    shown PostView.toJson (replacePost x.context caller slug input)
  | .updatePost raw => do
    let caller ← x.caller
    let slug ← parameter "slug" raw
    let input ← x.input PostInput
    shown PostView.toJson (updatePost x.context caller slug input false)
  | .deletePost raw => do
    let caller ← x.caller
    let slug ← parameter "slug" raw
    removed (deletePost caller slug)
  | .likePost raw => do
    let _ ← x.caller
    let slug ← parameter "slug" raw
    shown (fun likes => .object [("likes", .int likes)]) (likePost slug)
  | .listCategories => do
    let caller ← x.caller?
    shownAll Category.toJson (listCategories caller)
  | .createCategory => do
    let caller ← x.caller
    let input ← x.input CategoryInput
    created Category.toJson (createCategory x.context caller input)
  | .readCategory raw => do
    let slug ← parameter "slug" raw
    shown Category.toJson (readCategory slug)
  | .replaceCategory raw => do
    let caller ← x.caller
    let slug ← parameter "slug" raw
    let input ← x.input CategoryInput
    shown Category.toJson (updateCategory caller slug input true)
  | .updateCategory raw => do
    let caller ← x.caller
    let slug ← parameter "slug" raw
    let input ← x.input CategoryInput
    shown Category.toJson (updateCategory caller slug input false)
  | .deleteCategory raw => do
    let caller ← x.caller
    let slug ← parameter "slug" raw
    removed (deleteCategory caller slug)
  | .listCategoryPosts raw => do
    let slug ← parameter "slug" raw
    let filter ← x.postFilter
    shownAll PostView.toJson (listCategoryPosts slug filter)
  | .listTags => shownAll Tag.toJson (look Store.listTags)
  | .createTag => do
    let _ ← x.caller
    let input ← x.input TagInput
    created Tag.toJson (createTag x.context input)
  | .readTag raw => do
    let slug ← parameter "slug" raw
    shown Tag.toJson (readTag slug)
  | .updateTag raw => do
    let caller ← x.caller
    let slug ← parameter "slug" raw
    let input ← x.input TagInput
    shown Tag.toJson (updateTag caller slug input)
  | .deleteTag raw => do
    let caller ← x.caller
    let slug ← parameter "slug" raw
    removed (deleteTag caller slug)
  | .listComments => do
    let caller ← x.caller?
    let fields ← x.queryFields ["post"]
    shownAll CommentView.toJson (listComments caller (fields.lookup "post"))
  | .createComment => do
    let caller ← x.caller
    let input ← x.input NewComment
    created Comment.toJson (createComment x.context caller input)
  | .readComment raw => do
    let caller ← x.caller?
    let id ← parameter "id" raw
    shown Comment.toJson (readComment caller id)
  | .updateComment raw => do
    let caller ← x.caller
    let id ← parameter "id" raw
    let input ← x.input CommentChange
    shown Comment.toJson (updateComment x.context caller id input)
  | .deleteComment raw => do
    let caller ← x.caller
    let id ← parameter "id" raw
    removed (deleteComment caller id)
  | .listMessages => do
    let caller ← x.caller
    shownAll ContactMessage.toJson (listMessages caller)
  | .sendMessage => do
    let form ← x.input ContactForm
    created ContactMessage.toJson (sendMessage x.context form)
  | .readMessage raw => do
    let caller ← x.caller
    let id ← parameter "id" raw
    shown ContactMessage.toJson (readMessage caller id)
  | .markMessage raw => do
    let caller ← x.caller
    let id ← parameter "id" raw
    let mark ← x.input ReadMark
    shown ContactMessage.toJson (markMessage caller id mark)
  | .deleteMessage raw => do
    let caller ← x.caller
    let id ← parameter "id" raw
    removed (deleteMessage caller id)
  | .readSettings => shown SiteSettings.toJson (look Store.loadSettings)
  | .updateSettings => do
    let caller ← x.caller
    let input ← x.input SettingsInput
    shown SiteSettings.toJson (updateSettings x.context caller input)
  | .listUsers => shownAll User.toJson (look Store.listUsers)
  | .register => do
    let caller ← x.caller?
    let input ← x.input Registration
    created (fun (user, token) => .object [("user", user.toJson), ("token", .text token)])
      (register x.context caller input)
  | .readSelf => do
    let caller ← x.caller
    shown User.toJson (readUser caller.id)
  | .updateSelf => do
    let caller ← x.caller
    let input ← x.input ProfileChange
    shown User.toJson (updateProfile x.context caller input)
  | .readUser raw => do
    let id ← parameter "id" raw
    shown User.toJson (readUser id)
  | .deleteUser raw => do
    let caller ← x.caller
    let id ← parameter "id" raw
    removed (deleteUser caller id)

end Exchange
end Gazette.Api
