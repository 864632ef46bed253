import Gazette.Store.Find

/-!
# Queries over posts

A listing of posts is a query: conditions on the joined posts, an order and a limit. A condition
that compares with a value from outside names the place of that value among the arguments of the
query, counted from one. Conditions and arguments are gathered side by side from a filter.
-/
namespace Gazette
open Store

inductive Condition
  | isActive
  /-- The category has the slug at a place of the arguments. -/
  | categorySlug (place : Nat)
  | author (place : Nat)
  /-- There is a link to a tag with the slug at a place of the arguments. -/
  | tagSlug (place : Nat)
  | status (place : Nat)
  | wasPublished
deriving DecidableEq, Repr, Inhabited

/-- Whether a value is the argument at a place. No value is the argument of a place that has
none. -/
def isArgument (arguments : List String) (place : Nat) (value : String) : Bool :=
  0 < place && arguments[place - 1]? == some value

def Condition.holds (condition : Condition) (arguments : List String) (s : Store)
    (joined : JoinedPost) : Bool :=
  match condition with
  | isActive => joined.row.isActive
  | categorySlug place => joined.category.any fun c => isArgument arguments place c.slug
  | author place => isArgument arguments place joined.row.authorId
  | tagSlug place =>
    s.links.any fun link => link.postId == joined.row.id &&
      s.tags.any fun tag => tag.id == link.tagId && isArgument arguments place tag.slug
  | status place => isArgument arguments place joined.row.status.word
  | wasPublished => joined.row.publishedDate.isSome

structure PostQuery where
  conditions : List Condition
  arguments : List String
  order : PostOrder
  limit : Option Nat
deriving DecidableEq, Repr, Inhabited

namespace PostQuery

/-- Adds a condition that compares with a value, if there is a value. -/
def compare (query : PostQuery) (value : Option String) (condition : Nat → Condition) :
    PostQuery :=
  match value with
  | none => query
  | some value =>
    let arguments := query.arguments ++ [value]
    { query with
      arguments := arguments
      conditions := query.conditions ++ [condition arguments.length] }

/-- The query for the active posts that meet every condition of a filter. -/
def ofFilter (filter : PostFilter) : PostQuery :=
  let query : PostQuery := ⟨[.isActive], [], filter.order, filter.limit⟩
  let query := query.compare filter.categorySlug .categorySlug
  let query := query.compare filter.authorId .author
  let query := query.compare filter.tagSlug .tagSlug
  let query := query.compare (filter.status.map PostStatus.word) .status
  if filter.publishedOnly then { query with conditions := query.conditions ++ [.wasPublished] }
  else query

/-- Whether a joined post meets all conditions. -/
def selects (query : PostQuery) (s : Store) (joined : JoinedPost) : Bool :=
  query.conditions.all fun condition => condition.holds query.arguments s joined

end PostQuery

namespace Store

/-- Whether something from one instant stands before something from another if the newest is
first. What has no instant stands last, and the greater id first among equals. -/
def isNewestFirst (a b : Option Timestamp × String) : Bool :=
  match a.1.map Timestamp.storedText, b.1.map Timestamp.storedText with
  | some x, some y => y < x || (x == y && b.2 ≤ a.2)
  | some _, none => true
  | none, some _ => false
  | none, none => b.2 ≤ a.2

/-- The instant that a listing orders a stored post by. -/
def orderKey (order : PostOrder) (row : PostRow) : Option Timestamp :=
  match order with
  | .created => some row.createdAt
  | .published => row.publishedDate

end Store

/-- The joined posts that a query selects, in its order and up to its limit. -/
def PostQuery.answer (query : PostQuery) (s : Store) : List JoinedPost :=
  let sorted := (s.joinedPosts.filter (query.selects s)).mergeSort fun a b =>
    isNewestFirst (orderKey query.order a.row, a.row.id) (orderKey query.order b.row, b.row.id)
  match query.limit with
  | some limit => sorted.take limit
  | none => sorted

end Gazette
