import Gazette.Content.Status
import Gazette.Text.Blank

/-!
# Filters over posts
-/
namespace Gazette
open Gazette.Text

/-- Newest first, by creation or by first publication. -/
inductive PostOrder
  | created
  | published
deriving DecidableEq, Repr, Inhabited

/-- The conditions on a listing of active posts. All given ones must hold. -/
structure PostFilter where
  categorySlug : Option String := none
  authorId : Option String := none
  tagSlug : Option String := none
  status : Option PostStatus := none
  publishedOnly : Bool := false
  order : PostOrder := .created
  limit : Option Nat := none
deriving DecidableEq, Repr, Inhabited

namespace PostFilter

/-- The filter for raw query values. Values are trimmed; a blank value or an unknown status is no
condition. -/
def ofParams (category author tag status : Option String) : PostFilter where
  categorySlug := category.bind nonBlank?
  authorId := author.bind nonBlank?
  tagSlug := tag.bind nonBlank?
  status := status.bind fun word => PostStatus.ofWord? (trim word)

/-- The number of posts on the featured list. -/
def featuredLimit : Nat := 5

/-- The posts most recently published for the first time. -/
def featured : PostFilter where
  publishedOnly := true
  order := .published
  limit := some featuredLimit

end PostFilter
end Gazette
