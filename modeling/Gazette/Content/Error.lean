import Gazette.Text.Quoted

/-!
# Content errors

The reasons for which the rules of content refuse an entity, and their wording.
-/
namespace Gazette

inductive ContentError
  | emptySlug (name : String)
  | invalidSlug (slug : String)
  | invalidStatus (word : String)
  | required (field : String)
  | notAnEmail (email : String)
  | tooFewPostsPerPage
  | unknownCategory (id : String)
  | unknownTag (id : String)
  | unknownPost (id : String)
  | unknownParent (id : String)
  | parentOnOtherPost
deriving DecidableEq, Repr, Inhabited

def ContentError.message : ContentError → String
  | emptySlug name => "Could not derive a slug from " ++ Text.quoted name
  | invalidSlug slug =>
    "Invalid slug " ++ Text.quoted slug ++ ": use letters, numbers, hyphens or underscores"
  | invalidStatus word => "Unknown post status " ++ Text.quoted word
  | required field => field ++ " cannot be empty"
  | notAnEmail email => email ++ " is not an email address"
  | tooFewPostsPerPage => "posts_per_page must be at least 1"
  | unknownCategory id => "Unknown category " ++ id
  | unknownTag id => "Unknown tag " ++ id
  | unknownPost id => "Unknown post " ++ id
  | unknownParent id => "Unknown parent comment " ++ id
  | parentOnOtherPost => "Parent comment belongs to a different post"

end Gazette
