import Gazette.Libraries
import Gazette.Text.Blank

/-!
# Slugs

A slug names an entity in an address. It is either given by the writer, in which case only its
shape is checked, or derived from a display name: the name is spelled in ASCII, letters are
lowercased, and every run of other characters between two letters or digits becomes one hyphen.
-/
namespace Gazette.Slug
open Gazette.Text

def isLetterOrDigit (c : Char) : Bool :=
  ('a' ≤ c && c ≤ 'z') || ('A' ≤ c && c ≤ 'Z') || ('0' ≤ c && c ≤ '9')

/-- The characters a given slug may hold. -/
def isSlugChar (c : Char) : Bool :=
  isLetterOrDigit c || c == '-' || c == '_'

/-- The shape of a stored slug: not empty, and made of letters, digits, hyphens and underscores. -/
def isWellFormed (s : String) : Bool :=
  !s.toList.isEmpty && s.toList.all isSlugChar

/-- Joins the letters and digits of a text with one hyphen for every run of other characters
between them. `started` says that a letter or digit was kept before, and `gap` that something was
left out since. -/
def hyphenate (started gap : Bool) : List Char → List Char
  | [] => []
  | c :: cs =>
    if isLetterOrDigit c then
      if started && gap then '-' :: c.toLower :: hyphenate true false cs
      else c.toLower :: hyphenate true false cs
    else hyphenate started true cs

/-- How a character is spelled in ASCII: as it is, if it can be. -/
def spell [Libraries] (c : Char) : List Char :=
  if c.toNat < 0x80 then [c] else Libraries.spelling c

/-- The slug derived from a text, empty if the text spells no letter or digit. -/
def ofText [Libraries] (s : String) : String :=
  String.ofList (hyphenate false false (s.toList.flatMap spell))

end Gazette.Slug
