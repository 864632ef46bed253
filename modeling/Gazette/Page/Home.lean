import Gazette.Content.Model
import Gazette.Page.Markup

/-!
# The home page

The home page shows the name of the site and the featured posts.
-/
namespace Gazette.Page

/-- A post as it stands on the home page. -/
structure Teaser where
  title : String
  slug : String
  author : String
  excerpt : String
  /-- The date of publication in words. -/
  published : Option String
deriving DecidableEq, Repr, Inhabited

def Teaser.ofView (view : PostView) : Teaser where
  title := view.post.title
  slug := view.post.slug
  author := view.authorUsername
  excerpt := view.post.excerpt
  published := view.post.publishedDate.map Timestamp.longDate

structure Home where
  siteName : String
  maintenanceMode : Bool
  featured : List Teaser
deriving DecidableEq, Repr, Inhabited

def Teaser.parts (teaser : Teaser) : List Part :=
  [Part.markup "\n      <li>\n        <a href=\"/api/posts/", Part.value teaser.slug,
    Part.markup "\">", Part.value teaser.title,
    Part.markup "</a>\n        <span class=\"byline\">by ", Part.value teaser.author] ++
  (match teaser.published with
    | some date => [Part.markup " on ", Part.value date]
    | none => []) ++
  [Part.markup "</span>\n        "] ++
  (if teaser.excerpt = "" then []
    else [Part.markup "\n        <p>", Part.value teaser.excerpt, Part.markup "</p>\n        "]) ++
  [Part.markup "\n      </li>\n      "]

def featuredParts (featured : List Teaser) : List Part :=
  if featured.isEmpty then [.markup "\n    <p>Nothing published yet.</p>\n    "]
  else
    .markup "\n    <ul class=\"featured\">\n      " :: featured.flatMap Teaser.parts ++
      [.markup "\n    </ul>\n    "]

def Home.parts (home : Home) : List Part :=
  [ Part.markup <|
      "<!DOCTYPE html>\n<html lang=\"en\">\n<head>\n  <meta charset=\"utf-8\">\n" ++
      "  <meta name=\"viewport\" content=\"width=device-width, initial-scale=1\">\n  <title>",
    Part.value home.siteName,
    Part.markup "</title>\n</head>\n<body>\n  <header>\n    <h1>",
    Part.value home.siteName,
    Part.markup "</h1>\n    " ] ++
  (if home.maintenanceMode then
    [ Part.markup <| "\n    <p class=\"notice\">The site is in maintenance mode. " ++
        "Reading still works.</p>\n    " ]
    else []) ++
  [Part.markup "\n  </header>\n  <main>\n    <h2>Featured</h2>\n    "] ++
  featuredParts home.featured ++
  [Part.markup "\n  </main>\n</body>\n</html>"]

def Home.render (home : Home) : String :=
  Page.render home.parts

end Gazette.Page
