import Mathlib.Data.List.Basic
import Gazette.Page.Home

/-!
# Escaping

A page is its markup with the values between. An escaped value holds none of the characters that
open or close a tag or a quoted attribute, so a reader of the page stands after a value where it
stood before it. What is read as tags is the markup alone, and nothing of a value is lost.
-/
namespace Gazette.Page

def isDelimiter (c : Char) : Bool :=
  c == '<' || c == '>' || c == '"' || c == '\''

/-- A text as it is read from markup. -/
def unescape : List Char → List Char
  | '&' :: 'l' :: 't' :: ';' :: cs => '<' :: unescape cs
  | '&' :: 'g' :: 't' :: ';' :: cs => '>' :: unescape cs
  | '&' :: 'a' :: 'm' :: 'p' :: ';' :: cs => '&' :: unescape cs
  | '&' :: 'q' :: 'u' :: 'o' :: 't' :: ';' :: cs => '"' :: unescape cs
  | '&' :: '#' :: 'x' :: '2' :: '7' :: ';' :: cs => '\'' :: unescape cs
  | c :: cs => c :: unescape cs
  | [] => []

theorem isDelimiter_escapeChar (c : Char) : ∀ d ∈ escapeChar c, isDelimiter d = false := by
  unfold escapeChar
  split
  case h_6 hlt hgt _ hquot hapos =>
    intro d hd
    obtain rfl := List.mem_singleton.1 hd
    have hne : d ≠ '<' ∧ d ≠ '>' ∧ d ≠ '"' ∧ d ≠ '\'' := ⟨hlt, hgt, hquot, hapos⟩
    simp [isDelimiter, hne]
  all_goals simp [isDelimiter]

theorem isDelimiter_escape (s : String) : ∀ c ∈ escape s, isDelimiter c = false := by
  intro c hc
  obtain ⟨d, -, hd⟩ := List.mem_flatMap.1 hc
  exact isDelimiter_escapeChar d c hd

theorem unescape_cons {c : Char} (hc : c ≠ '&') (cs : List Char) :
    unescape (c :: cs) = c :: unescape cs := by
  simp [unescape, hc]

theorem unescape_escapeChar (c : Char) (cs : List Char) :
    unescape (escapeChar c ++ cs) = c :: unescape cs := by
  unfold escapeChar
  split
  case h_6 hamp _ _ => exact unescape_cons hamp cs
  all_goals rfl

theorem unescape_escape (s : String) : unescape (escape s) = s.toList := by
  unfold escape
  induction s.toList with
  | nil => rfl
  | cons c cs ih => rw [List.flatMap_cons, unescape_escapeChar, ih]

/-- Where a reader of a page stands. -/
inductive Place
  | text
  | tag
  /-- In an attribute, up to the quotation mark that closes it. -/
  | quoted (mark : Char)
deriving DecidableEq, Repr

namespace Place

def next : Place → Char → Place
  | text, c => if c = '<' then tag else text
  | tag, c => if c = '>' then text else if c = '"' ∨ c = '\'' then quoted c else tag
  | quoted mark, c => if c = mark then tag else quoted mark

def after (place : Place) (cs : List Char) : Place :=
  cs.foldl next place

/-- Whether a character that is read at a place belongs to a tag, and not to its attributes'
values. -/
def isTag (place : Place) (c : Char) : Bool :=
  place == tag || place.next c == tag

/-- The tags that are read from a place on, with the names of their attributes. -/
def tags (place : Place) : List Char → List Char
  | [] => []
  | c :: cs =>
    if place.isTag c then c :: (place.next c).tags cs else (place.next c).tags cs

example : text.tags "<a href=\"/x\">1 &lt; 2</a>".toList = "<a href=\"\"></a>".toList := by
  decide +kernel

/-- Whether a value may stand at a place: in a text or in an attribute. -/
def isOpen : Place → Bool
  | text => true
  | tag => false
  | quoted mark => isDelimiter mark

theorem tags_append (place : Place) (cs ds : List Char) :
    place.tags (cs ++ ds) = place.tags cs ++ (place.after cs).tags ds := by
  induction cs generalizing place with
  | nil => rfl
  | cons c cs ih =>
      simp only [List.cons_append, tags, ih, after, List.foldl_cons]
      split <;> rfl

theorem next_of_isOpen {place : Place} {c : Char} (hopen : place.isOpen = true)
    (hc : isDelimiter c = false) : place.next c = place := by
  cases place with
  | text =>
      have hne : c ≠ '<' := by
        rintro rfl
        cases hc
      simp [next, hne]
  | tag => cases hopen
  | quoted mark =>
      have hne : c ≠ mark := by
        rintro rfl
        exact absurd (hopen.symm.trans hc) (by decide)
      simp [next, hne]

theorem read_of_isOpen {place : Place} {cs : List Char} (hopen : place.isOpen = true)
    (hcs : ∀ c ∈ cs, isDelimiter c = false) :
    place.tags cs = [] ∧ place.after cs = place := by
  induction cs with
  | nil => exact ⟨rfl, rfl⟩
  | cons c cs ih =>
      obtain ⟨hc, hcs⟩ := List.forall_mem_cons.1 hcs
      have hnext := next_of_isOpen hopen hc
      obtain ⟨htags, hafter⟩ := ih hcs
      have hplain : place.isTag c = false := by
        cases place with
        | tag => cases hopen
        | _ => simp [isTag, hnext]
      refine ⟨?_, ?_⟩
      · rw [tags, hplain, hnext, htags]
        rfl
      · rw [after, List.foldl_cons, hnext]
        exact hafter

end Place

inductive Piece
  | markup (s : String)
  | gap
deriving DecidableEq, Repr

/-- A template with its gaps filled in turn, provided there are as many gaps as texts for them. -/
def fill : List Piece → List (List Char) → Option (List Char)
  | [], [] => some []
  | .markup s :: template, texts => (fill template texts).map (s.toList ++ ·)
  | .gap :: template, text :: texts => (fill template texts).map (text ++ ·)
  | [], _ :: _ | .gap :: _, [] => none

theorem fill_append {first rest : List Piece} {texts others : List (List Char)}
    {page more : List Char} (hfirst : fill first texts = some page)
    (hrest : fill rest others = some more) :
    fill (first ++ rest) (texts ++ others) = some (page ++ more) := by
  induction first generalizing texts page with
  | nil =>
      cases texts with
      | nil =>
          cases hfirst
          exact hrest
      | cons => cases hfirst
  | cons piece first ih =>
      cases piece with
      | markup s =>
          obtain ⟨tail, htail, rfl⟩ := Option.map_eq_some_iff.1 hfirst
          rw [List.cons_append, fill, ih htail, Option.map_some, List.append_assoc]
      | gap =>
          cases texts with
          | nil => cases hfirst
          | cons text texts =>
              obtain ⟨tail, htail, rfl⟩ := Option.map_eq_some_iff.1 hfirst
              rw [List.cons_append, List.cons_append, fill, ih htail, Option.map_some,
                List.append_assoc]

section
variable {template : List Piece} {values : List String} {page : List Char}

/-- What holds of every filled template holds of one without pieces, goes over markup, and goes over
a gap with an escaped value in it. -/
theorem fill_induction {P : List Piece → List String → List Char → Prop} (nil : P [] [] [])
    (markup : ∀ s template values page, P template values page →
      P (.markup s :: template) values (s.toList ++ page))
    (gap : ∀ value template values page, P template values page →
      P (.gap :: template) (value :: values) (escape value ++ page))
    (h : fill template (values.map escape) = some page) : P template values page := by
  induction template generalizing values page with
  | nil =>
      cases values with
      | nil =>
          cases h
          exact nil
      | cons => cases h
  | cons piece template ih =>
      cases piece with
      | markup s =>
          obtain ⟨rest, hrest, rfl⟩ := Option.map_eq_some_iff.1 h
          exact markup s template values rest (ih hrest)
      | gap =>
          cases values with
          | nil => cases h
          | cons value values =>
              obtain ⟨rest, hrest, rfl⟩ := Option.map_eq_some_iff.1 h
              exact gap value template values rest (ih hrest)

theorem count_gap_of_fill (h : fill template (values.map escape) = some page) :
    template.count .gap = values.length := by
  refine fill_induction (P := fun template values _ => template.count .gap = values.length)
    rfl ?_ ?_ h
  · intro s template values page ih
    rw [List.count_cons_of_ne (Piece.noConfusion : Piece.markup s ≠ .gap), ih]
  · intro value template values page ih
    rw [List.count_cons_self, ih, List.length_cons]

def Piece.delimiters : Piece → List Char
  | markup s => s.toList.filter isDelimiter
  | gap => []

/-- What opens or closes a tag or a quoted attribute stands in the template. -/
theorem filter_of_fill (h : fill template (values.map escape) = some page) :
    page.filter isDelimiter = template.flatMap Piece.delimiters := by
  refine fill_induction (P := fun template _ page =>
    page.filter isDelimiter = template.flatMap Piece.delimiters) rfl ?_ ?_ h
  · intro s template _ page ih
    rw [List.filter_append, ih, List.flatMap_cons, Piece.delimiters]
  · intro value template _ page ih
    have hnone : (escape value).filter isDelimiter = [] := by
      rw [List.filter_eq_nil_iff]
      intro c hc
      simp [isDelimiter_escape value c hc]
    rw [List.filter_append, hnone, ih, List.flatMap_cons, Piece.delimiters]

end

namespace Place

def templateTags (place : Place) : List Piece → List Char
  | [] => []
  | .markup s :: template =>
    place.tags s.toList ++ (place.after s.toList).templateTags template
  | .gap :: template => place.templateTags template

/-- Where a reader stands after a template, unless a gap in it is at a place where no value may
stand. -/
def through (place : Place) : List Piece → Option Place
  | [] => some place
  | .markup s :: template => (place.after s.toList).through template
  | .gap :: template => if place.isOpen then place.through template else none

theorem through_append {place middle last : Place} {first rest : List Piece}
    (hfirst : place.through first = some middle) (hrest : middle.through rest = some last) :
    place.through (first ++ rest) = some last := by
  induction first generalizing place with
  | nil =>
      cases hfirst
      exact hrest
  | cons piece first ih =>
      cases piece with
      | markup s => exact ih hfirst
      | gap =>
          rw [through] at hfirst
          split at hfirst
          · next hopen =>
              rw [List.cons_append, through, if_pos hopen]
              exact ih hfirst
          · cases hfirst

/-- Where no gap of the template is inside of a tag, the tags of a page are those of its
template. -/
theorem tags_of_fill {place last : Place} {template : List Piece} {values : List String}
    {page : List Char} (hfill : fill template (values.map escape) = some page)
    (h : place.through template = some last) :
    place.tags page = place.templateTags template := by
  refine fill_induction (P := fun template _ page => ∀ place : Place,
    place.through template = some last → place.tags page = place.templateTags template)
    (fun _ _ => rfl) ?_ ?_ hfill place h
  · intro s template _ page ih place h
    rw [tags_append, ih _ h, templateTags]
  · intro value template _ page ih place h
    rw [through] at h
    split at h
    · next hopen =>
        obtain ⟨htags, hafter⟩ := read_of_isOpen hopen (isDelimiter_escape value)
        rw [tags_append, htags, hafter, ih place h]
        rfl
    · cases h

end Place

/-- What the template of a post on the home page depends on. -/
structure Teaser.Shape where
  dated : Bool
  excerpted : Bool
deriving DecidableEq, Repr

def Teaser.shape (teaser : Teaser) : Teaser.Shape where
  dated := teaser.published.isSome
  excerpted := teaser.excerpt ≠ ""

structure Home.Shape where
  maintenanceMode : Bool
  featured : List Teaser.Shape
deriving DecidableEq, Repr

def Home.shape (home : Home) : Home.Shape where
  maintenanceMode := home.maintenanceMode
  featured := home.featured.map Teaser.shape

def Teaser.Shape.template (shape : Teaser.Shape) : List Piece :=
  [ Piece.markup "\n      <li>\n        <a href=\"/api/posts/", Piece.gap,
    Piece.markup "\">", Piece.gap,
    Piece.markup "</a>\n        <span class=\"byline\">by ", Piece.gap ] ++
  (if shape.dated then [Piece.markup " on ", Piece.gap] else []) ++
  [Piece.markup "</span>\n        "] ++
  (if shape.excerpted then
    [Piece.markup "\n        <p>", Piece.gap, Piece.markup "</p>\n        "] else []) ++
  [Piece.markup "\n      </li>\n      "]

def listTemplate (shapes : List Teaser.Shape) : List Piece :=
  match shapes with
  | [] => [Piece.markup "\n    <p>Nothing published yet.</p>\n    "]
  | _ => [Piece.markup "\n    <ul class=\"featured\">\n      "] ++
      shapes.flatMap Teaser.Shape.template ++ [Piece.markup "\n    </ul>\n    "]

def Home.Shape.template (shape : Home.Shape) : List Piece :=
  [ Piece.markup <|
      "<!DOCTYPE html>\n<html lang=\"en\">\n<head>\n  <meta charset=\"utf-8\">\n" ++
      "  <meta name=\"viewport\" content=\"width=device-width, initial-scale=1\">\n  <title>",
    Piece.gap, Piece.markup "</title>\n</head>\n<body>\n  <header>\n    <h1>", Piece.gap,
    Piece.markup "</h1>\n    " ] ++
  (if shape.maintenanceMode then
    [ Piece.markup <| "\n    <p class=\"notice\">The site is in maintenance mode. " ++
        "Reading still works.</p>\n    " ]
    else []) ++
  [Piece.markup "\n  </header>\n  <main>\n    <h2>Featured</h2>\n    "] ++
  listTemplate shape.featured ++ [Piece.markup "\n  </main>\n</body>\n</html>"]

/-- The values on the home page, as they stand one after the other. -/
def Teaser.values (teaser : Teaser) : List String :=
  [teaser.slug, teaser.title, teaser.author] ++ teaser.published.toList ++
    if teaser.excerpt = "" then [] else [teaser.excerpt]

def Home.values (home : Home) : List String :=
  home.siteName :: home.siteName :: home.featured.flatMap Teaser.values

theorem Teaser.fill_template (teaser : Teaser) :
    fill teaser.shape.template (teaser.values.map escape) =
      some (teaser.parts.flatMap Part.write) := by
  unfold Shape.template values parts
  cases hdate : teaser.published <;> by_cases hempty : teaser.excerpt = "" <;>
    simp [shape, hdate, hempty, fill, Part.write, -String.reduceToList]

theorem fill_teasers (featured : List Teaser) :
    fill ((featured.map Teaser.shape).flatMap Teaser.Shape.template)
        ((featured.flatMap Teaser.values).map escape) =
      some ((featured.flatMap Teaser.parts).flatMap Part.write) := by
  induction featured with
  | nil => rfl
  | cons teaser featured ih =>
      simp only [List.map_cons, List.flatMap_cons, List.map_append, List.flatMap_append]
      exact fill_append teaser.fill_template ih

theorem fill_listTemplate (featured : List Teaser) :
    fill (listTemplate (featured.map Teaser.shape))
        ((featured.flatMap Teaser.values).map escape) =
      some ((featuredParts featured).flatMap Part.write) := by
  cases featured with
  | nil => simp [listTemplate, featuredParts, fill, Part.write]
  | cons teaser featured =>
      have hclosing : fill [.markup "\n    </ul>\n    "] [] = some "\n    </ul>\n    ".toList := by
        simp [fill]
      have hlist := fill_append (fill_teasers (teaser :: featured)) hclosing
      simp_all [listTemplate, featuredParts, fill, Part.write]

theorem Home.fill_template (home : Home) :
    fill home.shape.template (home.values.map escape) = some home.render.toList := by
  have hclosing : fill [.markup "\n  </main>\n</body>\n</html>"] [] =
      some "\n  </main>\n</body>\n</html>".toList := by
    simp [fill]
  have hlist := fill_append (fill_listTemplate home.featured) hclosing
  rw [List.append_nil] at hlist
  unfold Shape.template shape values render parts
  rw [Page.render, String.toList_ofList]
  cases home.maintenanceMode <;>
    simp [fill, Part.write, hlist, -String.reduceAppend, -String.reduceToList,
      -String.toList_append]

theorem Teaser.Shape.through_template (shape : Teaser.Shape) :
    Place.text.through shape.template = some .text := by
  obtain ⟨dated, excerpted⟩ := shape
  cases dated <;> cases excerpted <;> decide +kernel

theorem through_templates (shapes : List Teaser.Shape) :
    Place.text.through (shapes.flatMap Teaser.Shape.template) = some .text := by
  induction shapes with
  | nil => rfl
  | cons shape shapes ih =>
      rw [List.flatMap_cons]
      exact Place.through_append shape.through_template ih

theorem through_listTemplate (shapes : List Teaser.Shape) :
    Place.text.through (listTemplate shapes) = some .text := by
  unfold listTemplate
  split
  · decide +kernel
  · refine Place.through_append (Place.through_append ?_ (through_templates shapes)) ?_ <;>
      decide +kernel

/-- On the home page, no value stands inside of a tag but in quotation marks. -/
theorem Home.Shape.through_template (shape : Home.Shape) :
    Place.text.through shape.template = some .text := by
  have happend := @Place.through_append .text .text .text
  refine happend (happend (happend (happend ?_ ?_) ?_) (through_listTemplate shape.featured)) ?_
  · simp only [Place.through, String.toList_append]
    repeat rw [String.toList_ofList]
    decide +kernel
  · cases shape.maintenanceMode
    · rfl
    · simp only [if_true, Place.through, String.toList_append]
      repeat rw [String.toList_ofList]
      decide +kernel
  · simp only [Place.through]
    rw [String.toList_ofList]
    decide +kernel
  · decide +kernel

/-- The home page is its template with every gap filled with an escaped value, and every value is
read back from what fills its gap. Two pages of one shape have one template: they open and close
the same tags and attributes in the same order, whatever the values are. -/
theorem home_is_escaped (home : Home) :
    home.shape.template.count .gap = home.values.length ∧
      fill home.shape.template (home.values.map escape) = some home.render.toList ∧
      (∀ value ∈ home.values, unescape (escape value) = value.toList) ∧
      ∀ other : Home, other.shape = home.shape →
        other.render.toList.filter isDelimiter = home.render.toList.filter isDelimiter ∧
        Place.text.tags other.render.toList = Place.text.tags home.render.toList := by
  have hfill := home.fill_template
  refine ⟨count_gap_of_fill hfill, hfill, fun value _ => unescape_escape value, ?_⟩
  intro other h
  constructor
  · rw [filter_of_fill other.fill_template, filter_of_fill hfill, h]
  · rw [Place.tags_of_fill other.fill_template other.shape.through_template,
      Place.tags_of_fill hfill home.shape.through_template, h]

/-- A page on which one text stands in all places where it can stand. -/
def scribbled (text : String) : Home where
  siteName := text
  maintenanceMode := true
  featured :=
    [⟨text, text, text, text, some "May 1, 2026"⟩, ⟨text, text, text, "", none⟩]

/-- The markup in a text is not that of the page. -/
theorem home_is_escaped_of_scribbled :
    let plain := scribbled "Folio"
    let hostile := scribbled "\"></a><script>alert('1 & 2')</script>"
    hostile.shape = plain.shape ∧ hostile.shape.template.count .gap = 10 ∧
      fill plain.shape.template (hostile.values.map escape) = some hostile.render.toList ∧
      Place.text.tags hostile.render.toList = Place.text.tags plain.render.toList := by
  intro plain hostile
  have hshape : hostile.shape = plain.shape := by decide +kernel
  obtain ⟨hgaps, hfill, -, -⟩ := home_is_escaped hostile
  obtain ⟨-, -, -, hsame⟩ := home_is_escaped plain
  exact ⟨hshape, hgaps.trans (by decide +kernel), hshape ▸ hfill, (hsame hostile hshape).2⟩

end Gazette.Page
