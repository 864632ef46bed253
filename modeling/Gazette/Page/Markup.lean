/-!
# Markup

A page is a list of parts. A part is either markup, which is written as it is, or a value, in which
the characters that mean something in markup are escaped.
-/
namespace Gazette.Page

inductive Part
  | markup (s : String)
  | value (s : String)
deriving DecidableEq, Repr

/-- A character as it stands in markup. -/
def escapeChar : Char → List Char
  | '<' => ['&', 'l', 't', ';']
  | '>' => ['&', 'g', 't', ';']
  | '&' => ['&', 'a', 'm', 'p', ';']
  | '"' => ['&', 'q', 'u', 'o', 't', ';']
  | '\'' => ['&', '#', 'x', '2', '7', ';']
  | c => [c]

def escape (s : String) : List Char :=
  s.toList.flatMap escapeChar

def Part.write : Part → List Char
  | markup s => s.toList
  | value s => escape s

def render (parts : List Part) : String :=
  String.ofList (parts.flatMap Part.write)

end Gazette.Page
