/-!
# Libraries

What the program takes from libraries of others. Nothing is known of these functions.
-/
namespace Gazette

class Libraries where
  /-- How a character that is not ASCII is spelled in ASCII. -/
  spelling : Char → List Char
  /-- What is said of a text that is not JSON. -/
  jsonFault : String → String

/-- Without a library, a character that is not ASCII has no spelling, and nothing is said of a text
that is not JSON. -/
@[reducible]
def Libraries.bare : Libraries where
  spelling _ := ['-']
  jsonFault _ := ""

end Gazette
