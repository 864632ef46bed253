import Gazette.Json.Value

/-!
# Reading JSON

A reader takes the tokens of a text one at a time and keeps the arrays and objects it is inside
of on a stack. Values nested too deeply, numbers too large for double precision and strings with
half a surrogate pair are refused.
-/
namespace Gazette.Json

/-- An array or object under way, its latest part first. -/
inductive Frame
  | array (items : List Json)
  | object (members : List (String × Json)) (key : String)
deriving Repr

inductive Expect
  | value
  /-- A value or the end of an array that has just begun. -/
  | item
  | key
  /-- A key or the end of an object that has just begun. -/
  | member
  | colon
  /-- A comma or the end of the innermost array or object. -/
  | next
  /-- The end of the text. -/
  | done (v : Json)
deriving Repr

/-- Puts a finished value where it belongs. -/
def place (v : Json) : List Frame → List Frame × Expect
  | [] => ([], .done v)
  | .array items :: stack => (.array (v :: items) :: stack, .next)
  | .object members key :: stack => (.object ((key, v) :: members) key :: stack, .next)

/-- Arrays and objects may be nested this deep. -/
def depthLimit : Nat := 127

/-- Takes a token that is or begins a value. -/
def takeValue (stack : List Frame) : Token → Option (List Frame × Expect)
  | .null => some (place .null stack)
  | .bool b => some (place (.bool b) stack)
  | .number n => if n.overflows then none else some (place (.number n) stack)
  | .text (some s) => some (place (.text s) stack)
  | .openArray => if stack.length < depthLimit then some (.array [] :: stack, .item) else none
  | .openObject =>
    if stack.length < depthLimit then some (.object [] "" :: stack, .member) else none
  | _ => none

def take (stack : List Frame) (expect : Expect) (t : Token) : Option (List Frame × Expect) :=
  match expect, stack, t with
  | .value, stack, t => takeValue stack t
  | .item, .array items :: stack, .closeArray => some (place (.array items.reverse) stack)
  | .item, stack, t => takeValue stack t
  | .member, .object members _ :: stack, .closeObject =>
    some (place (.object members.reverse) stack)
  | .member, .object members _ :: stack, .text (some key) =>
    some (.object members key :: stack, .colon)
  | .key, .object members _ :: stack, .text (some key) =>
    some (.object members key :: stack, .colon)
  | .colon, stack, .colon => some (stack, .value)
  | .next, .array items :: stack, .comma => some (.array items :: stack, .value)
  | .next, .array items :: stack, .closeArray => some (place (.array items.reverse) stack)
  | .next, .object members key :: stack, .comma => some (.object members key :: stack, .key)
  | .next, .object members _ :: stack, .closeObject =>
    some (place (.object members.reverse) stack)
  | _, _, _ => none

/-- The value that the remaining tokens complete. -/
def readFrom (stack : List Frame) (expect : Expect) : List Token → Option Json
  | [] =>
    match expect with
    | .done v => some v
    | _ => none
  | t :: ts =>
    match take stack expect t with
    | some (stack, expect) => readFrom stack expect ts
    | none => none

/-- The value a text stands for, if it is well-formed JSON. -/
def read? (s : String) : Option Json :=
  readFrom [] .value (tokenize s)

/-- Whether a text is well-formed JSON. -/
def isValid (s : String) : Bool :=
  (read? s).isSome

end Gazette.Json
