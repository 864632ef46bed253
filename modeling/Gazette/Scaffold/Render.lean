import Gazette.Scaffold.Params
import Gazette.Scaffold.Placeholder

/-!
# Rendering

Every placeholder of a template is replaced in one pass. What is put in is not looked at again.
-/
namespace Gazette.Scaffold

structure Rendered where
  text : String
  /-- The names of the placeholders that stay as they are. -/
  unresolved : List String
deriving DecidableEq, Repr, Inhabited

/-- What a placeholder is replaced by. A value wins over a default unless it is empty. Without
value and default a placeholder stays. -/
def Placeholder.resolve? (params : Params) (placeholder : Placeholder) : Option String :=
  match params.get? placeholder.name, placeholder.default with
  | some value, none => some value
  | some value, some default => some (if value = "" then default else value)
  | none, default => default

def Piece.render (params : Params) : Piece → List Char
  | .char c => [c]
  | .slot placeholder source =>
    match placeholder.resolve? params with
    | some value => value.toList
    | none => source

/-- The name of a placeholder that stays. -/
def Piece.unresolved? (params : Params) : Piece → Option String
  | .char _ => none
  | .slot placeholder _ =>
    if placeholder.resolve? params = none then some placeholder.name else none

/-- Adds the names that are not in a list yet at its end, each once. -/
def appendNew (names : List String) : List String → List String
  | [] => names
  | name :: more => appendNew (if name ∈ names then names else names ++ [name]) more

def render (template : String) (params : Params) : Rendered where
  text := String.ofList ((pieces template).flatMap (Piece.render params))
  unresolved := appendNew [] ((pieces template).filterMap (Piece.unresolved? params))

end Gazette.Scaffold
