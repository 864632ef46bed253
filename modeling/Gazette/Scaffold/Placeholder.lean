import Gazette.Text.Blank
import Gazette.Text.Split

/-!
# Placeholders

A template is text with placeholders in it: a name between double braces, optionally followed by a
bar, the word `default`, a colon and a literal in single or double quotes. White space may stand
between these parts. Everything that is not a placeholder is text, unmatched braces included.
-/
namespace Gazette.Scaffold
open Gazette.Text

structure Placeholder where
  name : String
  default : Option String := none
deriving DecidableEq, Repr, Inhabited

def isNameStart (c : Char) : Bool :=
  ('A' ≤ c && c ≤ 'Z') || ('a' ≤ c && c ≤ 'z') || c == '_'

def isNameChar (c : Char) : Bool :=
  isNameStart c || ('0' ≤ c && c ≤ '9')

/-- Whether a text can be the name of a parameter. -/
def isParamName (s : String) : Bool :=
  match s.toList with
  | [] => false
  | c :: cs => isNameStart c && cs.all isNameChar

def readName : List Char → Option (List Char × List Char)
  | [] => none
  | c :: cs =>
    if isNameStart c then some (c :: cs.takeWhile isNameChar, cs.dropWhile isNameChar) else none

/-- Reads a literal, which ends at the next quote of the kind that it starts with. -/
def readLiteral : List Char → Option (List Char × List Char)
  | '\'' :: cs => splitFirst '\'' cs
  | '"' :: cs => splitFirst '"' cs
  | _ => none

def skipBlanks (cs : List Char) : List Char :=
  cs.dropWhile isBlank

/-- Reads the part of a placeholder that gives a default, if it has one, and the white space after
it. -/
def readDefault (cs : List Char) : Option (Option (List Char) × List Char) :=
  match cs with
  | '|' :: cs => do
    let cs ← dropInitial ['d', 'e', 'f', 'a', 'u', 'l', 't'] (skipBlanks cs)
    let cs ← dropInitial [':'] (skipBlanks cs)
    let (literal, cs) ← readLiteral (skipBlanks cs)
    some (some literal, skipBlanks cs)
  | cs => some (none, cs)

/-- Reads a placeholder at the start of a text. -/
def readPlaceholder (cs : List Char) : Option (Placeholder × List Char) := do
  let cs ← dropInitial ['\x7b', '\x7b'] cs
  let (name, cs) ← readName (skipBlanks cs)
  let (default, cs) ← readDefault (skipBlanks cs)
  let cs ← dropInitial ['\x7d', '\x7d'] cs
  some (⟨String.ofList name, default.map String.ofList⟩, cs)

inductive Piece
  | char (c : Char)
  /-- A placeholder and the text it is written as. -/
  | slot (placeholder : Placeholder) (source : List Char)
deriving DecidableEq, Repr

def Piece.placeholder? : Piece → Option Placeholder
  | .char _ => none
  | .slot placeholder _ => some placeholder

/-- The pieces of a text of which the first `skipped` characters are already part of a piece. -/
def piecesAfter : (skipped : Nat) → List Char → List Piece
  | _, [] => []
  | skipped + 1, _ :: cs => piecesAfter skipped cs
  | 0, c :: cs =>
    match readPlaceholder (c :: cs) with
    | some (placeholder, rest) =>
      let length := cs.length + 1 - rest.length
      .slot placeholder ((c :: cs).take length) :: piecesAfter (length - 1) cs
    | none => .char c :: piecesAfter 0 cs

/-- The pieces of a template. A placeholder is taken as far to the left as there is one, and starts
after the end of the one before it. -/
def pieces (template : String) : List Piece :=
  piecesAfter 0 template.toList

/-- Every placeholder of a template, in order. -/
def placeholders (template : String) : List Placeholder :=
  (pieces template).filterMap Piece.placeholder?

end Gazette.Scaffold
