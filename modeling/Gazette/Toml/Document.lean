import Gazette.Toml.Scalar

/-!
# TOML documents

A document is a list of lines, each of which is empty, a comment, a header or a key with its value.
-/
namespace Gazette.Toml
open Gazette.Text Reader

/-- Arrays, inline tables and keys with dots may go this deep. -/
def nestingLimit : Nat := 80

def comment : Reader Unit := do
  char '#'
  let _ ← many isPlain

/-- White space, comments and ends of lines, as they may stand in an array. -/
def skipLines : (fuel : Nat) → Reader Unit
  | 0 => pure ()
  | fuel + 1 => do
    blanks
    match ← peek 1 with
    | ['#'] =>
      comment
      newline
      skipLines fuel
    | ['\n'] | ['\r'] =>
      newline
      skipLines fuel
    | _ => pure ()

def isBareKeyChar (c : Char) : Bool :=
  c.isAlphanum || c == '_' || c == '-'

def simpleKey : Reader String := do
  match ← peek 1 with
  | ['"'] | ['\''] => lineString
  | _ =>
    let first ← one isBareKeyChar
    return String.ofList (first :: (← many isBareKeyChar))

def keyParts : (fuel : Nat) → Reader (List String)
  | 0 => failure
  | fuel + 1 => do
    blanks
    let part ← simpleKey
    blanks
    match ← peek 1 with
    | ['.'] =>
      char '.'
      return part :: (← keyParts fuel)
    | _ => return [part]

/-- A key: the part after the last dot, and those before it. -/
def key : Reader (List String × String) := do
  let parts ← keyParts ((← get).length + 1)
  match parts.reverse with
  | last :: before =>
    if parts.length < nestingLimit then return (before.reverse, last) else failure
  | [] => failure

mutual

/-- A value inside of `depth` arrays and inline tables. -/
def value : (fuel depth : Nat) → Reader Toml
  | 0, _ => failure
  | fuel + 1, depth => do
    let next ← peek 3
    match next with
    | ['"', '"', '"'] | ['\'', '\'', '\''] => return .text (← multilineString)
    | '"' :: _ | '\'' :: _ => return .text (← lineString)
    | '[' :: _ =>
      char '['
      if depth + 1 < nestingLimit then return .array (← items fuel (depth + 1)) else failure
    | '\x7b' :: _ =>
      char '\x7b'
      blanks
      if depth + 1 < nestingLimit then
        match ← peek 1 with
        | ['\x7d'] => char '\x7d'; return .table true {} []
        | _ =>
          let pairs ← pairs fuel (depth + 1)
          let entries : Option Entries := pairs.foldlM
            (fun entries (path, key, v) => define true path key v {} entries) []
          match entries with
          | some entries => return .table true {} entries
          | none => failure
      else failure
    | 't' :: _ => word ['t', 'r', 'u', 'e']; return .boolean true
    | 'f' :: _ => word ['f', 'a', 'l', 's', 'e']; return .boolean false
    | _ => numericValue

def items : (fuel depth : Nat) → Reader (List Toml)
  | 0, _ => failure
  | fuel + 1, depth => do
    let lines := (← get).length
    skipLines lines
    match ← peek 1 with
    | [']'] => char ']'; return []
    | _ =>
      let v ← value fuel depth
      skipLines lines
      match ← peek 1 with
      | [','] => char ','; return v :: (← items fuel depth)
      | _ => char ']'; return [v]

/-- The rest of an inline table that is not empty. -/
def pairs : (fuel depth : Nat) → Reader (List (List String × String × Toml))
  | 0, _ => failure
  | fuel + 1, depth => do
    let (path, k) ← key
    char '='
    blanks
    let v ← value fuel depth
    blanks
    match ← peek 1 with
    | [','] => char ','; return (path, k, v) :: (← pairs fuel depth)
    | _ => char '\x7d'; return [(path, k, v)]

end

/-- The end of a line or of the text. -/
def lineEnd : Reader Unit := do
  match ← get with
  | [] => pure ()
  | _ => newline

/-- What may follow on a line, and its end. -/
def lineRest : Reader Unit := do
  blanks
  match ← peek 1 with
  | ['#'] => comment
  | _ => pure ()
  lineEnd

/-- One line, without white space in front. -/
def line : Reader (Option Statement) := do
  match ← peek 2 with
  | '#' :: _ =>
    comment
    lineEnd
    return none
  | '\n' :: _ | '\r' :: _ =>
    newline
    return none
  | ['[', '['] =>
    word ['[', '[']
    let (path, k) ← key
    word [']', ']']
    lineRest
    return some (.addTable path k)
  | '[' :: _ =>
    char '['
    let (path, k) ← key
    char ']'
    lineRest
    return some (.openTable path k)
  | _ =>
    let (path, k) ← key
    char '='
    blanks
    let v ← value (2 * (← get).length + 2) 0
    lineRest
    return some (.define path k v)

def statements : (fuel : Nat) → Reader (List Statement)
  | 0 => failure
  | fuel + 1 => do
    blanks
    match ← get with
    | [] => return []
    | _ =>
      let statement ← line
      return statement.toList ++ (← statements fuel)

def read? (s : String) : Option Entries := do
  let cs := s.toList
  let cs := (dropInitial ['\ufeff'] cs).getD cs
  let (statements, _) ← (statements (cs.length + 1)).run cs
  build [] [] statements

end Gazette.Toml
