import Gazette.Json.Token

/-!
# Reading records from JSON

A request body is a record with known fields. It is written as an object, in which members with
other names are skipped, or as an array of all the fields in order. A body is either not
well-formed JSON or does not fit the record; of several faults, the first one in the text counts.
A skipped value may be nested to any depth and hold numbers of any size.
-/
namespace Gazette.Json

/-- What is wrong with a text that should hold a record. -/
inductive Fault
  /-- The text is not well-formed JSON. -/
  | malformed
  /-- The text does not fit the fields of the record. -/
  | mismatch
deriving DecidableEq, Repr, Inhabited

inductive FieldKind
  | text
  | flag
  | integer
  | texts
deriving DecidableEq, Repr

inductive Presence
  /-- The field must be given. -/
  | required
  /-- The field may be left out or null. In an array it must be given. -/
  | optional
  /-- The field may be left out but not null. In an array it may be left out at the end. -/
  | defaulted
deriving DecidableEq, Repr

structure Field where
  name : String
  kind : FieldKind
  presence : Presence := .optional
deriving DecidableEq, Repr

inductive FieldValue
  | text (s : String)
  | flag (b : Bool)
  | integer (i : Int)
  | texts (l : List String)
deriving DecidableEq, Repr

/-- The fields that were given, by name. -/
abbrev Record := List (String × FieldValue)

namespace Record

def text? (r : Record) (name : String) : Option String :=
  match r.lookup name with
  | some (.text s) => some s
  | _ => none

def flag? (r : Record) (name : String) : Option Bool :=
  match r.lookup name with
  | some (.flag b) => some b
  | _ => none

def integer? (r : Record) (name : String) : Option Int :=
  match r.lookup name with
  | some (.integer i) => some i
  | _ => none

def texts? (r : Record) (name : String) : Option (List String) :=
  match r.lookup name with
  | some (.texts l) => some l
  | _ => none

end Record

/-- The fault of finding a token where a value of another kind should begin. -/
def faultOf : Token → Fault
  | .null | .bool _ | .text (some _) | .openArray | .openObject => .mismatch
  | .number n => if n.overflows then .malformed else .mismatch
  | .text none | .closeArray | .closeObject | .colon | .comma | .bad => .malformed

/-- Reads the items of an array of strings, from the first item on. -/
def readTexts : List Token → Except Fault (List String × List Token)
  | .text (some s) :: .comma :: rest => do
    let (items, rest) ← readTexts rest
    .ok (s :: items, rest)
  | .text (some s) :: .closeArray :: rest => .ok ([s], rest)
  | .text (some _) :: _ => .error .malformed
  | t :: _ => .error (faultOf t)
  | [] => .error .malformed

/-- The range of whole numbers a field can hold. -/
def fitsInteger (i : Int) : Bool :=
  -0x8000000000000000 ≤ i && i < 0x8000000000000000

def readFieldValue (kind : FieldKind) : List Token → Except Fault (FieldValue × List Token)
  | [] => .error .malformed
  | t :: rest =>
    match kind, t with
    | .text, .text (some s) => .ok (.text s, rest)
    | .flag, .bool b => .ok (.flag b, rest)
    | .integer, .number n =>
      match n.toInt? with
      | some i => if fitsInteger i then .ok (.integer i, rest) else .error (faultOf t)
      | none => .error (faultOf t)
    | .texts, .openArray =>
      match rest with
      | .closeArray :: rest => .ok (.texts [], rest)
      | rest => (readTexts rest).map fun (items, rest) => (.texts items, rest)
    | _, t => .error (faultOf t)

/-- Reads the value of a field, or nothing if the field is optional and null. -/
def readField (field : Field) (tokens : List Token) :
    Except Fault (Option FieldValue × List Token) :=
  match field.presence, tokens with
  | .optional, .null :: rest => .ok (none, rest)
  | _, tokens => (readFieldValue field.kind tokens).map fun (v, rest) => (some v, rest)

/-- What may come next in a value that is skipped. -/
inductive SkipExpect
  | value
  | item
  | key
  | member
  | colon
  | next
deriving DecidableEq, Repr

/-- Skips the rest of a value inside of the given arrays (`false`) and objects (`true`). -/
def skip (inside : List Bool) (expect : SkipExpect) : List Token → Option (List Token)
  | [] => none
  | t :: rest =>
    let close : Option (List Token) :=
      match inside with
      | [] | [_] => some rest
      | _ :: inside => skip inside .next rest
    match expect, inside, t with
    | .item, false :: _, .closeArray => close
    | .next, false :: _, .closeArray => close
    | .member, true :: _, .closeObject => close
    | .next, true :: _, .closeObject => close
    | .member, inside, .text _ => skip inside .colon rest
    | .key, inside, .text _ => skip inside .colon rest
    | .colon, inside, .colon => skip inside .value rest
    | .next, false :: inside, .comma => skip (false :: inside) .value rest
    | .next, true :: inside, .comma => skip (true :: inside) .key rest
    | .value, inside, t | .item, inside, t =>
      match t with
      | .openArray => skip (false :: inside) .item rest
      | .openObject => skip (true :: inside) .member rest
      | .null | .bool _ | .number _ | .text _ =>
        if inside.isEmpty then some rest else skip inside .next rest
      | _ => none
    | _, _, _ => none

def skipValue (tokens : List Token) : Except Fault (List Token) :=
  match skip [] .value tokens with
  | some rest => .ok rest
  | none => .error .malformed

/-- Reads the members of an object, from a key on. `seen` holds the names of the fields read so
far. Every member takes several tokens, so that their number bounds the recursion. -/
def readMembers (fields : List Field) : Nat → (seen : List String) → List Token →
    Except Fault (Record × List String × List Token)
  | 0, _, _ => .error .malformed
  | fuel + 1, seen, tokens =>
    match tokens with
    | .text (some key) :: rest => do
      let field := fields.find? (·.name == key)
      if field.isSome && seen.contains key then .error .mismatch
      else
        let rest ← match rest with
          | .colon :: rest => .ok rest
          | _ => .error Fault.malformed
        let (value, rest) ← match field with
          | some field => readField field rest
          | none => (skipValue rest).map fun rest => (none, rest)
        let seen := if field.isSome then key :: seen else seen
        let (record, seen, rest) ← match rest with
          | .comma :: rest => readMembers fields fuel seen rest
          | .closeObject :: rest => .ok ([], seen, rest)
          | _ => .error .malformed
        .ok (value.toList.map (fun v => (key, v)) ++ record, seen, rest)
    | _ => .error .malformed

/-- Reads the fields of a record written as an array. `first` says that no item came before. -/
def readItems (first : Bool) : List Field → List Token → Except Fault (Record × List Token)
  | [], .closeArray :: rest => .ok ([], rest)
  | [], _ => .error .malformed
  | field :: fields, tokens =>
    match tokens with
    | .closeArray :: _ =>
      if field.presence = .defaulted then readItems first fields tokens else .error .mismatch
    | _ => do
      let tokens ← if first then .ok tokens else
        match tokens with
        | .comma :: .closeArray :: _ => .error Fault.malformed
        | .comma :: rest => .ok rest
        | _ => .error .malformed
      let (value, rest) ← readField field tokens
      let (record, rest) ← readItems false fields rest
      .ok (value.toList.map (fun v => (field.name, v)) ++ record, rest)

def readRecord (fields : List Field) (tokens : List Token) : Except Fault Record := do
  let (record, rest) ← match tokens with
    | .openObject :: rest => do
      let (record, seen, rest) ← match rest with
        | .closeObject :: rest => .ok ([], [], rest)
        | rest => readMembers fields tokens.length [] rest
      if fields.any fun f => f.presence == .required && !seen.contains f.name then
        .error .mismatch
      else .ok (record, rest)
    | .openArray :: rest => readItems true fields rest
    | t :: _ => .error (faultOf t)
    | [] => .error .malformed
  if rest.isEmpty then .ok record else .error .malformed

end Gazette.Json
