import Gazette.Text.Split

/-!
# Media types

A media type is a type, a slash and a subtype, which may end in a plus sign and a suffix, followed
by parameters. Every parameter starts with a semicolon.
-/
namespace Gazette.Http.MediaType
open Gazette.Text

def isTokenChar (c : Char) : Bool :=
  c.isAlphanum || "!#$%&'*+-.^_\x60|~".toList.contains c

/-- Whether a character may stand in a quoted value. -/
def isQuotedChar (c : Char) : Bool :=
  0x20 ≤ c.toNat && c.toNat != 0x7f

/-- Where a list of parameters stands. -/
inductive Phase
  /-- Before a parameter, where spaces do not count. -/
  | start
  | name
  /-- After the equals sign. -/
  | value
  | plain
  /-- After the opening quote. -/
  | opened
  | quoted
  /-- After the closing quote. -/
  | closed
deriving DecidableEq, Repr

/-- One character further in a list of parameters. -/
def Phase.next (phase : Phase) (c : Char) : Option Phase :=
  match phase with
  | .start => if c = ' ' then some .start else if isTokenChar c then some .name else none
  | .name => if isTokenChar c then some .name else if c = '=' then some .value else none
  | .value => if c = '"' then some .opened else if isTokenChar c then some .plain else none
  | .plain => if isTokenChar c then some .plain else if c = ';' then some .start else none
  | .opened => if isQuotedChar c then some .quoted else none
  | .quoted =>
    if c = '"' then some .closed else if isQuotedChar c then some .quoted else none
  | .closed => if c = ' ' then some .closed else if c = ';' then some .start else none

/-- Whether parameters may end here. -/
def Phase.isFinal : Phase → Bool
  | .start | .value | .plain | .closed => true
  | .name | .opened | .quoted => false

/-- Whether a text is a list of parameters, without the first semicolon. -/
def areParameters (phase : Phase) : List Char → Bool
  | [] => phase.isFinal
  | c :: cs =>
    match phase.next c with
    | some phase => areParameters phase cs
    | none => false

/-- A subtype without its suffix, and the suffix. The suffix starts after the last plus sign, but
not at the start of the subtype. -/
def splitSuffix (subtype : List Char) : List Char × Option (List Char) :=
  match subtype with
  | [] => ([], none)
  | c :: rest =>
    match splitFirst '+' rest.reverse with
    | some (suffix, before) => (c :: before.reverse, some suffix.reverse)
    | none => (subtype, none)

/-- Whether a media type is one of JSON. -/
def isJson (value : String) : Bool :=
  match splitFirst '/' (value.toList.map Char.toLower) with
  | none => false
  | some (mainType, rest) =>
    let subtype := rest.takeWhile (· != ';')
    let parameters := rest.dropWhile (· != ';')
    let (name, suffix) := splitSuffix subtype
    let json := "json".toList
    mainType == "application".toList && subtype.all isTokenChar &&
      (name == json || suffix == some json) && areParameters .start (parameters.drop 1)

end Gazette.Http.MediaType
