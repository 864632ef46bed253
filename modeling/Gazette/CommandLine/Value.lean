import Gazette.CommandLine.Error
import Gazette.Files.Path
import Gazette.Text.Blank
import Gazette.Text.Decimal

/-!
# Values of options
-/
namespace Gazette.CommandLine
open Gazette.Files Gazette.Text

inductive Value
  | path (p : Path)
  | text (s : String)
  | port (n : Nat)
  | pair (key value : String)
  /-- A flag that was given. -/
  | on
deriving DecidableEq, Repr

/-- Reads digits behind a number that was read already. A number has to fit into 64 bits. -/
def readDigitsFrom (negative : Bool) (value : Int) : List Char → Except String Int
  | [] => .ok value
  | c :: cs =>
    if !isDigit c then .error "invalid digit found in string"
    else
      let digit : Int := digitValue c
      let value := if negative then 10 * value - digit else 10 * value + digit
      if value < -0x8000000000000000 then .error "number too small to fit in target type"
      else if 0x8000000000000000 ≤ value then .error "number too large to fit in target type"
      else readDigitsFrom negative value cs

/-- Reads a whole number, with or without a sign. -/
def readNumber (s : String) : Except String Int :=
  match s.toList with
  | [] => .error "cannot parse integer from empty string"
  | ['+'] | ['-'] => .error "invalid digit found in string"
  | '+' :: cs => readDigitsFrom false 0 cs
  | '-' :: cs => readDigitsFrom true 0 cs
  | cs => readDigitsFrom false 0 cs

def greatestPort : Nat := 65535

def readPort (s : String) : Except String Nat := do
  let n ← readNumber s
  if 0 ≤ n ∧ n ≤ greatestPort then .ok n.toNat
  else .error (String.ofList (signedDecimal n) ++ " is not in 0..=65535")

/-- Reads a key and a value. The key ends at the first equals sign. -/
def readPair (s : String) : Except String (String × String) :=
  match splitFirst '=' s.toList with
  | none => .error ("expected KEY=VALUE, got \x60" ++ s ++ "\x60")
  | some (key, value) =>
    let key := trimChars key
    if key = [] then .error ("missing key in \x60" ++ s ++ "\x60")
    else .ok (String.ofList key, String.ofList value)

/-- Reads the value of an option. -/
def readValue (spec : OptionSpec) (kind : ValueKind) (s : String) : Except UsageError Value :=
  match kind with
  | .path => if s = "" then .error (.missingValue spec) else .ok (.path ⟨s⟩)
  | .text => .ok (.text s)
  | .port => ((readPort s).map .port).mapError (.invalidValue s spec)
  | .pair => ((readPair s).map fun (key, value) => .pair key value).mapError (.invalidValue s spec)

end Gazette.CommandLine
