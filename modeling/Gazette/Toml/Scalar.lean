import Gazette.Json.Token
import Gazette.Text.Radix
import Gazette.Text.Split
import Gazette.Time.Calendar
import Gazette.Toml.Table

/-!
# TOML scalars

Strings, numbers, dates and times.
-/
namespace Gazette.Toml
open Gazette.Text

/-- Reads something from the start of a text, or fails. -/
abbrev Reader := StateT (List Char) Option

namespace Reader

/-- The next characters, which are not taken. -/
def peek (count : Nat) : Reader (List Char) := do
  return (← get).take count

/-- Takes a character that meets a condition. -/
def one (p : Char → Bool) : Reader Char := do
  match ← get with
  | c :: cs => if p c then do set cs; return c else failure
  | [] => failure

def char (c : Char) : Reader Unit := do
  let _ ← one (· == c)

def word (cs : List Char) : Reader Unit := do
  match dropInitial cs (← get) with
  | some rest => set rest
  | none => failure

/-- Takes characters as long as they meet a condition. -/
def many (p : Char → Bool) : Reader (List Char) := do
  let cs ← get
  set (cs.dropWhile p)
  return cs.takeWhile p

def newline : Reader Unit :=
  char '\n' <|> word ['\r', '\n']

def blanks : Reader Unit := do
  let _ ← many fun c => c == ' ' || c == '\t'

end Reader

open Reader

/-- A character of a string or comment, apart from those that mean something there. -/
def isPlain (c : Char) : Bool :=
  c == '\t' || (0x20 ≤ c.toNat && c.toNat != 0x7f)

/-- The character with a code point given in hexadecimal digits. -/
def unicodeChar (digits : Nat) : Reader Char := do
  let cs ← peek digits
  set ((← get).drop digits)
  let n := radixValue 16 cs
  if cs.length = digits ∧ cs.all (isDigitIn 16) ∧ n.isValidChar then return Char.ofNat n
  else failure

/-- The character that an escape stands for, without its backslash. -/
def escaped : Reader Char := do
  match ← one fun _ => true with
  | 'b' => return '\x08'
  | 't' => return '\t'
  | 'n' => return '\n'
  | 'f' => return '\x0c'
  | 'r' => return '\r'
  | '"' => return '"'
  | '\\' => return '\\'
  | 'u' => unicodeChar 4
  | 'U' => unicodeChar 8
  | _ => failure

/-- The rest of a string on one line. `fuel` bounds the number of characters. -/
def basicRest : (fuel : Nat) → Reader (List Char)
  | 0 => failure
  | fuel + 1 => do
    match ← one fun c => isPlain c with
    | '"' => return []
    | '\\' => return (← escaped) :: (← basicRest fuel)
    | c => return c :: (← basicRest fuel)

def literalRest : Reader (List Char) := do
  let cs ← many fun c => isPlain c && c != '\''
  char '\''
  return cs

/-- A run of quotes in a string of several lines. Three of them end it, and up to two may stand
before these. -/
def quotes (q : Char) : Reader (List Char × Bool) := do
  let run ← many (· == q)
  if run.length < 3 then return (run, false)
  else if run.length ≤ 5 then return (run.drop 3, true)
  else failure

/-- The rest of a string of several lines. -/
def multilineRest (q : Char) : (fuel : Nat) → Reader (List Char)
  | 0 => failure
  | fuel + 1 => do
    match ← peek 1 with
    | ['\n'] | ['\r'] =>
      newline
      return '\n' :: (← multilineRest q fuel)
    | [c] =>
      if c = q then
        let (run, ended) ← quotes q
        if ended then return run else return run ++ (← multilineRest q fuel)
      else if c = '\\' ∧ q = '"' then do
        char '\\'
        match ← peek 1 with
        | [' '] | ['\t'] | ['\n'] | ['\r'] =>
          blanks
          newline
          let _ ← many fun c => c == ' ' || c == '\t' || c == '\n' || c == '\r'
          multilineRest q fuel
        | _ => return (← escaped) :: (← multilineRest q fuel)
      else do
        let c ← one isPlain
        return c :: (← multilineRest q fuel)
    | _ => failure

def lineString : Reader String := do
  let fuel := (← get).length
  match ← one fun _ => true with
  | '"' => return String.ofList (← basicRest fuel)
  | '\'' => return String.ofList (← literalRest)
  | _ => failure

/-- A string of several lines. An end of a line right after the opening quotes does not count. -/
def multilineString : Reader String := do
  let fuel := (← get).length
  let q ← one fun c => c == '"' || c == '\''
  word [q, q]
  newline <|> pure ()
  return String.ofList (← multilineRest q fuel)

/-- Digits, between which single underscores may stand. -/
def digitsWhere (p : Char → Bool) : Reader (List Char) := do
  let first ← one p
  let rec more : List Char → List Char × List Char
    | '_' :: c :: cs => if p c then let (ds, cs) := more cs; (c :: ds, cs) else ([], '_' :: c :: cs)
    | c :: cs => if p c then let (ds, cs) := more cs; (c :: ds, cs) else ([], c :: cs)
    | [] => ([], [])
  let (rest, cs) := more (← get)
  set cs
  return first :: rest

/-- An optional sign. The result says whether it is a minus sign. -/
def sign : Reader Bool :=
  (do char '-'; return true) <|> (do char '+'; return false) <|> pure false

/-- The digits of a whole number, which has no leading zeros. -/
def wholeDigits : Reader (List Char) := do
  match ← peek 1 with
  | ['0'] => char '0'; return ['0']
  | _ => digitsWhere isDigit

/-- A whole number, which fits into 64 bits. -/
def integerValue : Reader Int := do
  let inRadix (radix : Nat) : Reader Int := do
    set ((← get).drop 2)
    let digits ← digitsWhere (isDigitIn radix)
    return radixValue radix digits
  let n ← match ← peek 2 with
    | ['0', 'x'] => inRadix 16
    | ['0', 'o'] => inRadix 8
    | ['0', 'b'] => inRadix 2
    | _ => do
      let negative ← sign
      let magnitude : Int := decimalValue (← wholeDigits)
      pure (if negative then -magnitude else magnitude)
  if -0x8000000000000000 ≤ n ∧ n < 0x8000000000000000 then return n else failure

/-- The part of a float after the point, and its exponent. -/
def floatRest : Reader (List Char × Bool × List Char) := do
  let fraction ← (do char '.'; digitsWhere isDigit) <|> pure []
  let mark ← peek 1
  if mark = ['e'] ∨ mark = ['E'] then
    set ((← get).drop 1)
    let negative ← sign
    return (fraction, negative, ← digitsWhere isDigit)
  else if fraction = [] then failure
  else return (fraction, false, [])

/-- Whether the magnitude of a number rounds to infinity in double precision. The number of its
digits before the point nearly always tells. -/
def roundsToInfinity (n : Json.Number) : Bool :=
  let digits := (n.whole ++ n.fraction).dropWhile (· == '0')
  let stated : Int := decimalValue n.exponent
  let power : Int := (if n.exponentNegative then -stated else stated) - n.fraction.length
  let size := digits.length + power
  let bound := Json.Number.infinityBound
  if digits.isEmpty || size < 309 then false
  else if size > 309 then true
  else if power < 0 then bound * Nat.pow 10 power.natAbs ≤ decimalValue digits
  else bound ≤ decimalValue digits * Nat.pow 10 power.natAbs

/-- A float. It may be too small or too negative, but not too large. -/
def floatValue : Reader Unit := do
  let negative ← sign
  match ← peek 1 with
  | ['i'] => word ['i', 'n', 'f']
  | ['n'] => word ['n', 'a', 'n']
  | _ =>
    let whole ← wholeDigits
    let (fraction, exponentNegative, exponent) ← floatRest
    let n : Json.Number := { negative, whole, fraction, exponentNegative, exponent }
    if roundsToInfinity n ∧ ¬negative then failure

/-- A number of exactly some digits within bounds. -/
def field (digits low high : Nat) : Reader Nat := do
  match readDigits digits (← get) with
  | some (n, rest) => if low ≤ n ∧ n ≤ high then do set rest; return n else failure
  | none => failure

def dateValue : Reader Unit := do
  let year ← field 4 0 9999
  char '-'
  let month ← field 2 1 12
  char '-'
  let day ← field 2 1 31
  if CivilDate.daysInMonth year month < day then failure

def timeValue : Reader Unit := do
  let _ ← field 2 0 23
  char ':'
  let _ ← field 2 0 59
  char ':'
  let _ ← field 2 0 60
  (do char '.'; let _ ← one isDigit; let _ ← many isDigit; pure ()) <|> pure ()

def offsetValue : Reader Unit :=
  (do let _ ← one fun c => c == 'Z' || c == 'z'; pure ()) <|> do
    let _ ← one fun c => c == '+' || c == '-'
    let _ ← field 2 0 23
    char ':'
    let _ ← field 2 0 59

/-- A date, a time, or both, in which case there may be an offset. -/
def dateTimeValue : Reader Unit :=
  (do
    dateValue
    (do
      let _ ← one fun c => c == 'T' || c == 't' || c == ' '
      timeValue
      offsetValue <|> pure ()) <|> pure ()) <|> timeValue

def numericValue : Reader Toml :=
  (do dateTimeValue; return .date) <|> (do floatValue; return .float) <|>
    (do return .integer (← integerValue))

end Gazette.Toml
