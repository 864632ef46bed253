import Gazette.Text.Radix

/-!
# JSON tokens

The first step of reading JSON cuts a text into tokens, one character at a time. A text that no
token can continue ends in the token `bad`, so that a reader of tokens meets faults in the order
in which they stand in the text.
-/
namespace Gazette.Json
open Gazette.Text

structure Number where
  negative : Bool := false
  whole : List Char
  /-- The digits after the point; empty if there is no point. -/
  fraction : List Char := []
  exponentNegative : Bool := false
  /-- The digits of the exponent; empty if there is no exponent. -/
  exponent : List Char := []
deriving DecidableEq, Repr, Inhabited

namespace Number

/-- The written form of a whole number. -/
def ofInt (i : Int) : Number where
  negative := i < 0
  whole := decimal i.natAbs

/-- The whole number that is written, if the number has neither a fraction nor an exponent. A zero
with a minus sign is not a whole number. -/
def toInt? (n : Number) : Option Int :=
  if n.fraction = [] ∧ n.exponent = [] then
    let magnitude := decimalValue n.whole
    if n.negative then (if magnitude = 0 then none else some (-(magnitude : Int)))
    else some magnitude
  else none

/-- The least number that rounds to infinity in double precision. -/
def infinityBound : Nat := Nat.pow 2 1024 - Nat.pow 2 970

/-- The number of double precision that is nearest to a whole number. Of two that are equally near
it is the one with an even last bit. -/
def nearestDouble (n : Nat) : Nat :=
  let unit := Nat.pow 2 (n.log2 + 1 - 53)
  let half := 2 * (n % unit)
  if half > unit ∨ (half = unit ∧ n / unit % 2 = 1) then (n / unit + 1) * unit
  else n / unit * unit

/-- Appends digits to a number as long as it fits into 64 bits. The result has the number of digits
that were appended, too. -/
def appendDigits (n : Nat) : List Char → Nat × Nat
  | [] => (n, 0)
  | c :: cs =>
    let longer := 10 * n + digitValue c
    if longer < 0x10000000000000000 then
      let (n, count) := appendDigits longer cs
      (n, count + 1)
    else (n, 0)

/-- The greatest power of ten in double precision. -/
def greatestPower : Nat := 308

/-- Whether a number is too large for double precision. The number is taken as its first digits,
as far as they fit into 64 bits, times a power of ten. Both are rounded before they are multiplied,
so that some numbers right below the bound are too large as well. -/
def overflows (n : Number) : Bool :=
  let (digits, wholeCount) := appendDigits 0 n.whole
  let (digits, fractionCount) := appendDigits digits n.fraction
  let stated : Int := decimalValue n.exponent
  let power : Int := (n.whole.length - wholeCount : Nat) - (fractionCount : Int) +
    (if n.exponentNegative then -stated else stated)
  if digits = 0 ∨ power < 0 then false
  else if greatestPower < power then true
  else infinityBound ≤ nearestDouble digits * nearestDouble (Nat.pow 10 power.toNat)

end Number

inductive Token
  | openObject
  | closeObject
  | openArray
  | closeArray
  | colon
  | comma
  | null
  | bool (value : Bool)
  | number (n : Number)
  /-- A string. It has no content if it escapes one half of a surrogate pair without the other. -/
  | text (content : Option String)
  /-- The rest of the text is not made of tokens. -/
  | bad
deriving DecidableEq, Repr, Inhabited

def isSpace (c : Char) : Bool :=
  c == ' ' || c == '\n' || c == '\r' || c == '\t'

/-- Where a number stands while it is being read. -/
inductive NumberPhase
  | sign
  | zero
  | whole
  | point
  | fraction
  | mark
  | exponentSign
  | exponent
deriving DecidableEq, Repr

/-- Whether a number may end in a phase. -/
def NumberPhase.isFinal : NumberPhase → Bool
  | .zero | .whole | .fraction | .exponent => true
  | .sign | .point | .mark | .exponentSign => false

/-- Continues a number by a character, if it can be continued so. -/
def NumberPhase.next (phase : NumberPhase) (n : Number) (c : Char) :
    Option (NumberPhase × Number) :=
  let isMark := c == 'e' || c == 'E'
  match phase with
  | .sign =>
    if c = '0' then some (.zero, { n with whole := [c] })
    else if isDigit c then some (.whole, { n with whole := [c] })
    else none
  | .zero =>
    if c = '.' then some (.point, n) else if isMark then some (.mark, n) else none
  | .whole =>
    if isDigit c then some (.whole, { n with whole := n.whole ++ [c] })
    else if c = '.' then some (.point, n)
    else if isMark then some (.mark, n)
    else none
  | .point =>
    if isDigit c then some (.fraction, { n with fraction := [c] }) else none
  | .fraction =>
    if isDigit c then some (.fraction, { n with fraction := n.fraction ++ [c] })
    else if isMark then some (.mark, n)
    else none
  | .mark =>
    if isDigit c then some (.exponent, { n with exponent := [c] })
    else if c = '+' then some (.exponentSign, n)
    else if c = '-' then some (.exponentSign, { n with exponentNegative := true })
    else none
  | .exponentSign =>
    if isDigit c then some (.exponent, { n with exponent := [c] }) else none
  | .exponent =>
    if isDigit c then some (.exponent, { n with exponent := n.exponent ++ [c] }) else none

/-- Joins the halves of surrogate pairs. There is no result if a half stands alone. -/
def joinSurrogates : List Nat → Option (List Char)
  | [] => some []
  | n :: rest =>
    if 0xd800 ≤ n && n < 0xdc00 then
      match rest with
      | m :: rest =>
        if 0xdc00 ≤ m && m < 0xe000 then
          (joinSurrogates rest).map
            (Char.ofNat (0x10000 + (n - 0xd800) * 0x400 + (m - 0xdc00)) :: ·)
        else none
      | [] => none
    else if 0xdc00 ≤ n && n < 0xe000 then none
    else (joinSurrogates rest).map (Char.ofNat n :: ·)

/-- The state of the scanner between two characters. A string under way is kept as the code points
read so far, last one first. -/
inductive Scan
  | between
  | word (rest : List Char) (token : Token)
  | number (phase : NumberPhase) (n : Number)
  | text (done : List Nat)
  | escape (done : List Nat)
  | unicode (done : List Nat) (digitsLeft value : Nat)
  | stopped
deriving DecidableEq, Repr

/-- The token a character is or starts, outside of strings, numbers and words. -/
def start (c : Char) : List Token × Scan :=
  if isSpace c then ([], .between)
  else
    match c with
    | '\x7b' => ([.openObject], .between)
    | '\x7d' => ([.closeObject], .between)
    | '[' => ([.openArray], .between)
    | ']' => ([.closeArray], .between)
    | ':' => ([.colon], .between)
    | ',' => ([.comma], .between)
    | '"' => ([], .text [])
    | 'n' => ([], .word ['u', 'l', 'l'] .null)
    | 't' => ([], .word ['r', 'u', 'e'] (.bool true))
    | 'f' => ([], .word ['a', 'l', 's', 'e'] (.bool false))
    | '-' => ([], .number .sign { negative := true, whole := [] })
    | c =>
      match NumberPhase.sign.next { whole := [] } c with
      | some (phase, n) => ([], .number phase n)
      | none => ([.bad], .stopped)

/-- The code point a short escape stands for. -/
def shortEscape? : Char → Option Nat
  | '"' => some 0x22
  | '\\' => some 0x5c
  | '/' => some 0x2f
  | 'b' => some 8
  | 'f' => some 12
  | 'n' => some 10
  | 'r' => some 13
  | 't' => some 9
  | _ => none

/-- One character further: the tokens it completes, and the state after it. -/
def Scan.step (scan : Scan) (c : Char) : List Token × Scan :=
  match scan with
  | .between => start c
  | .word (r :: rest) token =>
    if c = r then (if rest.isEmpty then ([token], .between) else ([], .word rest token))
    else ([.bad], .stopped)
  | .word [] _ => ([.bad], .stopped)
  | .number phase n =>
    match phase.next n c with
    | some (phase, n) => ([], .number phase n)
    | none =>
      if phase.isFinal && !(phase == .zero && isDigit c) then
        let (tokens, scan) := start c
        (.number n :: tokens, scan)
      else ([.bad], .stopped)
  | .text done =>
    if c = '"' then ([.text ((joinSurrogates done.reverse).map String.ofList)], .between)
    else if c = '\\' then ([], .escape done)
    else if c.toNat < 0x20 then ([.bad], .stopped)
    else ([], .text (c.toNat :: done))
  | .escape done =>
    if c = 'u' then ([], .unicode done 4 0)
    else
      match shortEscape? c with
      | some n => ([], .text (n :: done))
      | none => ([.bad], .stopped)
  | .unicode done digitsLeft value =>
    match hexDigit? c with
    | some d =>
      let value := 16 * value + d
      if digitsLeft ≤ 1 then ([], .text (value :: done))
      else ([], .unicode done (digitsLeft - 1) value)
    | none => ([.bad], .stopped)
  | .stopped => ([], .stopped)

/-- The tokens that the end of the text completes. -/
def Scan.finish : Scan → List Token
  | .between | .stopped => []
  | .number phase n => if phase.isFinal then [.number n] else [.bad]
  | .word _ _ | .text _ | .escape _ | .unicode _ _ _ => [.bad]

/-- The tokens of the rest of a text. -/
def scanFrom (scan : Scan) : List Char → List Token
  | [] => scan.finish
  | c :: cs =>
    let (tokens, scan) := scan.step c
    tokens ++ scanFrom scan cs

def tokenize (s : String) : List Token :=
  scanFrom .between s.toList

end Gazette.Json
