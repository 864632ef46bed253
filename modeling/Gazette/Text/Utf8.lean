/-!
# UTF-8

Decoding takes one octet at a time. Between two octets, either no character is under way or one of
which some octets are missing. An octet that cannot continue the character under way ends it: the
octets read so far are one fault, and the octet starts anew.
-/
namespace Gazette.Text.Utf8

structure Partial where
  /-- The bits read so far. -/
  value : Nat
  /-- The number of octets missing. -/
  missing : Nat
  /-- The least octet that continues the character. -/
  low : Nat := 0x80
  /-- The greatest octet that continues the character. -/
  high : Nat := 0xbf
deriving DecidableEq, Repr

/-- What an octet is or starts outside of a character: a character, a fault, or the first part of
a character. -/
def start (octet : Nat) : List (Option Char) × Option Partial :=
  if octet < 0x80 then ([some (Char.ofNat octet)], none)
  else if octet < 0xc2 then ([none], none)
  else if octet < 0xe0 then ([], some { value := octet - 0xc0, missing := 1 })
  else if octet < 0xf0 then
    let value := octet - 0xe0
    if octet = 0xe0 then ([], some { value := value, missing := 2, low := 0xa0 })
    else if octet = 0xed then ([], some { value := value, missing := 2, high := 0x9f })
    else ([], some { value := value, missing := 2 })
  else if octet < 0xf5 then
    let value := octet - 0xf0
    if octet = 0xf0 then ([], some { value := value, missing := 3, low := 0x90 })
    else if octet = 0xf4 then ([], some { value := value, missing := 3, high := 0x8f })
    else ([], some { value := value, missing := 3 })
  else ([none], none)

def step (underway : Option Partial) (octet : Nat) : List (Option Char) × Option Partial :=
  match underway with
  | none => start octet
  | some p =>
    if p.low ≤ octet ∧ octet ≤ p.high then
      let value := 64 * p.value + (octet - 0x80)
      if p.missing ≤ 1 then ([some (Char.ofNat value)], none)
      else ([], some { value := value, missing := p.missing - 1 })
    else
      let (chars, underway) := start octet
      (none :: chars, underway)

def decodeFrom (underway : Option Partial) : List UInt8 → List (Option Char)
  | [] => if underway.isSome then [none] else []
  | octet :: octets =>
    let (chars, underway) := step underway octet.toNat
    chars ++ decodeFrom underway octets

/-- The characters that octets stand for, with `none` for every fault. -/
def decode (octets : List UInt8) : List (Option Char) :=
  decodeFrom none octets

/-- The text that octets stand for, if there is no fault in it. -/
def text? (octets : List UInt8) : Option String :=
  ((decode octets).mapM id).map String.ofList

/-- The text that octets stand for, with a replacement character for every fault. -/
def lossyText (octets : List UInt8) : String :=
  String.ofList ((decode octets).map fun c => c.getD '\ufffd')

def encode (cs : List Char) : List UInt8 :=
  cs.flatMap String.utf8EncodeChar

end Gazette.Text.Utf8
