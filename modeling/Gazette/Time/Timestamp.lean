import Gazette.Text.Decimal
import Gazette.Time.Calendar

/-!
# Timestamps

A timestamp is an instant in Coordinated Universal Time, to the nanosecond. It is written in the
form `2024-01-31T09:30:00Z`, with a fraction of three, six or nine digits if there is one. It can
be read with any offset from Coordinated Universal Time.
-/
namespace Gazette

/-- An instant. A leap second is the last second of a minute with a thousand million more
nanoseconds. -/
structure Timestamp where
  /-- Whole seconds since 1970-01-01T00:00:00Z. -/
  seconds : Int
  nanos : Nat := 0
  nanos_lt : nanos < 2000000000 := by omega
  leap : 1000000000 ≤ nanos → seconds % 60 = 59 := by omega
deriving DecidableEq, Repr

namespace Timestamp
open Gazette.Text

def ofSeconds (seconds : Int) : Timestamp :=
  { seconds }

instance : Inhabited Timestamp := ⟨ofSeconds 0⟩

/-- The instant some nanoseconds after a full second, if there is one. -/
def ofNanos? (seconds : Int) (nanos : Nat) : Option Timestamp :=
  if h : nanos < 2000000000 ∧ (1000000000 ≤ nanos → seconds % 60 = 59) then
    some { seconds, nanos, nanos_lt := h.1, leap := h.2 }
  else none

/-- Whether an instant is no later than another. -/
def isNoLater (a b : Timestamp) : Bool :=
  a.seconds < b.seconds || (a.seconds == b.seconds && a.nanos ≤ b.nanos)

def date (t : Timestamp) : CivilDate :=
  CivilDate.ofDays (t.seconds / 86400)

/-- The year as it stands in a date: at least four digits, with a sign outside the years 0 to
9999. -/
def yearText (year : Int) : List Char :=
  if year < 0 then '-' :: padded 4 year.natAbs
  else if year > 9999 then '+' :: padded 4 year.natAbs
  else padded 4 year.natAbs

/-- The fraction of the second: nothing, or the fewest of three, six and nine digits that give it
exactly. -/
def fractionText (nanos : Nat) : List Char :=
  if nanos = 0 then []
  else if nanos % 1000000 = 0 then '.' :: padded 3 (nanos / 1000000)
  else if nanos % 1000 = 0 then '.' :: padded 6 (nanos / 1000)
  else '.' :: padded 9 nanos

def dateText (d : CivilDate) : List Char :=
  yearText d.year ++ '-' :: padded 2 d.month ++ '-' :: padded 2 d.day

/-- The time of day, with the fraction of the second. -/
def clockText (t : Timestamp) : List Char :=
  let second := (t.seconds % 86400).toNat
  padded 2 (second / 3600) ++ ':' :: padded 2 (second / 60 % 60) ++
    ':' :: padded 2 (second % 60 + t.nanos / 1000000000) ++ fractionText (t.nanos % 1000000000)

/-- The written form of an instant. -/
def text (t : Timestamp) : String :=
  String.ofList (dateText t.date ++ 'T' :: clockText t ++ ['Z'])

/-- The form in which an instant is stored. Stored instants are compared as text. -/
def storedText (t : Timestamp) : String :=
  String.ofList (dateText t.date ++ ' ' :: clockText t ++ ['+', '0', '0', ':', '0', '0'])

/-- The form in which a full second is stored. Stored seconds are compared as text. -/
def secondText (seconds : Int) : String :=
  String.ofList
    (dateText (CivilDate.ofDays (seconds / 86400)) ++ ' ' :: clockText (ofSeconds seconds))

/-- The date in words, as in `March 5, 2024`. -/
def longDate (t : Timestamp) : String :=
  let d := t.date
  d.monthName ++ " " ++ String.ofList (decimal d.day) ++ ", " ++ String.ofList (yearText d.year)

def expect (c : Char) : List Char → Option (List Char)
  | d :: cs => if d = c then some cs else none
  | [] => none

/-- Reads a year of four digits. -/
def readYear (cs : List Char) : Option (Int × List Char) :=
  (readDigits 4 cs).map fun (year, cs) => (year, cs)

/-- Reads a year that may have a sign. With a sign it has any number of digits. -/
def readSignedYear : List Char → Option (Int × List Char)
  | c :: cs =>
    let digits := cs.takeWhile isDigit
    if c ≠ '+' ∧ c ≠ '-' then readYear (c :: cs)
    else if digits.isEmpty then none
    else
      let year : Int := decimalValue digits
      some (if c = '-' then -year else year, cs.dropWhile isDigit)
  | [] => none

/-- Reads a date. The year is read as stated. -/
def readDate (year : List Char → Option (Int × List Char)) (cs : List Char) :
    Option (CivilDate × List Char) := do
  let (year, cs) ← year cs
  let cs ← expect '-' cs
  let (month, cs) ← readDigits 2 cs
  let cs ← expect '-' cs
  let (day, cs) ← readDigits 2 cs
  let date : CivilDate := ⟨year, month, day⟩
  if date.isValid then some (date, cs) else none

/-- Reads an offset, in seconds. -/
def readOffset : List Char → Option Int
  | ['Z'] | ['z'] => some 0
  | sign :: cs => do
    let (hours, cs) ← readDigits 2 cs
    let cs ← expect ':' cs
    let (minutes, cs) ← readDigits 2 cs
    if cs ≠ [] ∨ 24 ≤ hours ∨ 60 ≤ minutes then none
    else
      let seconds : Int := (hours * 3600 + minutes * 60 : Nat)
      if sign = '+' then some seconds else if sign = '-' then some (-seconds) else none
  | [] => none

/-- Reads a fraction of a second, if there is one, in nanoseconds. Digits past the ninth are
dropped. -/
def readFraction : List Char → Option (Nat × List Char)
  | '.' :: cs =>
    let digits := cs.takeWhile isDigit
    if digits.isEmpty then none
    else some (decimalValue ((digits ++ List.replicate 9 '0').take 9), cs.dropWhile isDigit)
  | cs => some (0, cs)

/-- Reads a time of day, and tells it in seconds and nanoseconds. -/
def readClock (cs : List Char) : Option ((Nat × Nat) × List Char) := do
  let (hour, cs) ← readDigits 2 cs
  let cs ← expect ':' cs
  let (minute, cs) ← readDigits 2 cs
  let cs ← expect ':' cs
  let (second, cs) ← readDigits 2 cs
  let (nanos, cs) ← readFraction cs
  if 24 ≤ hour ∨ 60 ≤ minute ∨ 61 ≤ second then none
  else
    let leap := second / 60
    some ((hour * 3600 + minute * 60 + (second - leap), nanos + leap * 1000000000), cs)

/-- Reads an instant at any offset. The year is read as stated. -/
def readWith (year : List Char → Option (Int × List Char)) (s : String) : Option Timestamp := do
  let (date, cs) ← readDate year s.toList
  let cs ← match cs with
    | 'T' :: cs | 't' :: cs | ' ' :: cs => some cs
    | _ => none
  let ((second, nanos), cs) ← readClock cs
  let offset ← readOffset cs
  ofNanos? (date.toDays * 86400 + second - offset) nanos

/-- Reads the written form of an instant, at any offset. -/
def read? : String → Option Timestamp :=
  readWith readYear

/-- Reads the form in which an instant is stored. -/
def readStored? : String → Option Timestamp :=
  readWith readSignedYear

end Timestamp
end Gazette
