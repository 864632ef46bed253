import Gazette.Text.Decimal

/-!
# Digits in other radices

Numbers in hexadecimal, octal and binary digits. Letters can be digits in both cases.
-/
namespace Gazette.Text

/-- A number in lowercase hexadecimal digits, without leading zeros. -/
def hexDigits (n : Nat) : List Char :=
  Nat.toDigits 16 n

/-- The value of a hexadecimal digit. -/
def hexDigit? (c : Char) : Option Nat :=
  if isDigit c then some (digitValue c)
  else if 'a' ≤ c && c ≤ 'f' then some (c.toNat - 'a'.toNat + 10)
  else if 'A' ≤ c && c ≤ 'F' then some (c.toNat - 'A'.toNat + 10)
  else none

/-- Whether a character is a digit in a radix, which is at most 16. -/
def isDigitIn (radix : Nat) (c : Char) : Bool :=
  (hexDigit? c).any (· < radix)

/-- The number that a run of digits stands for in a radix. -/
def radixValue (radix : Nat) (digits : List Char) : Nat :=
  digits.foldl (fun n c => radix * n + (hexDigit? c).getD 0) 0

end Gazette.Text
