import Gazette.Text.Radix
import Gazette.Text.Split
import Gazette.Text.Utf8

/-!
# Percent encoding

In an address, a percent sign and two hexadecimal digits stand for an octet, and every other
character for its own octets.
-/
namespace Gazette.Text.Percent

/-- The octets that a text stands for. A percent sign that is not followed by two digits stands for
itself. -/
def decode : List Char → List UInt8
  | '%' :: a :: b :: cs =>
    match hexDigit? a, hexDigit? b with
    | some high, some low => UInt8.ofNat (16 * high + low) :: decode cs
    | _, _ => String.utf8EncodeChar '%' ++ decode (a :: b :: cs)
  | c :: cs => String.utf8EncodeChar c ++ decode cs
  | [] => []

/-- The name or value that stands in a form. A plus sign stands for a space. -/
def decodeForm (cs : List Char) : String :=
  Utf8.lossyText (decode (cs.map fun c => if c = '+' then ' ' else c))

/-- The names and values of a form. Fields stand between ampersands; a field without an equals sign
has an empty value, and an empty field is nothing. -/
def formFields (cs : List Char) : List (String × String) :=
  ((split (· == '&') cs).filter (· != [])).map fun field =>
    match splitFirst '=' field with
    | some (name, value) => (decodeForm name, decodeForm value)
    | none => (decodeForm field, "")

end Gazette.Text.Percent
