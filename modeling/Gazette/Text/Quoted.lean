import Gazette.Text.Printable
import Gazette.Text.Radix

/-!
# Quoted text in diagnostics

A diagnostic shows a text between double quotes so that every character of it can be told: the
quote, the backslash and the usual controls have short escapes, and a character without an
appearance of its own is written by its code point.
-/
namespace Gazette.Text

/-- The way one character is written between the quotes. -/
def quotedChar (c : Char) : List Char :=
  match c with
  | '"' => ['\\', '"']
  | '\\' => ['\\', '\\']
  | '\t' => ['\\', 't']
  | '\n' => ['\\', 'n']
  | '\r' => ['\\', 'r']
  | '\x00' => ['\\', '0']
  | c => if isPrintable c then [c] else ['\\', 'u', '\x7b'] ++ hexDigits c.toNat ++ ['\x7d']

/-- The text between double quotes. -/
def quoted (s : String) : String :=
  String.ofList ('"' :: s.toList.flatMap quotedChar ++ ['"'])

end Gazette.Text
