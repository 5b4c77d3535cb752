import PathAlgebra.Text.Printable

set_option autoImplicit false

/-! # Quoted strings

A string in double quotes. A quote, a backslash and the control characters with a letter of their
own are written with a backslash. Other characters without a visible form, and those that extend
the character before them, are written by their code point in hexadecimal digits. Every other
character stands for itself.

Only the display text of plain data has quoted strings in it (`Value`): the theory names lemmas and
carriers by strings as they are.
-/

namespace PathAlgebra.Text

/-- Whether a character stands for itself unless it has an escape of its own. -/
def isPlain (c : Char) : Bool := isPrintable c && !isExtender c

/-- How a character is written between quotes. -/
def quoteChar (c : Char) : List Char :=
  match c with
  | '"' => ['\\', '"']
  | '\\' => ['\\', '\\']
  | '\n' => ['\\', 'n']
  | '\r' => ['\\', 'r']
  | '\t' => ['\\', 't']
  | '\x00' => ['\\', '0']
  | _ =>
      if isPlain c then [c]
      else ['\\', 'u', '\x7b'] ++ Nat.toDigits 16 c.toNat ++ ['\x7d']

/-- A text between double quotes. -/
def quoted (text : String) : String :=
  String.ofList ('"' :: text.toList.flatMap quoteChar ++ ['"'])

end PathAlgebra.Text
