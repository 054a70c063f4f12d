/- # Proviso.Text.Quoted -- text between double quotes

The form in which diagnostics show a text: between double quotes, with the quote, the backslash and
everything that cannot be seen written as an escape.  A single quote stands for itself. -/
import Proviso.Unicode.Printable

namespace Proviso

set_option autoImplicit false

/-- How one character is written between double quotes. -/
def escapeChar (c : Char) : List Char :=
  match c with
  | '\x00' => ['\\', '0']
  | '\t' => ['\\', 't']
  | '\r' => ['\\', 'r']
  | '\n' => ['\\', 'n']
  | '"' => ['\\', '"']
  | '\\' => ['\\', '\\']
  | c =>
    if Unicode.isShown c then [c]
    else '\\' :: 'u' :: '\x7b' :: (Nat.toDigits 16 c.toNat ++ ['\x7d'])

def quoted (text : String) : String :=
  String.ofList ('"' :: (text.toList.flatMap escapeChar ++ ['"']))

end Proviso
