import ForeignBridge.Text.GraphemeExtend
import ForeignBridge.Text.Printable

/-! # Quoted text

The readable form of a text between double quotes.

* NUL, tab, carriage return, line feed, the quote and the backslash have short escapes;
* a character that cannot be shown alone, being unprintable or attached to the character before it, is written
  by its code in hexadecimal digits;
* every other character stands for itself, the apostrophe included. -/

namespace ForeignBridge.Text

/-- The lower-case hexadecimal digits of `n`, without leading zeros. -/
def hexDigits (n : Nat) : List Char := Nat.toDigits 16 n

/-- The written form of one character inside quotes. -/
def escape (c : Char) : List Char :=
  if c = '\x00' then ['\\', '0']
  else if c = '\t' then ['\\', 't']
  else if c = '\r' then ['\\', 'r']
  else if c = '\n' then ['\\', 'n']
  else if c = '"' then ['\\', '"']
  else if c = '\\' then ['\\', '\\']
  else if attaches c || !isPrintable c then
    ['\\', 'u', '\x7b'] ++ hexDigits c.toNat ++ ['\x7d']
  else [c]

/-- A text between double quotes. -/
def quoted (s : String) : String :=
  String.ofList ('"' :: s.toList.flatMap escape ++ ['"'])

end ForeignBridge.Text
