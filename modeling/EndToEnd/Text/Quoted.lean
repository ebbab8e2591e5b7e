import EndToEnd.Bytes.Hex
import EndToEnd.Text.Unprintable

/-!
# Quoted text

Text between double quotes, with the usual short escapes, and every character that would not show
as itself written as its number in hexadecimal.
-/

namespace EndToEnd.Text

/-- The hexadecimal digits of a number, highest first; `fuel` bounds their count. -/
def hexDigits (n : Nat) : Nat → List Char
  | 0 => []
  | fuel + 1 => (if n < 16 then [] else hexDigits (n / 16) fuel) ++ [Hex.digit (n % 16)]

/-- A character as it stands in quoted text. -/
def quoteChar (c : Char) : List Char :=
  if c = '\x00' then ['\\', '0']
  else if c = '\t' then ['\\', 't']
  else if c = '\r' then ['\\', 'r']
  else if c = '\n' then ['\\', 'n']
  else if c = '"' then ['\\', '"']
  else if c = '\\' then ['\\', '\\']
  else if Unprintable.test c then ['\\', 'u', '\x7b'] ++ hexDigits c.toNat 6 ++ ['\x7d']
  else [c]

/-- A text in quotes. -/
def quote (text : String) : String :=
  String.ofList ('"' :: text.toList.flatMap quoteChar ++ ['"'])

end EndToEnd.Text
