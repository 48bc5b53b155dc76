import Rockstar.Text.Hex
import Rockstar.Text.Hidden

/-!
# Quoted text

A text between double quotes on one line, as listings show it. Quotes, backslashes and the common
control characters have short escapes; every other character that shows nothing on its own is
written by its code point.
-/

namespace Rockstar.Text

/-- The written form of one character inside double quotes. -/
def quotedChar (c : Char) : List Char :=
  if c = '\x00' then ['\\', '0']
  else if c = '\t' then ['\\', 't']
  else if c = '\r' then ['\\', 'r']
  else if c = '\n' then ['\\', 'n']
  else if c = '"' then ['\\', '"']
  else if c = '\\' then ['\\', '\\']
  else if isHidden c then ['\\', 'u', '\x7b'] ++ (hex c.toNat).toList ++ ['\x7d']
  else [c]

/-- The text between double quotes. -/
def quoted (s : String) : String :=
  String.ofList ('"' :: s.toList.flatMap quotedChar ++ ['"'])

end Rockstar.Text
