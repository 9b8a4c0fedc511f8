import Switchboard.Text.Digits
import Switchboard.Text.Escaped

/-!
Texts shown inside messages: between double quotes, with everything that could be mistaken for
something else escaped.
-/

namespace Switchboard.Text

/-- A code point by its number, as `\u` and hexadecimal digits in braces. -/
def numbered (c : Char) : List Char :=
  ['\\', 'u', '\x7b'] ++ hexadecimal c.toNat ++ ['\x7d']

/-- One character of a quoted text.  Quotes, backslashes and the usual controls have a short form,
other controls and all unprintable or combining characters their number. -/
def quotedChar (c : Char) : List Char :=
  if c = '"' then ['\\', '"']
  else if c = '\\' then ['\\', '\\']
  else if c = '\n' then ['\\', 'n']
  else if c = '\r' then ['\\', 'r']
  else if c = '\t' then ['\\', 't']
  else if c.toNat = 0 then ['\\', '0']
  else if c.toNat < 0x20 then numbered c
  else if c.toNat < 0x7F then [c]
  else if isEscaped c then numbered c
  else [c]

def quoted (text : String) : String :=
  String.ofList ('"' :: text.toList.flatMap quotedChar ++ ['"'])

end Switchboard.Text
