import MappingSweep.Number.Numeral
import MappingSweep.Text.Visible

/-!
# Quoted text

How paths and strings are shown inside messages: between double quotes, with short escapes for the
common controls, the quote and the backslash, and a hexadecimal escape for every other character
that is not visible.
-/

namespace MappingSweep
namespace Text

def quotedChar (c : Char) : List Char :=
  if c = '\x00' then ['\\', '0']
  else if c = '\t' then ['\\', 't']
  else if c = '\n' then ['\\', 'n']
  else if c = '\r' then ['\\', 'r']
  else if c = '"' then ['\\', '"']
  else if c = '\\' then ['\\', '\\']
  else if isVisible c then [c]
  else ['\\', 'u', '\x7b'] ++ Number.digits 16 c.toNat ++ ['\x7d']

def quoted (s : String) : String :=
  String.ofList ('"' :: (s.toList.flatMap quotedChar ++ ['"']))

end Text
end MappingSweep
