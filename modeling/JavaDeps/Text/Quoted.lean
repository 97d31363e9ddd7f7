import JavaDeps.Text.Basic
import JavaDeps.Text.Printable

/-!
# Quoted texts

The quoted form of a text: between single quotes, or between double quotes when the text holds a
single quote and no double quote. Quotes of the chosen kind and backslashes are escaped, and
characters that are not printable are shown by name or code.
-/

namespace JavaDeps.Text

def quoteFor (s : List Char) : Char :=
  if s.contains '\'' && !s.contains '"' then '"' else '\''

def quotedChar (quote c : Char) : List Char :=
  if c == quote || c == '\\' then ['\\', c]
  else if c == '\n' then ['\\', 'n']
  else if c == '\r' then ['\\', 'r']
  else if c == '\t' then ['\\', 't']
  else if isPrintable c then [c]
  else if c.toNat < 0x100 then '\\' :: 'x' :: hex 2 c.toNat
  else if c.toNat < 0x10000 then '\\' :: 'u' :: hex 4 c.toNat
  else '\\' :: 'U' :: hex 8 c.toNat

def quoted (s : String) : String :=
  let quote := quoteFor s.toList
  String.ofList (quote :: s.toList.flatMap (quotedChar quote) ++ [quote])

end JavaDeps.Text
