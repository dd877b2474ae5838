import LspWire.Text.Digit
import LspWire.Text.Printable

/-!
# Quoted text

A text is shown in single quotes, or in double quotes if it has a single quote and no double one.
The quote in use and the backslash are escaped, line feed, carriage return and tab have short
escapes, and any other character that is not printable is written by its code point.
-/

namespace LspWire.Text

/-- The quote that a text is shown in. -/
def quoteOf (cs : List Char) : Char :=
  if cs.contains '\'' && !cs.contains '"' then '"' else '\''

/-- One character of a quoted text. -/
def quotedChar (quote c : Char) : List Char :=
  if c = quote || c = '\\' then ['\\', c]
  else if c = '\n' then ['\\', 'n']
  else if c = '\r' then ['\\', 'r']
  else if c = '\t' then ['\\', 't']
  else if isPrintable c then [c]
  else if c.toNat < 0x100 then '\\' :: 'x' :: hex 2 c.toNat
  else if c.toNat < 0x10000 then '\\' :: 'u' :: hex 4 c.toNat
  else '\\' :: 'U' :: hex 8 c.toNat

/-- A text in quotes, with escapes. -/
def quoted (s : String) : String :=
  let cs := s.toList
  let quote := quoteOf cs
  String.ofList (quote :: cs.flatMap (quotedChar quote) ++ [quote])

/-- Texts in quotes, in brackets and separated by commas. -/
def quotedList (texts : List String) : String :=
  "[" ++ ", ".intercalate (texts.map quoted) ++ "]"

end LspWire.Text
