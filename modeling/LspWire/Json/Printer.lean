import LspWire.Json.Basic
import LspWire.Number.Decimal
import LspWire.Text.Digit

/-!
# Writing structured data as text

`Json.write` writes a value in ASCII. With an indentation every item stands on a line of its own,
and an empty array or object is written without a line break; without one all is on one line.
-/

namespace LspWire

namespace Json

/-- The escape of a code unit. -/
def unitEscape (n : Nat) : List Char := '\\' :: 'u' :: Text.hex 4 n

/-- One character of a string. A character beyond the first plane takes two escapes. -/
def escapedChar (c : Char) : List Char :=
  let n := c.toNat
  if c = '"' then ['\\', '"']
  else if c = '\\' then ['\\', '\\']
  else if c = '\n' then ['\\', 'n']
  else if c = '\r' then ['\\', 'r']
  else if c = '\t' then ['\\', 't']
  else if c = '\x08' then ['\\', 'b']
  else if c = '\x0c' then ['\\', 'f']
  else if 0x20 ≤ n ∧ n ≤ 0x7E then [c]
  else if n < 0x10000 then unitEscape n
  else unitEscape (0xD800 + (n - 0x10000) / 0x400) ++ unitEscape (0xDC00 + (n - 0x10000) % 0x400)

/-- A string with its quotes. -/
def stringText (s : String) : String :=
  String.ofList ('"' :: s.toList.flatMap escapedChar ++ ['"'])

/-- The text of a floating-point number. -/
def floatText (x : Binary64) : String :=
  if x.isNaN then "NaN"
  else if x.isFinite then x.text
  else if x.isNegative then "-Infinity" else "Infinity"

def scalarText : Scalar → String
  | .null => "null"
  | .bool true => "true"
  | .bool false => "false"
  | .int n => toString n
  | .float x => floatText x
  | .str s => stringText s

/-- The break before an item at a depth. -/
def lineBreak (indent? : Option Nat) (depth : Nat) : String :=
  match indent? with
  | none => ""
  | some n => "\n" ++ String.ofList (List.replicate (n * depth) ' ')

/-- What stands between two items at a depth. -/
def separator (indent? : Option Nat) (depth : Nat) : String :=
  if indent?.isNone then ", " else "," ++ lineBreak indent? depth

/-- Parts in brackets, at the depth of the brackets. -/
def bracketed (indent? : Option Nat) (depth : Nat) (opening closing : String)
    (parts : List String) : String :=
  if parts.isEmpty then opening ++ closing
  else
    opening ++ lineBreak indent? (depth + 1) ++
      (separator indent? (depth + 1)).intercalate parts ++ lineBreak indent? depth ++ closing

mutual

/-- The text of a value at a depth. -/
def writeAt (indent? : Option Nat) (depth : Nat) : Json → String
  | .scalar s => scalarText s
  | .arr items => bracketed indent? depth "[" "]" (writeItems indent? (depth + 1) items)
  | .obj entries =>
    bracketed indent? depth "\x7b" "\x7d" (writeEntries indent? (depth + 1) entries)

def writeItems (indent? : Option Nat) (depth : Nat) : List Json → List String
  | [] => []
  | x :: xs => writeAt indent? depth x :: writeItems indent? depth xs

def writeEntries (indent? : Option Nat) (depth : Nat) : List (String × Json) → List String
  | [] => []
  | (key, x) :: entries =>
    (stringText key ++ ": " ++ writeAt indent? depth x) :: writeEntries indent? depth entries

end

/-- The text of a value, on one line or indented by a number of blanks a level. -/
def write (indent? : Option Nat) (x : Json) : String := writeAt indent? 0 x

end Json

end LspWire
