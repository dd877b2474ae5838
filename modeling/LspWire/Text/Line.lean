/-!
# Lines

`lines` cuts a text wherever Unicode ends a line. A carriage return and the line feed after it end
one line together. The last line may lack an end, and a text without characters has no line.
-/

namespace LspWire.Text

/-- The characters that end a line: the ASCII controls from line feed to carriage return, three of
the ASCII separators, the next-line control and the separators of lines and paragraphs. -/
def endsLine (c : Char) : Bool :=
  let n := c.toNat
  (0x0A ≤ n && n ≤ 0x0D) || (0x1C ≤ n && n ≤ 0x1E) || n == 0x85 || n == 0x2028 || n == 0x2029

/-- A character put in front of the first line. -/
def prependToFirst (c : Char) : List (List Char) → List (List Char)
  | [] => [[c]]
  | line :: rest => (c :: line) :: rest

/-- The lines of a text, without their ends. -/
def lines : List Char → List (List Char)
  | [] => []
  | '\r' :: '\n' :: cs => [] :: lines cs
  | c :: cs => if endsLine c then [] :: lines cs else prependToFirst c (lines cs)

end LspWire.Text
