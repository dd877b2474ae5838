/-!
# Blank characters

`isBlank` is the Unicode property of white space, with the four ASCII separators. A number read from
text may be surrounded by the blanks of `isNumberBlank`, which leaves these separators out.
`strip` removes blanks at both ends.
-/

namespace LspWire.Text

/-- The white space of Unicode and the four ASCII separators `U+001C` to `U+001F`. -/
def isBlank (c : Char) : Bool :=
  let n := c.toNat
  (0x09 ≤ n && n ≤ 0x0D) || (0x1C ≤ n && n ≤ 0x20) || n == 0x85 || n == 0xA0 || n == 0x1680 ||
    (0x2000 ≤ n && n ≤ 0x200A) || n == 0x2028 || n == 0x2029 || n == 0x202F || n == 0x205F ||
    n == 0x3000

/-- The blanks allowed around a number: all but the ASCII separators. -/
def isNumberBlank (c : Char) : Bool :=
  isBlank c && !(0x1C ≤ c.toNat && c.toNat ≤ 0x1F)

/-- The characters without those at either end that satisfy `p`. -/
def stripBy (p : Char → Bool) (cs : List Char) : List Char :=
  ((cs.dropWhile p).reverse.dropWhile p).reverse

/-- The characters without the blanks at either end. -/
def strip (cs : List Char) : List Char := stripBy isBlank cs

/-- Letters of the ASCII alphabet in lower case. Every other character stays as it is. -/
def lowerAscii (cs : List Char) : List Char := cs.map Char.toLower

/-- A text cut at the first occurrence of a character, which is left out. -/
def cut (sep : Char) (cs : List Char) : List Char × List Char :=
  (cs.takeWhile (· ≠ sep), (cs.dropWhile (· ≠ sep)).tail)

/-- The pieces of a text between occurrences of a character: one more than there are
occurrences. -/
def splitAt (sep : Char) : List Char → List (List Char)
  | [] => [[]]
  | c :: cs =>
    match splitAt sep cs with
    | [] => [[c]]
    | piece :: pieces => if c = sep then [] :: piece :: pieces else (c :: piece) :: pieces

@[simp] theorem splitAt_nil (sep : Char) : splitAt sep [] = [[]] := rfl

theorem splitAt_ne_nil (sep : Char) (cs : List Char) : splitAt sep cs ≠ [] := by
  cases cs with
  | nil => simp
  | cons c cs =>
    rw [splitAt]
    split
    · simp
    · split <;> simp

end LspWire.Text
