import LspWire.Fault

/-!
# Base64

Octets are written four characters to three, six bits a character, and the last group is filled up
with padding. `decode` goes through a text from left to right. It refuses foreign characters,
padding at the start and anything between or after padding, but it passes over padding where none is
due, and it ignores the bits of the last character that belong to no octet.
-/

namespace LspWire

namespace Base64

/-- The six bits that a character of the alphabet stands for. -/
def sextet? (c : Char) : Option Nat :=
  let n := c.toNat
  if 65 ≤ n ∧ n ≤ 90 then some (n - 65)
  else if 97 ≤ n ∧ n ≤ 122 then some (n - 71)
  else if 48 ≤ n ∧ n ≤ 57 then some (n + 4)
  else if c = '+' then some 62
  else if c = '/' then some 63
  else none

/-- The character that stands for six bits. -/
def alphabet (s : Nat) : Char :=
  if s < 26 then Char.ofNat (s + 65)
  else if s < 52 then Char.ofNat (s + 71)
  else if s < 62 then Char.ofNat (s - 4)
  else if s = 62 then '+'
  else '/'

/-- The six-bit groups of a text. `quad` counts the characters of the current group of four, `pads`
the padding after them, `count` all data characters; `padded` says that padding has begun. -/
def scan (quad pads count : Nat) (padded : Bool) : List Char → Except Base64Fault (List Nat)
  | [] =>
    if quad = 0 then .ok []
    else if quad = 1 then .error (.loneCharacter count)
    else .error .incorrectPadding
  | c :: cs =>
    if c = '=' then
      if quad < 2 then scan quad pads count true cs
      else if quad + pads + 1 < 4 then scan quad (pads + 1) count true cs
      else if cs.isEmpty then .ok []
      else .error .excessData
    else
      match sextet? c with
      | none => .error .foreignCharacter
      | some s =>
        if padded then .error .discontinuousPadding
        else (scan ((quad + 1) % 4) 0 (count + 1) false cs).map (s :: ·)

/-- The octets that six-bit groups make up. -/
def octets : List Nat → List Nat
  | a :: b :: c :: d :: rest =>
    (4 * a + b / 16) :: (16 * (b % 16) + c / 4) :: (64 * (c % 4) + d) :: octets rest
  | [a, b, c] => [4 * a + b / 16, 16 * (b % 16) + c / 4]
  | [a, b] => [4 * a + b / 16]
  | _ => []

/-- The octets that a text stands for. -/
def decode (text : List Char) : Except Base64Fault (List Nat) :=
  match text with
  | '=' :: _ => .error .leadingPadding
  | _ => (scan 0 0 0 false text).map octets

/-- The text of octets. -/
def encode : List Nat → List Char
  | x :: y :: z :: rest =>
    alphabet (x / 4) :: alphabet (16 * (x % 4) + y / 16) :: alphabet (4 * (y % 16) + z / 64) ::
      alphabet (z % 64) :: encode rest
  | [x, y] => [alphabet (x / 4), alphabet (16 * (x % 4) + y / 16), alphabet (4 * (y % 16)), '=']
  | [x] => [alphabet (x / 4), alphabet (16 * (x % 4)), '=', '=']
  | [] => []

theorem sextet?_alphabet {s : Nat} (h : s < 64) : sextet? (alphabet s) = some s := by
  have all : ∀ s : Fin 64, sextet? (alphabet s) = some s.val := by decide
  exact all ⟨s, h⟩

end Base64

end LspWire
