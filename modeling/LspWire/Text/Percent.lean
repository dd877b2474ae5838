import LspWire.Text.Digit
import LspWire.Text.Utf8

/-!
# Percent-encoding

A text is encoded octet by octet: letters, digits and a few marks stand for themselves, every other
octet is a percent sign with two upper-case hexadecimal digits. Decoding leaves a percent sign
without two digits after it as it is.
-/

namespace LspWire.Text.Percent

/-- The characters that stand for themselves. -/
def isPlain (c : Char) : Bool := c.isAlphanum || "_.-~/".toList.contains c

/-- An octet, encoded. -/
def encodeOctet (x : Nat) : List Char :=
  if x < 0x80 && isPlain (Char.ofNat x) then [Char.ofNat x]
  else '%' :: (hex 2 x).map Char.toUpper

/-- A text, encoded. -/
def encode (cs : List Char) : List Char := (Utf8.encode cs).flatMap encodeOctet

/-- The octet that two digits stand for. -/
def octet? (a b : Char) : Option Nat := do
  let high ← hexValue? a
  let low ← hexValue? b
  pure (16 * high + low)

/-- The octets that an encoded text stands for. -/
def octets : List Char → List Nat
  | [] => []
  | '%' :: a :: b :: cs =>
    match octet? a b with
    | some x => x :: octets cs
    | none => 0x25 :: octets (a :: b :: cs)
  | c :: cs => Utf8.encodeChar c ++ octets cs

/-- The text that an encoded text stands for. -/
def decode (cs : List Char) : List Char := Utf8.decode (octets cs)

@[simp] theorem encode_nil : encode [] = [] := rfl

@[simp] theorem decode_nil : decode [] = [] := rfl

end LspWire.Text.Percent
