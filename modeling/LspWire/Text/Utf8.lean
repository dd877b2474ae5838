/-!
# UTF-8

Characters as octets and back. Decoding never fails: a character that begins but does not end, and
an octet that belongs to no character, become U+FFFD, one for every longest piece that could have
begun a character.
-/

namespace LspWire.Text.Utf8

/-- The octets of a character. -/
def encodeChar (c : Char) : List Nat :=
  let n := c.toNat
  if n < 0x80 then [n]
  else if n < 0x800 then [0xC0 + n / 64, 0x80 + n % 64]
  else if n < 0x10000 then [0xE0 + n / 4096, 0x80 + n / 64 % 64, 0x80 + n % 64]
  else [0xF0 + n / 262144, 0x80 + n / 4096 % 64, 0x80 + n / 64 % 64, 0x80 + n % 64]

/-- The octets of a text. -/
def encode (cs : List Char) : List Nat := cs.flatMap encodeChar

/-- The character that stands for octets that are no text. -/
def replacement : Char := '\uFFFD'

/-- A character that has begun: the number so far, how many octets are owed, and the least and the
greatest next one. -/
structure Begun where
  value : Nat
  owed : Nat
  low : Nat
  high : Nat
deriving DecidableEq, Repr

/-- The character that an octet begins, if it begins one of several octets. -/
def begun? (x : Nat) : Option Begun :=
  if x < 0xC2 then none
  else if x < 0xE0 then some ⟨x - 0xC0, 1, 0x80, 0xBF⟩
  else if x < 0xF0 then
    some ⟨x - 0xE0, 2, if x = 0xE0 then 0xA0 else 0x80, if x = 0xED then 0x9F else 0xBF⟩
  else if x < 0xF5 then
    some ⟨x - 0xF0, 3, if x = 0xF0 then 0x90 else 0x80, if x = 0xF4 then 0x8F else 0xBF⟩
  else none

/-- The text of an octet where no character has begun, and the character that has begun after
it. -/
def first (x : Nat) : List Char × Option Begun :=
  if x < 0x80 then ([Char.ofNat x], none)
  else
    match begun? x with
    | some b => ([], some b)
    | none => ([replacement], none)

/-- The text that an octet completes, and the character that has begun after it. -/
def next (state : Option Begun) (x : Nat) : List Char × Option Begun :=
  match state with
  | none => first x
  | some b =>
    if b.low ≤ x ∧ x ≤ b.high then
      let value := 64 * b.value + (x - 0x80)
      if b.owed ≤ 1 then ([Char.ofNat value], none)
      else ([], some ⟨value, b.owed - 1, 0x80, 0xBF⟩)
    else (replacement :: (first x).1, (first x).2)

/-- The text of octets after a character that has begun. -/
def decodeFrom : Option Begun → List Nat → List Char
  | none, [] => []
  | some _, [] => [replacement]
  | state, x :: xs => (next state x).1 ++ decodeFrom (next state x).2 xs

/-- The text of octets. -/
def decode (octets : List Nat) : List Char := decodeFrom none octets

@[simp] theorem encode_nil : encode [] = [] := rfl

theorem encode_cons (c : Char) (cs : List Char) :
    encode (c :: cs) = encodeChar c ++ encode cs := rfl

end LspWire.Text.Utf8
