import LspWire.Token.Base64

/-!
# Packed tokens

The highlighting tokens of a line travel as one base64 text. A token takes eight octets, the most
significant first: four for the character it begins at, two for its length and two for its scope.
-/

namespace LspWire

/-- A highlighted range of a line, with the index of its scope. -/
structure Token where
  character : Nat
  length : Nat
  scope : Nat
deriving DecidableEq, Repr

namespace Token

/-- Whether the numbers of a token fit their octets. -/
def Fits (t : Token) : Prop := t.character < 2 ^ 32 ∧ t.length < 2 ^ 16 ∧ t.scope < 2 ^ 16

instance (t : Token) : Decidable t.Fits :=
  inferInstanceAs (Decidable (t.character < 2 ^ 32 ∧ t.length < 2 ^ 16 ∧ t.scope < 2 ^ 16))

/-- The octets of a number, the most significant first. -/
def bigEndian : Nat → Nat → List Nat
  | 0, _ => []
  | width + 1, n => n / 256 ^ width % 256 :: bigEndian width n

/-- The octets of a token. -/
def octets (t : Token) : List Nat :=
  bigEndian 4 t.character ++ bigEndian 2 t.length ++ bigEndian 2 t.scope

/-- The number that octets make up, the most significant first. -/
def ofBigEndian (octets : List Nat) : Nat := octets.foldl (fun n x => 256 * n + x) 0

/-- The tokens that octets make up. Fewer than eight octets at the end are left out. -/
def ofOctets : List Nat → List Token
  | a :: b :: c :: d :: e :: f :: g :: h :: rest =>
    ⟨ofBigEndian [a, b, c, d], ofBigEndian [e, f], ofBigEndian [g, h]⟩ :: ofOctets rest
  | _ => []

/-- The text of tokens. -/
def pack (tokens : List Token) : String :=
  String.ofList (Base64.encode (tokens.flatMap octets))

/-- The tokens of a text. -/
def unpack (text : String) : Except PackingFault (List Token) :=
  let cs := text.toList
  if cs.any fun c => 128 ≤ c.toNat then .error .nonAscii
  else
    match Base64.decode cs with
    | .error fault => .error (.base64 fault)
    | .ok octets =>
      if octets.length % 8 = 0 then .ok (ofOctets octets)
      else .error (.partialToken octets.length)

@[simp] theorem length_bigEndian (width n : Nat) : (bigEndian width n).length = width := by
  induction width with
  | zero => rfl
  | succ width ih => rw [bigEndian, List.length_cons, ih]

@[simp] theorem length_octets (t : Token) : t.octets.length = 8 := by simp [octets]

end Token

end LspWire
