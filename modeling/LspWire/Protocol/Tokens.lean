import LspWire.Decode
import LspWire.Protocol.Draft

/-!
# Tokens of the protocol

Packed tokens on their own, outside the record that holds them: `decodeTokens` reads them and
`encodeTokens` writes tokens that are given by their numbers.
-/

namespace LspWire.Protocol

/-- The tokens that data stands for, or null. -/
def decodeTokens (x : Json) : Except Error Datum :=
  match Schema.readTokens .semanticHighlightingToken (Layer.ofJson x) with
  | .ok v => .ok v
  | .error (.packing .nonAscii) => .error .nonAscii
  | .error fault => .error (.mismatch (.tokens fault))

/-- A record made from the values of its first fields. -/
def constructOrdered (enabled : Bool) (r : RecordName) (values : List Datum) :
    Except Error Datum :=
  let names := (schema.record r).fields.map (·.name)
  if values.length ≤ names.length then constructNamed enabled (.record r) (names.zip values)
  else .error (.refused .wrongArguments)

/-- The data of tokens given by their numbers, or null. -/
def encodeTokens (enabled : Bool) (tokens? : Option (List (List Datum))) : Except Error Json :=
  match tokens? with
  | none => .ok .null
  | some tokens => do
    let values ← tokens.mapM (constructOrdered enabled .semanticHighlightingToken)
    match (Value.list values : Datum).packed? with
    | some text => pure (.str text)
    | none => throw .notSuchAValue

end LspWire.Protocol
