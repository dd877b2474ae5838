import LspWire.Json.Display
import LspWire.Version

/-!
# Faults of data

A `Fault` says where data does not fit its type and why. Places are paths from the top of the data,
through fields of records, items of lists and keys of maps. Wording is given in one place, by
`Fault.message`, and is not used anywhere else.
-/

namespace LspWire

/-- A step of a path into data. -/
inductive PathStep where
  | field (name : String)
  | index (i : Nat)
  | key (key : String)
deriving DecidableEq, Repr

/-- The text of a step. -/
def PathStep.text : PathStep → String
  | .field name => "." ++ name
  | .index i => "[" ++ toString i ++ "]"
  | .key k => "[" ++ Text.quoted k ++ "]"

/-- What keeps a text from being base64 data. -/
inductive Base64Fault where
  | leadingPadding
  | excessData
  | foreignCharacter
  | discontinuousPadding
  | loneCharacter (count : Nat)
  | incorrectPadding
deriving DecidableEq, Repr

def Base64Fault.message : Base64Fault → String
  | .leadingPadding => "Leading padding not allowed"
  | .excessData => "Excess data after padding"
  | .foreignCharacter => "Only base64 data is allowed"
  | .discontinuousPadding => "Discontinuous padding not allowed"
  | .loneCharacter count =>
    "Invalid base64-encoded string: number of data characters (" ++ toString count ++
      ") cannot be 1 more than a multiple of 4"
  | .incorrectPadding => "Incorrect padding"

/-- What keeps a text from being packed tokens. -/
inductive PackingFault where
  | nonAscii
  | base64 (fault : Base64Fault)
  | partialToken (bytes : Nat)
deriving DecidableEq, Repr

/-- What keeps data from being packed tokens or null. -/
inductive TokenFault where
  | notText (got : Kind)
  | packing (fault : PackingFault)
deriving DecidableEq, Repr

/-- Why data does not fit a type. -/
inductive Cause where
  | primitiveExpected (expected got : Kind)
  | rawExpected (expected : Kind) (enumeration : String) (got : Kind)
  | rawUnrecognized (enumeration : String) (raw : Scalar)
  | intOrTextExpected (got : Kind)
  | literalExpected (text : String) (got : Json)
  | listExpected (got : Kind)
  | mapExpected
  | objectExpected (record : String) (got : Kind)
  | spreadExpected (record : String) (got : Kind)
  | flagOrObjectExpected (field : String) (got : Kind)
  | missing
  | keyMissing (field : String)
  | disabled (what : String)
  | notCovered (what : String) (introducedIn : String) (version : SpecVersion)
  | noAlternative (names : List String)
  | token (fault : TokenFault)
  | refused
  /-- An integer that is too large for a floating-point number. -/
  | tooLarge
  /-- A proposed part that a constructor refuses. -/
  | proposed (what : String)
  /-- A tag of a field whose text is no version. -/
  | unreadableTag (record : String)
deriving DecidableEq

/-- The wording of a fault of packed tokens. -/
def TokenFault.message : TokenFault → String
  | .notText got => "expected base64 str, got " ++ got.typeWord
  | .packing .nonAscii => "invalid value for type, expected Optional"
  | .packing (.base64 fault) => "invalid base64 token data: " ++ fault.message
  | .packing (.partialToken bytes) =>
    "token data of " ++ toString bytes ++ " bytes is not a multiple of 8"

/-- The wording for an integer that is too large for a floating-point number. -/
def tooLargeMessage : String := "int too large to convert to float"

/-- The wording of a cause. -/
def Cause.message : Cause → String
  | .primitiveExpected expected got => "expected " ++ expected.word ++ ", got " ++ got.word
  | .rawExpected expected enumeration got =>
    "expected " ++ expected.word ++ " discriminant of " ++ enumeration ++ ", got " ++ got.word
  | .rawUnrecognized enumeration raw =>
    "unrecognized " ++ enumeration ++ " value " ++ raw.display
  | .intOrTextExpected got => "expected int or str, got " ++ got.word
  | .literalExpected text got =>
    "expected one of [" ++ Text.quoted text ++ "], got " ++ got.display
  | .listExpected got => "expected list, got " ++ got.word
  | .mapExpected => "expected a mapping"
  | .objectExpected record got => "expected object for " ++ record ++ ", got " ++ got.word
  | .spreadExpected record got => "expected object for " ++ record ++ ", got " ++ got.typeWord
  | .flagOrObjectExpected field got =>
    "expected bool or object for " ++ field ++ ", got " ++ got.typeWord
  | .missing => "required field missing"
  | .keyMissing field => "required field " ++ Text.quoted field ++ " missing"
  | .disabled what => what ++ " belongs to the disabled proposed surface"
  | .notCovered what introducedIn version =>
    what ++ " requires LSP " ++ introducedIn ++ ", decoding as " ++ version.value
  | .noAlternative names => "value does not match any of " ++ ", ".intercalate names
  | .token fault => fault.message
  | .refused => "invalid value"
  | .tooLarge => "unknown error (" ++ tooLargeMessage ++ ")"
  | .proposed what => "unknown error (" ++ Surface.disabledMessage what ++ ")"
  | .unreadableTag record => "invalid value for type, expected " ++ record

/-- A place in data and why the data there does not fit. -/
structure Fault where
  path : List PathStep
  cause : Cause
deriving DecidableEq

namespace Fault

/-- A fault at the top of the data. -/
def here (cause : Cause) : Fault := ⟨[], cause⟩

/-- The fault seen from one step further up. -/
def under (step : PathStep) (fault : Fault) : Fault := { fault with path := step :: fault.path }

/-- The text of a path. -/
def pathText (path : List PathStep) : String := "$" ++ String.join (path.map PathStep.text)

def message (fault : Fault) : String := fault.cause.message ++ " @ " ++ pathText fault.path

@[simp] theorem path_under (step : PathStep) (fault : Fault) :
    (fault.under step).path = step :: fault.path := rfl

end Fault

/-- How reading a value fails. -/
inductive Failure where
  /-- An integer that is too large for a floating-point number. -/
  | tooLarge
  /-- Faults in the order of the data. -/
  | faults (list : List Fault)
deriving DecidableEq

namespace Failure

/-- One fault at the top of the data. -/
def here (cause : Cause) : Failure := .faults [.here cause]

/-- The faults that a failure of a part gives the whole. -/
def under (step : PathStep) : Failure → List Fault
  | .tooLarge => [⟨[step], .tooLarge⟩]
  | .faults list => list.map (Fault.under step)

end Failure

end LspWire
