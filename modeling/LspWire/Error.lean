import LspWire.Construct
import LspWire.Encode

/-!
# Errors

What an operation on types, records and messages answers when it has no value to give. A `Mismatch`
is about data from outside that is not what was asked for; the other errors are about the request
itself.
-/

namespace LspWire

/-- Why data is not what was asked for. -/
inductive Mismatch where
  /-- The data does not fit the type of the name. -/
  | type (name : String) (faults : List Fault)
  | tokens (fault : TokenFault)
  /-- Parameters for a method that has none. -/
  | unexpectedParams (method : String)
  /-- A result of a method that answers null. -/
  | unexpectedResult (method : String)
deriving DecidableEq

namespace Mismatch

/-- What is wrong, in short. -/
def reason : Mismatch → String
  | .type name _ => "cannot decode " ++ name
  | .tokens fault => fault.message
  | .unexpectedParams method => method ++ " takes no params"
  | .unexpectedResult method => method ++ " has no result"

/-- What the data was meant for. -/
def target? : Mismatch → Option String
  | .type name _ => some name
  | .tokens _ => none
  | .unexpectedParams method => some method
  | .unexpectedResult method => some method

/-- The faults, in the order of the data. -/
def errors : Mismatch → List String
  | .type _ faults => faults.map Fault.message
  | _ => []

def message (m : Mismatch) : String :=
  if m.errors.isEmpty then m.reason
  else m.reason ++ ": " ++ "; ".intercalate m.errors

end Mismatch

/-- What a name can be the name of. -/
inductive NameKind where
  | type
  | request
  | notification
deriving DecidableEq, Repr

/-- The word for a kind of name. -/
def NameKind.word : NameKind → String
  | .type => "type"
  | .request => "request"
  | .notification => "notification"

/-- A name that stands for nothing. -/
structure UnknownName where
  kind : NameKind
  name : String
deriving DecidableEq, Repr

def UnknownName.message (u : UnknownName) : String :=
  "unknown " ++ u.kind.word ++ ": " ++ Text.quoted u.name

/-- The sorts of values that are no records. -/
inductive PlainSort where
  | data (kind : Kind)
  | enumeration (name : String)
  | flags (name : String)
deriving DecidableEq, Repr

/-- The text of a sort. -/
def PlainSort.text : PlainSort → String
  | .data kind => "<class '" ++ kind.typeWord ++ "'>"
  | .enumeration name => "<enum '" ++ name ++ "'>"
  | .flags name => "<flag '" ++ name ++ "'>"

/-- Why an operation has no value to give. -/
inductive Error where
  | unknownName (u : UnknownName)
  | refused (r : Refusal)
  | mismatch (m : Mismatch)
  /-- An integer that is too large for a floating-point number. -/
  | tooLarge
  /-- Packed tokens with a character outside ASCII. -/
  | nonAscii
  /-- A name that an enumeration has no member for. -/
  | noMember (name : String)
  /-- A key that a map has no entry for. -/
  | noKey (key : String)
  /-- A value where a record is asked for. -/
  | notARecord (sort : PlainSort)
  /-- A value that cannot be encoded as the type asked for. -/
  | unwritable (fault : WriteFault)
  /-- A value that has no part of the sort asked for. -/
  | notSuchAValue
  /-- An index past the end of a list. -/
  | noItem
  /-- An operation on values that it is not defined on. -/
  | notApplicable
deriving DecidableEq

namespace Error

/-- The wording of an error, if it has one of its own. -/
def message? : Error → Option String
  | .unknownName u => some u.message
  | .refused r => r.message?
  | .mismatch m => some m.message
  | .tooLarge => some tooLargeMessage
  | .nonAscii => some "string argument should contain only ASCII characters"
  | .noMember name => some name
  | .noKey key => some key
  | .notARecord sort => some (sort.text ++ " is not an attrs-decorated class.")
  | .unwritable _ => none
  | .noItem => some "list index out of range"
  | .notSuchAValue => none
  | .notApplicable => none

end Error

end LspWire
