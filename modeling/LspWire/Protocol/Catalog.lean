import LspWire.Error
import LspWire.Protocol.Schema

/-!
# The catalog

The records and enumerations of the protocol under one kind of name, and the search for the one
that a text names. `catalog` lists the names in alphabetical order.
-/

namespace LspWire.Protocol

/-- The name of a record or of an enumeration. -/
inductive TypeName where
  | record (r : RecordName)
  | enumeration (e : EnumName)
deriving DecidableEq, Repr

namespace TypeName

/-- Every name. -/
def all : List TypeName := RecordName.all.map .record ++ EnumName.all.map .enumeration

/-- The text of a name. -/
def text : TypeName → String
  | .record r => (schema.record r).name
  | .enumeration e => (schema.enumeration e).name

/-- Which version introduced what a name stands for. -/
def tag : TypeName → Option Tag
  | .record r => (schema.record r).tag
  | .enumeration e => (schema.enumeration e).tag

/-- The type that a name stands for. -/
def dataType : TypeName → DataType
  | .record r => .record r
  | .enumeration e => .enumeration e

/-- The name with a text. -/
def find? (text : String) : Option TypeName := all.find? (·.text = text)

end TypeName

/-- The texts of all names, in alphabetical order. -/
def catalog : List String := (TypeName.all.map TypeName.text).mergeSort (· ≤ ·)

/-- The record or enumeration that a text names. -/
def findType (text : String) : Except UnknownName TypeName :=
  match TypeName.find? text with
  | some name => .ok name
  | none => .error ⟨.type, text⟩

/-- A reference to a type, by a name or made up of other references. -/
inductive TypeRef where
  | named (text : String)
  | list (item : TypeRef)
  | optional (base : TypeRef)
  | map (item : TypeRef)
  | opened (base : TypeRef)
deriving DecidableEq, Repr

namespace TypeRef

/-- The types that every message can use. -/
def primitives : List (String × DataType) := [
  ("str", .str),
  ("int", .int),
  ("bool", .bool),
  ("float", .float),
  ("Any", .any),
  ("list", .listOfAny),
  ("Unknown", .unknown)]

/-- The type that a text names: a primitive type, a union with a name, or a type of the catalog. -/
def ofName (text : String) : Except UnknownName DataType :=
  match (primitives ++ namedTypes).lookup text with
  | some t => .ok t
  | none => (findType text).map TypeName.dataType

/-- The type that a reference stands for. -/
def resolve : TypeRef → Except UnknownName DataType
  | .named text => ofName text
  | .list item => item.resolve.map .list
  | .optional base => base.resolve.map .optional
  | .map item => item.resolve.map .map
  | .opened base => base.resolve.map .opened

end TypeRef

end LspWire.Protocol
