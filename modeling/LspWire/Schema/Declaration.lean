import LspWire.Json.Basic
import LspWire.Schema.Type

/-!
# Declarations of records and enumerations

A record declares its fields in order, each with a type, a default, the tag of the version that
introduced it, and checks that a constructor makes. Most records are written as an object of their
fields; the `Form` names the two exceptions. An enumeration declares its members in order, each with
a raw value. A `Schema` gives the declaration of every name.
-/

namespace LspWire

/-- What a field holds when it is left out. -/
inductive Default (R : Type) where
  | required
  | null
  | text (s : String)
  /-- The record with all its fields left out. -/
  | blank (r : R)
deriving DecidableEq, Repr

/-- A check that a constructor makes on a field. -/
inductive Check where
  /-- Nothing but null unless the proposed parts are enabled. -/
  | proposed
  /-- No proposed enumeration member unless the proposed parts are enabled. -/
  | stable
  /-- An integer of a number of bits, without sign. -/
  | unsigned (bits : Nat)
  /-- No number above a bound. -/
  | atMost (bound : Nat)
deriving DecidableEq, Repr

/-- A field of a record. -/
structure Field (R E : Type) where
  name : String
  ty : Ty R E
  default : Default R
  tag : Option Tag
  checks : List Check
deriving Repr

namespace Field

variable {R E : Type}

/-- A field that must be present. -/
def required (name : String) (ty : Ty R E) (checks : List Check := []) : Field R E :=
  ⟨name, ty, .required, none, checks⟩

/-- A field that is null when it is left out. -/
def optional (name : String) (ty : Ty R E) : Field R E := ⟨name, ty.orNull, .null, none, []⟩

/-- An optional field that a version introduced. -/
def since (tag : Tag) (name : String) (ty : Ty R E) : Field R E :=
  ⟨name, ty.orNull, .null, some tag, []⟩

/-- A field of free-form data, null when it is left out. -/
def free (name : String) (tag : Option Tag := none) : Field R E := ⟨name, .any, .null, tag, []⟩

/-- A field whose text tells the records of a union apart. -/
def kind (text : String) : Field R E := ⟨"kind", .literal text, .text text, none, []⟩

/-- Whether a field belongs to a surface. -/
def isVisible (σ : Surface) (f : Field R E) : Bool := σ.admits f.tag

/-- Whether a field is left out of the wire form when it is null. -/
def isOmittable (f : Field R E) : Bool :=
  match f.default with
  | .null => true
  | _ => false

/-- Whether a field holds a fixed text, which must be present on the wire. -/
def isLiteral (f : Field R E) : Bool :=
  match f.ty with
  | .literal _ => true
  | _ => false

end Field

/-- How a record stands on the wire. -/
inductive Form (R E : Type) where
  /-- An object of the fields. -/
  | plain (fields : List (Field R E))
  /-- An object of one required field; every other key is an entry of the optional map `rest`. -/
  | spread (key : Field R E) (rest : String) (restTag : Option Tag) (item : Ty R E)
  /-- An object of the common fields and of one of two more: the error if there is one, otherwise
  the result. -/
  | outcome (common : List (Field R E)) (result error : Field R E)
deriving Repr

/-- The declaration of a record. -/
structure RecordDecl (R E : Type) where
  name : String
  tag : Option Tag
  form : Form R E
deriving Repr

namespace RecordDecl

variable {R E : Type}

/-- The fields in declaration order. -/
def fields (d : RecordDecl R E) : List (Field R E) :=
  match d.form with
  | .plain fields => fields
  | .spread key rest restTag item => [key, ⟨rest, (Ty.map item).orNull, .null, restTag, []⟩]
  | .outcome common result error => common ++ [result, error]

end RecordDecl

/-- A member of an enumeration. -/
structure Member where
  name : String
  raw : Scalar
  tag : Option Tag
deriving DecidableEq, Repr

namespace Member

/-- A member with a number for its raw value. -/
def number (name : String) (raw : Int) (tag : Option Tag := none) : Member := ⟨name, .int raw, tag⟩

/-- A member with a text for its raw value. -/
def text (name raw : String) (tag : Option Tag := none) : Member := ⟨name, .str raw, tag⟩

end Member

/-- The declaration of an enumeration. Members may be ordered by their raw values. The members of
an enumeration of flags are powers of two, and its values are their sums. -/
structure EnumDecl where
  name : String
  tag : Option Tag
  isFlags : Bool
  isOrdered : Bool
  members : List Member
deriving DecidableEq, Repr

namespace EnumDecl

/-- The kind of the raw values. -/
def kind (d : EnumDecl) : Kind :=
  match d.members with
  | m :: _ => m.raw.kind
  | [] => .null

/-- The member with a raw value. -/
def withRaw? (d : EnumDecl) (raw : Scalar) : Option Member := d.members.find? (·.raw = raw)

/-- The member with a name. -/
def withName? (d : EnumDecl) (name : String) : Option Member := d.members.find? (·.name = name)

/-- Whether a member belongs to a surface. Its own tag and that of the enumeration count. -/
def admits (σ : Surface) (d : EnumDecl) (m : Member) : Bool := σ.admits m.tag && σ.admits d.tag

/-- Whether a member is proposed, by its own tag or that of the enumeration. -/
def isProposed (d : EnumDecl) (m : Member) : Bool :=
  Surface.isProposed m.tag || Surface.isProposed d.tag

/-- The text of the version that introduced a member. -/
def introducedIn (d : EnumDecl) (m : Member) : Option String := (m.tag.or d.tag).map (·.text)

/-- Whether a version covers a member. -/
def covers (v : SpecVersion) (d : EnumDecl) (m : Member) : Bool :=
  Surface.covers v m.tag && Surface.covers v d.tag

end EnumDecl

/-- The declarations of all records and enumerations. -/
structure Schema (R E : Type) where
  record : R → RecordDecl R E
  enumeration : E → EnumDecl

namespace Schema

variable {R E : Type}

mutual

/-- The name of a type, as error messages give it. -/
def typeName (S : Schema R E) : Ty R E → String
  | .any => "Any"
  | .null => "NoneType"
  | .str => "str"
  | .int => "int"
  | .bool => "bool"
  | .float => "float"
  | .listOfAny => "list"
  | .unknown => "Unknown"
  | .literal text => "Literal[" ++ Text.quoted text ++ "]"
  | .enumeration e => (S.enumeration e).name
  | .record r => (S.record r).name
  | .list item => "List[" ++ S.typeName item ++ "]"
  | .map item => "Dict[str, " ++ S.typeName item ++ "]"
  | .union ts => "Union[" ++ ", ".intercalate (S.typeNames ts) ++ "]"
  | .packed r => "Union[List[" ++ (S.record r).name ++ "], NoneType]"
  | .recordOrFlag r _ => "Union[" ++ (S.record r).name ++ ", NoneType]"

def typeNames (S : Schema R E) : List (Ty R E) → List String
  | [] => []
  | t :: ts => S.typeName t :: S.typeNames ts

end

end Schema

end LspWire
