import LspWire.Text.Quoted
import LspWire.Version

/-!
# Types of data

A `Ty` describes the data that may stand in a place of a message. Records and enumerations are named
by elements of two types, so a type does not contain their declarations and a record may refer to
itself. Two types have a wire form of their own: packed tokens, which travel as one text, and a
record that older clients replace by a flag.

A union is a list of alternatives in normal form: built by `Ty.oneOf`, it holds no union and no
alternative twice, and it has at least two alternatives.
-/

namespace LspWire

/-- Types over record names `R` and enumeration names `E`. -/
inductive Ty (R E : Type) where
  | any
  | null
  | str
  | int
  | bool
  | float
  /-- A list of anything. -/
  | listOfAny
  /-- A raw value of an enumeration that has no member for it. -/
  | unknown
  | literal (text : String)
  | enumeration (e : E)
  | record (r : R)
  | list (item : Ty R E)
  /-- An object with arbitrary keys. -/
  | map (item : Ty R E)
  | union (alternatives : List (Ty R E))
  /-- A list of records of three numbers, packed into one text, or null. -/
  | packed (r : R)
  /-- A record or null. True stands for a record of empty lists, false for null. Messages call it
  by the label. -/
  | recordOrFlag (r : R) (label : String)
deriving Repr

namespace Ty

variable {R E : Type}

mutual

/-- Equality of types. -/
def same [BEq R] [BEq E] : Ty R E → Ty R E → Bool
  | .any, .any | .null, .null | .str, .str | .int, .int | .bool, .bool | .float, .float
  | .listOfAny, .listOfAny | .unknown, .unknown => true
  | .literal a, .literal b => a == b
  | .enumeration a, .enumeration b => a == b
  | .record a, .record b | .packed a, .packed b => a == b
  | .recordOrFlag a s, .recordOrFlag b t => a == b && s == t
  | .list a, .list b | .map a, .map b => same a b
  | .union as, .union bs => sameAll as bs
  | _, _ => false

def sameAll [BEq R] [BEq E] : List (Ty R E) → List (Ty R E) → Bool
  | [], [] => true
  | a :: as, b :: bs => same a b && sameAll as bs
  | _, _ => false

end

/-- The alternatives that a type offers. -/
def alternatives : Ty R E → List (Ty R E)
  | .union ts => ts
  | t => [t]

/-- Types in order, each at its first place only. -/
def distinct [BEq R] [BEq E] (ts : List (Ty R E)) : List (Ty R E) :=
  ts.foldl (fun seen t => if seen.any (same t) then seen else seen ++ [t]) []

/-- The type of the values of any of some types. -/
def oneOf [BEq R] [BEq E] (ts : List (Ty R E)) : Ty R E :=
  match distinct (ts.flatMap alternatives) with
  | [t] => t
  | ts => .union ts

/-- A type with null besides its own values. -/
def optional [BEq R] [BEq E] (t : Ty R E) : Ty R E := oneOf [t, .null]

/-- A type with raw values that have no member besides its own values. -/
def opened [BEq R] [BEq E] (t : Ty R E) : Ty R E := oneOf [t, .unknown]

/-- A type without null, with null as the last alternative. -/
def orNull : Ty R E → Ty R E
  | .union ts => .union (ts ++ [.null])
  | t => .union [t, .null]

/-- The type of the members of an enumeration and of raw values that have none. -/
def openEnum (e : E) : Ty R E := .union [.enumeration e, .unknown]

def isNull : Ty R E → Bool
  | .null => true
  | _ => false

/-- Whether the values of a type are data without parts. -/
def isPlain : Ty R E → Bool
  | .null | .str | .int | .bool | .float | .literal _ => true
  | _ => false

end Ty

end LspWire
