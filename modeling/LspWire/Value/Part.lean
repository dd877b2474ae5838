import LspWire.Value.Basic

/-!
# Parts of values

The parts of a value that have a name: the fields of a record, the name and the raw value of a
member of an enumeration, and the raw value that stands for no member. A member also leads to the
members of its enumeration by their names, and a number has the parts of a complex number and, if it
is whole, of a fraction. Maps and lists have entries and items, but no parts in this sense.
-/

namespace LspWire

variable {R E α : Type}

/-- The parts of a member of an enumeration. -/
def Member.parts (m : Member) : List (String × Scalar) :=
  [("name", .str m.name), ("value", m.raw)]

/-- The parts of a sum of flags. A sum without a name has null for its name. -/
def EnumDecl.flagsParts (d : EnumDecl) (bits : Int) : List (String × Scalar) :=
  [("name", ((d.flagsName bits).map Scalar.str).getD .null), ("value", .int bits)]

/-- The parts of a raw value without a member. -/
def Scalar.unknownParts (raw : Scalar) : List (String × Scalar) := [("value", raw)]

/-- The parts of a whole number. -/
def wholeParts (n : Int) : List (String × Scalar) :=
  [("real", .int n), ("imag", .int 0), ("numerator", .int n), ("denominator", .int 1)]

/-- The parts of a number. A truth value counts as zero or one. -/
def Scalar.numberParts : Scalar → List (String × Scalar)
  | .int n => wholeParts n
  | .bool b => wholeParts (if b then 1 else 0)
  | .float x => [("real", .float x), ("imag", .float (.zero false))]
  | .null | .str _ => []

/-- Things in the order of the fields of a record, by the names of the fields. -/
def Schema.namedFields (S : Schema R E) (r : R) (xs : List α) : List (String × α) :=
  ((S.record r).fields.map (·.name)).zip xs

/-- Scalars as values, by the same names. -/
def scalarValues (parts : List (String × Scalar)) : List (String × Value R E) :=
  parts.map fun (name, s) => (name, .scalar s)

/-- A member of an enumeration as a value. Those of flags are sums of one. -/
def Schema.memberValue (S : Schema R E) (e : E) (m : Member) : Value R E :=
  match (S.enumeration e).isFlags, m.raw with
  | true, .int bits => .flags e bits
  | _, _ => .member e m

/-- The members of an enumeration by name. -/
def Schema.namedMembers (S : Schema R E) (e : E) : List (String × Value R E) :=
  (S.enumeration e).members.map fun m => (m.name, S.memberValue e m)

/-- The parts of a value by name. -/
def Value.parts (S : Schema R E) : Value R E → List (String × Value R E)
  | .record r values => S.namedFields r values
  | .member e m => scalarValues m.parts ++ S.namedMembers e
  | .flags e bits =>
    scalarValues ((S.enumeration e).flagsParts bits ++ wholeParts bits) ++ S.namedMembers e
  | .unknown raw => scalarValues raw.unknownParts
  | .scalar s => scalarValues s.numberParts
  | .list _ | .map _ => []

end LspWire
