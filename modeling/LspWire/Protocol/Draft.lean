import LspWire.Protocol.Catalog
import LspWire.Value.Part

/-!
# Drafts of values

A `Draft` is a value as its sender writes it down, with the names of records, fields and members as
texts. Building it constructs every record, the parts before the whole, so each of them passes its
checks.
-/

namespace LspWire.Protocol

/-- A value written down by names. -/
inductive Draft where
  | scalar (s : Scalar)
  | list (items : List Draft)
  | map (entries : List (String × Draft))
  | unknown (raw : Scalar)
  | member (type name : String)
  | record (type : String) (arguments : List (String × Draft))
deriving Repr

/-- The member that two texts name. -/
def findMember (type name : String) : Except Error Datum :=
  match findType type with
  | .error u => .error (.unknownName u)
  | .ok (.record _) => .error .notApplicable
  | .ok (.enumeration e) =>
    match (schema.enumeration e).withName? name with
    | some m => .ok (schema.memberValue e m)
    | none => .error (.noMember name)

/-- A record made from values by name. An enumeration cannot be made like this. -/
def constructNamed (enabled : Bool) (name : TypeName) (arguments : List (String × Datum)) :
    Except Error Datum :=
  match name with
  | .enumeration _ => .error .notApplicable
  | .record r => (schema.construct enabled r arguments).mapError .refused

/-- Refuses a proposed part unless the proposed parts are enabled. -/
def requireProposed (enabled : Bool) (what : String) : Except Error Unit :=
  if enabled then .ok () else .error (.refused (.disabled what))

/-- A completion item with no more than a label and a detail. -/
def simpleCompletion (enabled : Bool) (label detail : Datum) : Except Error Datum :=
  constructNamed enabled (.record .completionItem) [("label", label), ("detail", detail)]

namespace Draft

mutual

/-- The value that a draft describes. -/
def build (enabled : Bool) : Draft → Except Error Datum
  | .scalar s => .ok (.scalar s)
  | .list items => (buildItems enabled items).map .list
  | .map entries => (buildEntries enabled entries).map .map
  | .unknown raw => .ok (.unknown raw)
  | .member type name => findMember type name
  | .record type arguments => do
    let name ← (findType type).mapError .unknownName
    let arguments ← buildEntries enabled arguments
    constructNamed enabled name arguments

def buildItems (enabled : Bool) : List Draft → Except Error (List Datum)
  | [] => .ok []
  | d :: ds => do
    let v ← build enabled d
    let vs ← buildItems enabled ds
    pure (v :: vs)

def buildEntries (enabled : Bool) : List (String × Draft) → Except Error (List (String × Datum))
  | [] => .ok []
  | (key, d) :: entries => do
    let v ← build enabled d
    let rest ← buildEntries enabled entries
    pure ((key, v) :: rest)

end

end Draft

end LspWire.Protocol
