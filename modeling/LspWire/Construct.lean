import LspWire.Fault
import LspWire.Value.Part

/-!
# Constructing records

`Schema.construct` makes a record from named arguments, as a sender does. A record, field or member
of the proposed parts is refused unless these are enabled; then the arguments must be those that the
record declares; then every field is checked in declaration order. `Schema.checkFields` is the part
that looks at the values only, which a decoder runs as well.
-/

namespace LspWire

/-- Why a record is not constructed. -/
inductive Refusal where
  /-- A proposed part, while these are not enabled. -/
  | disabled (what : String)
  /-- An argument that the record does not declare, or a required one that is missing. -/
  | wrongArguments
  | notAnInteger (field : String)
  | negative (field : String) (n : Int)
  | tooLarge (field : String) (bound : Nat) (n : Int)
  | above (field : String) (bound : Nat)
  | incomparable (field : String)
deriving DecidableEq, Repr

namespace Refusal

/-- The wording of a refusal. A value of the wrong sort has none. -/
def message? : Refusal → Option String
  | .disabled what => some (Surface.disabledMessage what)
  | .wrongArguments => none
  | .notAnInteger _ => none
  | .negative field n => some ("'" ++ field ++ "' must be >= 0: " ++ toString n)
  | .tooLarge field bound n =>
    some ("'" ++ field ++ "' must be < " ++ toString bound ++ ": " ++ toString n)
  | .above field bound => some (field ++ " above " ++ toString bound)
  | .incomparable _ => none

/-- Whether a refusal is about the number that a field holds. -/
def isRange : Refusal → Bool
  | .negative .. | .tooLarge .. | .above .. => true
  | _ => false

end Refusal

namespace Value

variable {R E : Type}

/-- Whether a value is a number above a bound, if it is a number at all. -/
def exceeds? (bound : Nat) : Value R E → Option Bool
  | .scalar (.float x) =>
    some (!x.isNaN && !x.isNegative && bound * 2 ^ Binary64.unitExponent < x.units)
  | v => v.toInt?.map fun n => (bound : Int) < n

end Value

namespace Check

variable {R E : Type}

/-- A check of the value of a field. -/
def run (S : Schema R E) (enabled : Bool) (record field : String) (v : Value R E) :
    Check → Except Refusal Unit
  | .proposed =>
    if v.isNull || enabled then .ok () else .error (.disabled (record ++ "." ++ field))
  | .stable =>
    match v with
    | .member e m =>
      let d := S.enumeration e
      if d.isProposed m && !enabled then .error (.disabled (d.name ++ "." ++ m.name)) else .ok ()
    | _ => .ok ()
  | .unsigned bits =>
    match v.toInt? with
    | none => .error (.notAnInteger field)
    | some n =>
      if n < 0 then .error (.negative field n)
      else if n < (2 ^ bits : Nat) then .ok ()
      else .error (.tooLarge field (2 ^ bits) n)
  | .atMost bound =>
    if v.isNull then .ok ()
    else
      match v.exceeds? bound with
      | none => .error (.incomparable field)
      | some true => .error (.above field bound)
      | some false => .ok ()

end Check

namespace Schema

variable {R E : Type}

/-- The record whose fields hold their text or null. -/
def blank (S : Schema R E) (r : R) : Value R E :=
  .record r ((S.record r).fields.map fun f => match f.default with
    | .text s => .str s
    | _ => .null)

/-- What a field holds when it is left out, if it may be. -/
def defaultValue? (S : Schema R E) : Default R → Option (Value R E)
  | .required => none
  | .null => some .null
  | .text s => some (.str s)
  | .blank r => some (S.blank r)

/-- The gate of a record: whether it may be constructed at all. -/
def gate (S : Schema R E) (enabled : Bool) (r : R) : Except Refusal Unit :=
  let d := S.record r
  if Surface.isProposed d.tag && !enabled then .error (.disabled d.name) else .ok ()

/-- The checks of one field. -/
def checkField (S : Schema R E) (enabled : Bool) (record : String) (f : Field R E)
    (v : Value R E) : Except Refusal Unit :=
  if Surface.isProposed f.tag && !v.isNull && !enabled then
    .error (.disabled (record ++ "." ++ f.name))
  else f.checks.forM (Check.run S enabled record f.name v)

/-- The checks of the fields of a record, in declaration order. -/
def checkFields (S : Schema R E) (enabled : Bool) (r : R) (values : List (Value R E)) :
    Except Refusal Unit :=
  let d := S.record r
  (d.fields.zip values).forM fun (f, v) => S.checkField enabled d.name f v

/-- The values of the fields of a record, in declaration order, if the arguments are those that
the record declares. -/
def arrange (S : Schema R E) (r : R) (arguments : List (String × Value R E)) :
    Except Refusal (List (Value R E)) :=
  let fields := (S.record r).fields
  if arguments.all fun (name, _) => fields.any (·.name = name) then
    fields.mapM fun f =>
      match (arguments.lookup f.name).or (S.defaultValue? f.default) with
      | some v => .ok v
      | none => .error .wrongArguments
  else .error .wrongArguments

/-- Makes a record from named arguments. -/
def construct (S : Schema R E) (enabled : Bool) (r : R) (arguments : List (String × Value R E)) :
    Except Refusal (Value R E) := do
  S.gate enabled r
  let values ← S.arrange r arguments
  S.checkFields enabled r values
  pure (.record r values)

/-- Constructs a record anew with some fields changed. -/
def evolve (S : Schema R E) (enabled : Bool) (r : R) (values : List (Value R E))
    (changes : List (String × Value R E)) : Except Refusal (Value R E) :=
  S.construct enabled r
    (changes ++ (S.namedFields r values).filter fun (name, _) => (changes.lookup name).isNone)

end Schema

end LspWire
