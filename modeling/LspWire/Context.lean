import LspWire.Decode

/-!
# The context of operations

Besides its arguments an operation looks at two variables of its context: the override of what the
environment says about the proposed parts, and the version that data is being decoded as. An
operation is `Contextual` if it runs in a context and may change it. A failure does not undo a
change, so whoever sets a variable puts back what it held, on every path.
-/

namespace LspWire

variable {R E ε α : Type}

/-- What is in force besides the arguments of an operation. -/
structure Context where
  /-- Whether the environment enables the proposed parts. -/
  ambient : Bool
  /-- What is in force instead, inside a scope. -/
  override? : Option Bool
  /-- The version that data is decoded as, while it is decoded. -/
  active? : Option SpecVersion
deriving DecidableEq, Repr

namespace Context

/-- Whether the proposed parts are enabled. -/
def enabled (c : Context) : Bool := c.override?.getD c.ambient

/-- The version that data is decoded as unless another one is asked for. -/
def defaultVersion (c : Context) : SpecVersion := Surface.defaultVersion c.enabled

/-- The version in force. -/
def activeVersion (c : Context) : SpecVersion := c.active?.getD c.defaultVersion

/-- The surface in force. -/
def surface (c : Context) : Surface := ⟨c.activeVersion, c.enabled⟩

end Context

/-- An operation in a context. What it changes there stays changed if it fails. -/
abbrev Contextual (ε α : Type) := ExceptT ε (StateM Context) α

namespace Contextual

/-- An operation that asks the context for nothing but whether the proposed parts are enabled. -/
def ofFlag (f : Bool → Except ε α) : Contextual ε α := fun c => (f c.enabled, c)

/-- Runs an operation with a version in force, and then puts back the one that was in force before,
whether the operation gives a value or fails. -/
def withVersion (version : SpecVersion) (body : Contextual ε α) : Contextual ε α := fun c =>
  let (result, inner) := body { c with active? := some version }
  (result, { inner with active? := c.active? })

end Contextual

/-- The error of a reading that fails. An integer that is too large goes on as it is. -/
def Failure.toError (target : String) : Failure → Error
  | .tooLarge => .tooLarge
  | .faults list => .mismatch (.type target list)

namespace Schema

/-- Reads data as a type on the surface that is in force. Nothing that is read changes the context,
so every part of the data finds the same surface. -/
def readIn (S : Schema R E) (t : Ty R E) (x : Json) : Contextual Error (Value R E) := fun c =>
  ((S.decodeAt c.surface t x).mapError (Failure.toError (S.typeName t)), c)

/-- Reads data as a type, as a version that is asked for or as the default one, which is in force
until the data is read. -/
def decodeIn (S : Schema R E) (version? : Option SpecVersion) (t : Ty R E) (x : Json) :
    Contextual Error (Value R E) := do
  let c ← get
  let version := version?.getD c.defaultVersion
  if version.isProposed && !c.enabled then
    throw (.refused (.disabled ("LSP " ++ version.value)))
  else
    Contextual.withVersion version (S.readIn t x)

end Schema

end LspWire
