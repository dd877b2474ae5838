import LspWire.Context
import LspWire.Protocol.Method
import LspWire.Value.Equality

/-!
# Sessions

A `Session` keeps values and methods in named slots, the context that its operations run in, and
what the scopes have replaced in which the proposed parts are switched on or off. Its steps open and
close the scopes, and they decode, construct, change, encode and compare the values. A `Procedure`
goes on from what the steps before it have left, and a failure undoes nothing.
-/

namespace LspWire.Protocol

/-- What a slot holds. -/
inductive Slot where
  | value (v : Datum)
  | method (m : Method)
deriving Repr

/-- The context of the operations, the overrides that the open scopes have replaced, the innermost
first, and the slots that are set. -/
structure Session where
  context : Context
  replaced : List (Option Bool)
  slots : List (String × Slot)
deriving Repr

/-- A step from a value to a part of it. -/
inductive Selector where
  | field (name : String)
  | item (index : Int)
deriving DecidableEq, Repr

/-- A step of a session. Values that a step yields are stored in the slot `into?`. -/
inductive Step where
  | enter (enabled : Bool)
  | leave
  /-- The innermost scope is left by an exception, which goes on. -/
  | interrupt
  | decode (type : TypeRef) (data : Json) (version? : Option SpecVersion) (into? : Option String)
  | construct (draft : Draft) (into? : Option String)
  | evolve (slot : String) (changes : List (String × Draft)) (into? : Option String)
  | get (slot : String) (path : List Selector) (into? : Option String)
  | encode (slot : String) (type? : Option TypeRef)
  | redecode (slot : String) (type : TypeRef) (version? : Option SpecVersion)
      (into? : Option String)
  | equal (a b : String)
  | lookup (kind : MethodKind) (name : String) (into? : Option String)
  | params (method : String) (data : Json) (version? : Option SpecVersion) (into? : Option String)
  | result (method : String) (data : Json) (version? : Option SpecVersion) (into? : Option String)
  | encodeParams (method slot : String)
  | encodeResult (method slot : String)
  | build (method : String) (id : Datum) (slot? : Option String)
deriving Repr

/-- What a step answers. -/
inductive Answer where
  /-- Whether the proposed parts are enabled now. -/
  | flag (enabled : Bool)
  | value (v : Datum)
  | data (x : Json)
  | equal (b : Bool)
  | description (text : String)
  /-- A message, with the data it is sent as. -/
  | message (v : Datum) (x : Json)
deriving Repr

/-- Why a step fails. -/
inductive StepError where
  | operation (e : Error)
  /-- An exception has left a scope. -/
  | interrupted
  | noScope
  | noValue (slot : String)
  | noMethod (slot : String)
deriving DecidableEq

namespace StepError

/-- The wording of a failure, if it has one of its own. -/
def message? : StepError → Option String
  | .operation e => e.message?
  | .interrupted => none
  | .noScope => some "no scope"
  | .noValue slot => some ("no value in slot " ++ slot)
  | .noMethod slot => some ("no method in slot " ++ slot)

end StepError

namespace Selector

/-- The place in a list that an index stands for. A negative index counts from the end. -/
def place (length : Nat) (index : Int) : Option Nat :=
  let i := if index < 0 then index + length else index
  if 0 ≤ i ∧ i < length then some i.toNat else none

/-- What is found, or an error. -/
def found (part? : Option Datum) (missing : Error) : Except Error Datum :=
  match part? with
  | some part => .ok part
  | none => .error missing

/-- The part of a value that a selector picks. Maps are asked for keys, also by a number, and lists
for places. -/
def pick : Datum → Selector → Except Error Datum
  | .map entries, .field name => found (entries.lookup name) (.noKey name)
  | .map _, .item index => .error (.noKey (toString index))
  | .list items, .item index =>
    found ((place items.length index).bind fun i => items[i]?) .noItem
  | .list _, .field _ => .error .notApplicable
  | v, .field name => found ((v.parts schema).lookup name) .notSuchAValue
  | _, .item _ => .error .notApplicable

end Selector

namespace Method

/-- Data as a type in the context, where nothing but null is expected if there is no type. -/
def decodePartIn (version? : Option SpecVersion) (unexpected : Mismatch) (t? : Option DataType)
    (x : Json) : Contextual Error Datum :=
  match t? with
  | some t => schema.decodeIn version? t x
  | none => if x = .null then pure .null else throw (.mismatch unexpected)

/-- The parameters that data stands for in the context. -/
def decodeParamsIn (version? : Option SpecVersion) (m : Method) (x : Json) :
    Contextual Error Datum := do
  Contextual.ofFlag m.gate
  decodePartIn version? (.unexpectedParams m.name) m.params? x

/-- The result that data stands for in the context. -/
def decodeResultIn (version? : Option SpecVersion) (m : Method) (x : Json) :
    Contextual Error Datum := do
  let t? ← m.result
  Contextual.ofFlag m.gate
  decodePartIn version? (.unexpectedResult m.name) t? x

end Method

/-- What a step of a session does. What it changes stays changed if it fails. -/
abbrev Procedure (α : Type) := ExceptT StepError (StateM Session) α

namespace Session

/-- Whether the proposed parts are enabled. -/
def enabled (s : Session) : Bool := s.context.enabled

/-- A session without slots and scopes. -/
def start (ambient : Bool) : Session := ⟨⟨ambient, none, none⟩, [], []⟩

/-- Opens a scope. What it replaces is kept until the scope is closed. -/
def enter (enabled : Bool) : Procedure Unit :=
  modify fun s =>
    { s with
      context.override? := some enabled
      replaced := s.context.override? :: s.replaced }

/-- Closes the innermost scope. -/
def leave : Procedure Unit := do
  let s ← get
  match s.replaced with
  | [] => throw .noScope
  | before :: replaced => set { s with context.override? := before, replaced := replaced }

/-- Runs an operation in the context of the session. -/
def operate {α : Type} (f : Contextual Error α) : Procedure α := fun s =>
  let (result, context) := f s.context
  (result.mapError .operation, { s with context := context })

/-- What a slot holds. -/
def look (slot : String) : Procedure (Option Slot) := do
  let s ← get
  pure (s.slots.lookup slot)

/-- The value of a slot. -/
def value (slot : String) : Procedure Datum := do
  match ← look slot with
  | some (.value v) => pure v
  | _ => throw (.noValue slot)

/-- The method of a slot. -/
def method (slot : String) : Procedure Method := do
  match ← look slot with
  | some (.method m) => pure m
  | _ => throw (.noMethod slot)

/-- Sets a slot, if there is one to set. -/
def store (into? : Option String) (x : Slot) : Procedure Unit :=
  match into? with
  | some slot => modify fun s => { s with slots := (slot, x) :: s.slots }
  | none => pure ()

/-- An operation of the protocol as a part of a step. -/
def lift {α : Type} (r : Except Error α) : Except StepError α := r.mapError .operation

/-- The type that a reference in a step stands for. -/
def resolve (type : TypeRef) : Except StepError DataType :=
  lift (type.resolve.mapError .unknownName)

/-- The data of a value, encoded as a type if one is given. -/
def encodeValue (v : Datum) (type? : Option TypeRef) : Except StepError Json := do
  let t ← (type?.map resolve).getD (.ok .any)
  lift ((schema.encodeAs t v).mapError .unwritable)

/-- The sort of a value that is no record. -/
def plainSort : Datum → PlainSort
  | .scalar s => .data s.kind
  | .list _ => .data .list
  | .member e _ => .enumeration (schema.enumeration e).name
  | .flags e _ => .flags (schema.enumeration e).name
  | .map _ | .unknown _ | .record .. => .data .map

/-- A value constructed anew with some fields changed. -/
def evolveValue (enabled : Bool) (changes : List (String × Datum)) : Datum → Except Error Datum
  | .record r values => (schema.evolve enabled r values changes).mapError .refused
  | .unknown raw =>
    match changes with
    | [] => .ok (.unknown raw)
    | [("value", .scalar new)] => .ok (.unknown new)
    | _ => .error .notApplicable
  | v => .error (.notARecord (plainSort v))

/-- Stores a value and answers it. -/
def yieldValue (into? : Option String) (v : Datum) : Procedure Answer := do
  store into? (.value v)
  pure (.value v)

/-- What a step does. -/
def perform : Step → Procedure Answer
  | .enter enabled => do
    enter enabled
    pure (.flag (← get).enabled)
  | .leave => do
    leave
    pure (.flag (← get).enabled)
  | .interrupt => do
    leave
    throw .interrupted
  | .decode type data version? into? => do
    let t ← resolve type
    let v ← operate (schema.decodeIn version? t data)
    yieldValue into? v
  | .construct draft into? => do
    let v ← operate (.ofFlag draft.build)
    yieldValue into? v
  | .evolve slot changes into? => do
    let v ← value slot
    let changes ← operate (.ofFlag fun enabled => Draft.buildEntries enabled changes)
    let v ← operate (.ofFlag fun enabled => evolveValue enabled changes v)
    yieldValue into? v
  | .get slot path into? => do
    let v ← value slot
    let v ← lift (path.foldlM Selector.pick v)
    yieldValue into? v
  | .encode slot type? => do
    let v ← value slot
    let x ← encodeValue v type?
    pure (.data x)
  | .redecode slot type version? into? => do
    let v ← value slot
    let t ← resolve type
    let x ← encodeValue v none
    let v ← operate (schema.decodeIn version? t x)
    yieldValue into? v
  | .equal a b => do
    let v ← value a
    let w ← value b
    pure (.equal (v.equal w))
  | .lookup kind name into? => do
    let m ← operate (.ofFlag fun enabled => Method.find enabled kind name)
    store into? (.method m)
    pure (.description m.describe)
  | .params method data version? into? => do
    let m ← Session.method method
    let v ← operate (m.decodeParamsIn version? data)
    yieldValue into? v
  | .result method data version? into? => do
    let m ← Session.method method
    let v ← operate (m.decodeResultIn version? data)
    yieldValue into? v
  | .encodeParams method slot => do
    let m ← Session.method method
    let v ← value slot
    let x ← lift (m.encodeParams v)
    pure (.data x)
  | .encodeResult method slot => do
    let m ← Session.method method
    let _ ← lift m.result
    let v ← value slot
    let x ← lift (m.encodeResult v)
    pure (.data x)
  | .build method id slot? => do
    let m ← Session.method method
    let params ← (slot?.map value).getD (pure .null)
    let v ← operate (.ofFlag fun enabled => m.message enabled id params)
    let x ← encodeValue v none
    pure (.message v x)

/-- The answer to a step and the session after it. -/
def step (s : Session) (x : Step) : Except StepError Answer × Session := (perform x).run.run s

/-- The answers to some steps, each in the session that the steps before it leave. -/
def run (s : Session) : List Step → List (Except StepError Answer)
  | [] => []
  | x :: xs => (s.step x).1 :: run (s.step x).2 xs

end Session

end LspWire.Protocol
