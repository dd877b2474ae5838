import LspWire.Error
import LspWire.Token.Packing

/-!
# Decoding

`Schema.decodeAt` reads data as a type, on a surface. Records, fields and enumeration members that
do not belong to the surface are refused or passed over, and all faults are collected with their
places. `Schema.decode` reads data as a version that is asked for, and refuses the proposed version
unless the proposed parts are enabled.

The recursion goes over the data. A `Readable` is a datum together with its reading as every type;
one layer of data whose parts are readable is itself read by recursion over the type
(`Schema.readAs`), and `Schema.readable` puts the layers together. So the reading of a record may
look at its fields as any type, also as the record itself.
-/

namespace LspWire

variable {R E : Type}

/-- A datum with its reading as every type. -/
structure Readable (R E : Type) where
  json : Json
  readAs : Ty R E → Except Failure (Value R E)

/-- One layer of data with parts from `α`. -/
inductive Layer (α : Type) where
  | scalar (s : Scalar)
  | list (items : List α)
  | map (entries : List (String × α))

namespace Layer

variable {α : Type}

def kind : Layer α → Kind
  | .scalar s => s.kind
  | .list _ => .list
  | .map _ => .map

def isNull : Layer α → Bool
  | .scalar .null => true
  | _ => false

/-- The uppermost layer of data. -/
def ofJson : Json → Layer Json
  | .scalar s => .scalar s
  | .arr items => .list items
  | .obj entries => .map entries

/-- The data that a layer of readable data shows. -/
def json : Layer (Readable R E) → Json
  | .scalar s => .scalar s
  | .list items => .arr (items.map (·.json))
  | .map entries => .obj (entries.map fun (key, x) => (key, x.json))

end Layer

/-- The results of several readings: all values, or the faults of all in order. -/
def collect {α : Type} : List (Except (List Fault) α) → Except (List Fault) (List α)
  | [] => .ok []
  | .ok x :: rest => (collect rest).map (x :: ·)
  | .error faults :: rest =>
    match collect rest with
    | .ok _ => .error faults
    | .error more => .error (faults ++ more)

namespace Schema

/-- Whether a record or member belongs to the surface, given whether it is proposed, whether the
version covers it, and which version introduced it. -/
def available (σ : Surface) (name : String) (proposed covered : Bool)
    (introducedIn : Option String) : Except Failure Unit :=
  if proposed && !σ.proposed then .error (.here (.disabled name))
  else if covered then .ok ()
  else .error (.here (.notCovered name (introducedIn.getD "None") σ.version))

/-- Reads the raw value of an enumeration member that belongs to the surface. -/
def readMember (S : Schema R E) (σ : Surface) (e : E) (layer : Layer (Readable R E)) :
    Except Failure (Value R E) :=
  let d := S.enumeration e
  match layer with
  | .scalar raw =>
    if raw.kind ≠ d.kind then .error (.here (.rawExpected d.kind d.name raw.kind))
    else
      match d.isFlags, raw with
      | true, .int n => .ok (.flags e (d.normalBits n))
      | _, _ =>
        match d.withRaw? raw with
        | none => .error (.here (.rawUnrecognized d.name raw))
        | some m => do
          available σ (d.name ++ "." ++ m.name) (d.isProposed m) (EnumDecl.covers σ.version d m)
            (d.introducedIn m)
          pure (.member e m)
  | _ => .error (.here (.rawExpected d.kind d.name layer.kind))

/-- Reads an enumeration. A sum of flags stays a plain integer. -/
def readEnumeration (S : Schema R E) (σ : Surface) (e : E) (layer : Layer (Readable R E)) :
    Except Failure (Value R E) :=
  if (S.enumeration e).isFlags then
    match layer with
    | .scalar (.int n) => .ok (.int n)
    | _ => .error (.here (.primitiveExpected .int layer.kind))
  else S.readMember σ e layer

/-- Reads an enumeration that is open: a raw value of the right kind that is no member of the
surface stays as it is. -/
def readOpen (S : Schema R E) (σ : Surface) (e : E) (layer : Layer (Readable R E)) :
    Except Failure (Value R E) :=
  match layer with
  | .scalar raw =>
    if raw.kind ≠ (S.enumeration e).kind then S.readMember σ e layer
    else
      match S.readMember σ e layer with
      | .ok v => .ok v
      | .error _ => .ok (.unknown raw)
  | _ => S.readMember σ e layer

/-- Reads one field of an object. A field that is absent takes its default. -/
def readField (S : Schema R E) (entries : List (String × Readable R E)) (f : Field R E) :
    Except (List Fault) (Value R E) :=
  match entries.lookup f.name with
  | some x => (x.readAs f.ty).mapError (Failure.under (.field f.name))
  | none =>
    match S.defaultValue? f.default with
    | some v => .ok v
    | none => .error [⟨[.field f.name], .missing⟩]

/-- Turns a constructor's refusal into a failure of reading. -/
def ofRefusal : Refusal → Failure
  | .disabled what => .here (.proposed what)
  | _ => .here .refused

/-- The record of some values, if its constructor admits them. -/
def built (S : Schema R E) (σ : Surface) (r : R) (values : List (Value R E)) :
    Except Failure (Value R E) :=
  match S.gate σ.proposed r, S.checkFields σ.proposed r values with
  | .ok (), .ok () => .ok (.record r values)
  | .error refusal, _ => .error (ofRefusal refusal)
  | _, .error refusal => .error (ofRefusal refusal)

/-- Reads the fields of an object. Fixed texts must be present before anything else is looked at,
and fields outside the surface are passed over. -/
def readFields (S : Schema R E) (σ : Surface) (r : R) (fields : List (Field R E))
    (entries : List (String × Readable R E)) : Except Failure (Value R E) :=
  let absent := fields.filter fun f => f.isLiteral && (entries.lookup f.name).isNone
  if absent.isEmpty then
    let hidden := fields.filter fun f => !f.isVisible σ
    let shown := entries.filter fun (key, _) => !hidden.any (·.name = key)
    match collect (fields.map (S.readField shown)) with
    | .ok values => S.built σ r values
    | .error faults => .error (.faults faults)
  else .error (.faults (absent.map fun f => ⟨[.field f.name], .missing⟩))

/-- Reads the entries of a map. -/
def readEntries (item : Ty R E) (entries : List (String × Readable R E)) :
    Except Failure (List (String × Value R E)) :=
  (collect (entries.map fun (key, x) =>
    ((x.readAs item).mapError (Failure.under (.key key))).map (key, ·))).mapError .faults

/-- Reads an object whose keys are one field and the entries of a map. The entries are passed over
if the map does not belong to the surface. -/
def readSpread (S : Schema R E) (σ : Surface) (r : R) (key : Field R E) (restTag : Option Tag)
    (item : Ty R E) (entries : List (String × Readable R E)) : Except Failure (Value R E) :=
  match entries.lookup key.name with
  | none => .error (.here (.keyMissing key.name))
  | some x => do
    let title ← x.readAs key.ty
    let extra := entries.filter fun (name, _) => name ≠ key.name
    if extra.isEmpty || !σ.admits restTag then S.built σ r [title, .null]
    else
      let rest ← readEntries item extra
      S.built σ r [title, .map rest]

/-- Reads a record. -/
def readRecord (S : Schema R E) (σ : Surface) (r : R) (layer : Layer (Readable R E)) :
    Except Failure (Value R E) :=
  let d := S.record r
  match d.form, layer with
  | .spread key _ restTag item, .map entries => S.readSpread σ r key restTag item entries
  | .spread .., _ => .error (.here (.spreadExpected d.name layer.kind))
  | _, _ => do
    available σ d.name (Surface.isProposed d.tag) (Surface.covers σ.version d.tag)
      (d.tag.map (·.text))
    match layer with
    | .map entries => S.readFields σ r d.fields entries
    | _ => throw (.here (.objectExpected d.name layer.kind))

/-- A token as a record of its numbers. -/
def tokenValue (r : R) (t : Token) : Value R E :=
  .record r [.int t.character, .int t.length, .int t.scope]

/-- Reads packed tokens, or null. -/
def readTokens {α : Type} (r : R) (layer : Layer α) : Except TokenFault (Value R E) :=
  match layer with
  | .scalar .null => .ok .null
  | .scalar (.str text) =>
    match Token.unpack text with
    | .ok tokens => .ok (.list (tokens.map (tokenValue r)))
    | .error fault => .error (.packing fault)
  | _ => .error (.notText layer.kind)

/-- Reads packed tokens in a field. -/
def readPacked (r : R) (layer : Layer (Readable R E)) : Except Failure (Value R E) :=
  (readTokens r layer).mapError fun fault => .here (.token fault)

/-- Reads a record that older clients replace by a flag. -/
def readRecordOrFlag (S : Schema R E) (σ : Surface) (r : R) (label : String)
    (layer : Layer (Readable R E)) : Except Failure (Value R E) :=
  match layer with
  | .scalar .null => .ok .null
  | .scalar (.bool false) => .ok .null
  | .scalar (.bool true) => .ok (.record r ((S.record r).fields.map fun _ => .list []))
  | .map _ => S.readRecord σ r layer
  | _ => .error (.here (.flagOrObjectExpected label layer.kind))

/-- Reads a list, item by item. -/
def readList (item : Ty R E) (layer : Layer (Readable R E)) : Except Failure (Value R E) :=
  match layer with
  | .list items =>
    match collect (items.mapIdx fun i x => (x.readAs item).mapError (Failure.under (.index i))) with
    | .ok values => .ok (.list values)
    | .error faults => .error (.faults faults)
  | _ => .error (.here (.listExpected layer.kind))

/-- Whether a type accounts for every key of an object: a record by its fields, hidden ones
included, and any other type always. -/
def coversKeys (S : Schema R E) (layer : Layer (Readable R E)) : Ty R E → Bool
  | .record r =>
    match layer with
    | .map entries => entries.all fun (key, _) => (S.record r).fields.any (·.name = key)
    | _ => true
  | _ => true

/-- The reading that a union takes: that of the first alternative which accounts for every key,
otherwise the first one. An integer that is too large ends the search. -/
def choose (S : Schema R E) (layer : Layer (Readable R E)) (fallback : Option (Value R E)) :
    List (Ty R E × Except Failure (Value R E)) → Except Failure (Option (Value R E))
  | [] => .ok fallback
  | (_, .error .tooLarge) :: _ => .error .tooLarge
  | (_, .error (.faults _)) :: rest => S.choose layer fallback rest
  | (t, .ok v) :: rest =>
    if S.coversKeys layer t then .ok (some v)
    else S.choose layer (fallback.or (some v)) rest

/-- Reads a union, given the readings as its alternatives. Null comes first; a single alternative
besides null decides alone; an enumeration with raw values besides its members is open. -/
def readUnion (S : Schema R E) (σ : Surface) (layer : Layer (Readable R E))
    (readings : List (Ty R E × Except Failure (Value R E))) : Except Failure (Value R E) :=
  let others := readings.filter fun (t, _) => !t.isNull
  if layer.isNull && others.length < readings.length then .ok .null
  else
    match others with
    | [(_, reading)] => reading
    | [(.enumeration e, _), (.unknown, _)] => S.readOpen σ e layer
    | _ => do
      match ← S.choose layer none others with
      | some v => pure v
      | none => throw (.here (.noAlternative (others.map fun (t, _) => S.typeName t)))

mutual

/-- Reads a layer of data as a type. -/
def readAs (S : Schema R E) (σ : Surface) (layer : Layer (Readable R E)) :
    Ty R E → Except Failure (Value R E)
  | .any => .ok (.ofJson layer.json)
  | .null =>
    if layer.isNull then .ok .null else .error (.here (.primitiveExpected .null layer.kind))
  | .str =>
    match layer with
    | .scalar (.str s) => .ok (.str s)
    | _ => .error (.here (.primitiveExpected .str layer.kind))
  | .int =>
    match layer with
    | .scalar (.int n) => .ok (.int n)
    | _ => .error (.here (.primitiveExpected .int layer.kind))
  | .bool =>
    match layer with
    | .scalar (.bool b) => .ok (.bool b)
    | _ => .error (.here (.primitiveExpected .bool layer.kind))
  | .float =>
    match layer with
    | .scalar (.float x) => .ok (.float x)
    | .scalar (.int n) =>
      if (Binary64.ofInt n).isFinite then .ok (.float (Binary64.ofInt n)) else .error .tooLarge
    | _ => .error (.here (.primitiveExpected .float layer.kind))
  | .listOfAny => readList .any layer
  | .unknown =>
    match layer with
    | .scalar (.int n) => .ok (.unknown (.int n))
    | .scalar (.str s) => .ok (.unknown (.str s))
    | _ => .error (.here (.intOrTextExpected layer.kind))
  | .literal text =>
    if layer.json = .str text then .ok (.str text)
    else .error (.here (.literalExpected text layer.json))
  | .enumeration e => S.readEnumeration σ e layer
  | .record r => S.readRecord σ r layer
  | .list item => readList item layer
  | .map item =>
    match layer with
    | .map entries => (readEntries item entries).map .map
    | _ => .error (.here .mapExpected)
  | .union ts => S.readUnion σ layer (readAlternatives S σ layer ts)
  | .packed r => readPacked r layer
  | .recordOrFlag r label => S.readRecordOrFlag σ r label layer

/-- Reads a layer of data as each of some types. -/
def readAlternatives (S : Schema R E) (σ : Surface) (layer : Layer (Readable R E)) :
    List (Ty R E) → List (Ty R E × Except Failure (Value R E))
  | [] => []
  | t :: ts => (t, readAs S σ layer t) :: readAlternatives S σ layer ts

end

mutual

/-- Data with its reading as every type. -/
def readable (S : Schema R E) (σ : Surface) : Json → Readable R E
  | .scalar s => ⟨.scalar s, S.readAs σ (.scalar s)⟩
  | .arr items => ⟨.arr items, S.readAs σ (.list (readableItems S σ items))⟩
  | .obj entries => ⟨.obj entries, S.readAs σ (.map (readableEntries S σ entries))⟩

def readableItems (S : Schema R E) (σ : Surface) : List Json → List (Readable R E)
  | [] => []
  | x :: xs => readable S σ x :: readableItems S σ xs

def readableEntries (S : Schema R E) (σ : Surface) :
    List (String × Json) → List (String × Readable R E)
  | [] => []
  | (key, x) :: entries => (key, readable S σ x) :: readableEntries S σ entries

end

/-- Reads data as a type. -/
def decodeAt (S : Schema R E) (σ : Surface) (t : Ty R E) (x : Json) : Except Failure (Value R E) :=
  (S.readable σ x).readAs t

/-- Reads data as a type, as a version that is asked for or as the default one. The proposed version
is refused unless the proposed parts are enabled. -/
def decode (S : Schema R E) (enabled : Bool) (version? : Option SpecVersion) (t : Ty R E)
    (x : Json) : Except Error (Value R E) :=
  let version := version?.getD (Surface.defaultVersion enabled)
  if version.isProposed && !enabled then
    .error (.refused (.disabled ("LSP " ++ version.value)))
  else
    match S.decodeAt ⟨version, enabled⟩ t x with
    | .ok v => .ok v
    | .error .tooLarge => .error .tooLarge
    | .error (.faults faults) => .error (.mismatch (.type (S.typeName t) faults))

theorem readableItems_eq_map (S : Schema R E) (σ : Surface) (items : List Json) :
    S.readableItems σ items = items.map (S.readable σ) := by
  induction items with
  | nil => rfl
  | cons x xs ih => rw [readableItems, ih, List.map_cons]

theorem readableEntries_eq_map (S : Schema R E) (σ : Surface) (entries : List (String × Json)) :
    S.readableEntries σ entries = entries.map fun (key, x) => (key, S.readable σ x) := by
  induction entries with
  | nil => rfl
  | cons entry entries ih => rw [readableEntries, ih, List.map_cons]

theorem readAlternatives_eq_map (S : Schema R E) (σ : Surface) (layer : Layer (Readable R E))
    (ts : List (Ty R E)) :
    S.readAlternatives σ layer ts = ts.map fun t => (t, S.readAs σ layer t) := by
  induction ts with
  | nil => rfl
  | cons t ts ih => rw [readAlternatives, ih, List.map_cons]

@[simp] theorem json_readable (S : Schema R E) (σ : Surface) (x : Json) :
    (S.readable σ x).json = x := by
  cases x <;> rfl

end Schema

end LspWire
