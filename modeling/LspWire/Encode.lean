import LspWire.Token.Packing
import LspWire.Value.Part

/-!
# Encoding

`Schema.encodeAs` turns a value into structured data as a type asks for, and `Schema.encode` by what
the value itself is. A record type takes the fields that it declares, each as the type of the field,
so a value that has more fields than the type is written without them. Fields that are null unless
they are set are left out while they are null; they come after the fields that always appear.
Encoding does not look at the surface.

The recursion goes over the value, as decoding goes over the data. A `Writable` is a value together
with its writing as every type; one layer of a value whose parts are writable is itself written by
recursion over the type (`Schema.writeAs`), and `Schema.writable` puts the layers together.
-/

namespace LspWire

variable {R E : Type}

namespace Value

/-- The token that a record of three numbers stands for. -/
def toToken? : Value R E → Option Token
  | .record _ [character, length, scope] => do
    let character ← character.toInt?
    let length ← length.toInt?
    let scope ← scope.toInt?
    pure ⟨character.toNat, length.toNat, scope.toNat⟩
  | _ => none

/-- The text of packed tokens, for a list of records that stand for tokens. -/
def packed? : Value R E → Option String
  | .list items => (items.mapM toToken?).map Token.pack
  | _ => none

/-- Whether a value counts as nothing: null, false, zero, or a text, list, map or sum of flags that
is empty. -/
def isNothing : Value R E → Bool
  | .null => true
  | .bool b => !b
  | .int n => n = 0
  | .float x => x.code = 0
  | .str s => s.isEmpty
  | .list items => items.isEmpty
  | .map entries => entries.isEmpty
  | .flags _ bits => bits = 0
  | .member .. | .unknown _ | .record .. => false

end Value

/-- Why a value cannot be written as a type. -/
inductive WriteFault where
  /-- A part that the value does not have. -/
  | noPart (name : String)
  /-- No items or entries to go through. -/
  | noItems
deriving DecidableEq, Repr

/-- A value with its writing as every type. -/
structure Writable (R E : Type) where
  value : Value R E
  writeAs : Ty R E → Except WriteFault Json

/-- One layer of a value with parts from `α`. -/
inductive Shape (R α : Type) where
  | scalar (s : Scalar)
  | list (items : List α)
  | map (entries : List (String × α))
  /-- A value that stands for a raw one: a member, a sum of flags, or no member at all. -/
  | code (raw : Scalar) (parts : List (String × α))
  | record (r : R) (parts : List (String × α))

namespace Shape

variable {α : Type}

def isNull : Shape R α → Bool
  | .scalar .null => true
  | _ => false

/-- The parts by name. -/
def parts : Shape R α → List (String × α)
  | .code _ parts | .record _ parts => parts
  | .scalar _ | .list _ | .map _ => []

/-- The part with a name. -/
def part (x : Shape R α) (name : String) : Except WriteFault α :=
  match x.parts.lookup name with
  | some part => .ok part
  | none => .error (.noPart name)

end Shape

/-- Writes items, each as a type. -/
def writeItems (item : Ty R E) (items : List (Writable R E)) : Except WriteFault Json :=
  (items.mapM fun (x : Writable R E) => x.writeAs item).map Json.arr

/-- Writes the entries of a map, each as a type. -/
def writeEntries (item : Ty R E) (entries : List (String × Writable R E)) :
    Except WriteFault Json :=
  (entries.mapM fun ((key, x) : String × Writable R E) => (x.writeAs item).map (key, ·)).map
    Json.obj

/-- Writes a part by what it is. -/
def writePart (x : Shape R (Writable R E)) (name : String) : Except WriteFault (String × Json) := do
  let part ← x.part name
  (part.writeAs .any).map (name, ·)

/-- Writes a part as the type of a field. -/
def writeField (x : Shape R (Writable R E)) (f : Field R E) :
    Except WriteFault (String × Json) := do
  let part ← x.part f.name
  (part.writeAs f.ty).map (f.name, ·)

/-- Writes a part as the type of a field, unless it is null. -/
def writeSetField (x : Shape R (Writable R E)) (f : Field R E) :
    Except WriteFault (Option (String × Json)) := do
  let part ← x.part f.name
  if part.value.isNull then pure none else (part.writeAs f.ty).map fun y => some (f.name, y)

/-- The entries of an object of fields: those that always appear, then those that are set. -/
def writeFields (x : Shape R (Writable R E)) (fields : List (Field R E)) :
    Except WriteFault (List (String × Json)) := do
  let always ← (fields.filter fun f => !f.isOmittable).mapM (writeField x)
  let chosen ← (fields.filter fun f => f.isOmittable).mapM (writeSetField x)
  pure (always ++ chosen.filterMap id)

/-- The entries that a part adds to the object around it. -/
def spreadEntries (part : Writable R E) : Except WriteFault (List (String × Json)) :=
  if part.value.isNothing then .ok []
  else
    match part.value with
    | .map _ => (part.writeAs .any).map fun
      | .obj entries => entries
      | _ => []
    | _ => .error .noItems

namespace Schema

/-- Writes the parts of a value as a record type. -/
def writeRecord (S : Schema R E) (r : R) (x : Shape R (Writable R E)) : Except WriteFault Json :=
  match (S.record r).form with
  | .plain fields => (writeFields x fields).map .obj
  | .spread key rest _ _ => do
    let rest ← x.part rest
    let entries ← spreadEntries rest
    let (name, data) ← writePart x key.name
    pure (.obj (Json.put name data entries))
  | .outcome common result error => do
    let shared ← common.mapM fun f => writePart x f.name
    let failure ← x.part error.name
    let last ← writePart x (if failure.value.isNull then result.name else error.name)
    pure (.obj (shared ++ [last]))

/-- Writes a layer of a value by what it is. -/
def writePlainly (S : Schema R E) (x : Shape R (Writable R E)) : Except WriteFault Json :=
  match x with
  | .scalar s => .ok (.scalar s)
  | .list items => writeItems .any items
  | .map entries => writeEntries .any entries
  | .code raw _ => .ok (.scalar raw)
  | .record r _ => S.writeRecord r x

mutual

/-- Writes a layer of a value as a type. Where items are asked for, the keys of a map and the
characters of a text count as such. A union of one type with null writes as this type; every other
union leaves it to the value. -/
def writeAs (S : Schema R E) (x : Shape R (Writable R E)) : Ty R E → Except WriteFault Json
  | .any | .null | .str | .int | .bool | .float | .literal _ | .recordOrFlag .. => S.writePlainly x
  | .listOfAny =>
    match x with
    | .list items => writeItems .any items
    | .map entries => .ok (.arr (entries.map fun (key, _) => .str key))
    | .scalar (.str s) => .ok (.arr (s.toList.map fun c => .str (String.singleton c)))
    | _ => .error .noItems
  | .list item =>
    match x with
    | .list items => writeItems item items
    | .map entries =>
      (entries.mapM fun ((key, _) : String × Writable R E) =>
        writeAs S (.scalar (.str key)) item).map Json.arr
    | .scalar (.str s) =>
      (s.toList.mapM fun c => writeAs S (.scalar (.str (String.singleton c))) item).map Json.arr
    | _ => .error .noItems
  | .map item =>
    match x with
    | .map entries => writeEntries item entries
    | .list [] | .scalar (.str "") =>
      if item.isPlain then .ok (.obj []) else .error (.noPart "items")
    | _ => .error (if item.isPlain then .noItems else .noPart "items")
  | .enumeration _ | .unknown => (writePart x "value").map Prod.snd
  | .record r => S.writeRecord r x
  | .union ts => writeUnion S x ts
  | .packed _ =>
    match x with
    | .scalar .null => .ok .null
    | .list items =>
      match (Value.list (items.map (·.value))).packed? with
      | some text => .ok (.str text)
      | none => .error (.noPart "character")
    | _ => .error .noItems

/-- Writes a layer of a value as a union of some types. -/
def writeUnion (S : Schema R E) (x : Shape R (Writable R E)) :
    List (Ty R E) → Except WriteFault Json
  | [t, .null] => if x.isNull then .ok .null else writeAs S x t
  | _ => S.writePlainly x

end

/-- Scalars by name as writable parts. -/
def scalarParts (S : Schema R E) (parts : List (String × Scalar)) : List (String × Writable R E) :=
  parts.map fun (name, s) => (name, ⟨.scalar s, S.writeAs (.scalar s)⟩)

mutual

/-- A value with its writing as every type. -/
def writable (S : Schema R E) : Value R E → Writable R E
  | .scalar s => ⟨.scalar s, S.writeAs (.scalar s)⟩
  | .list items => ⟨.list items, S.writeAs (.list (writableItems S items))⟩
  | .map entries => ⟨.map entries, S.writeAs (.map (writableEntries S entries))⟩
  | .member e m => ⟨.member e m, S.writeAs (.code m.raw (S.scalarParts m.parts))⟩
  | .flags e bits =>
    ⟨.flags e bits,
      S.writeAs (.code (.int bits) (S.scalarParts ((S.enumeration e).flagsParts bits)))⟩
  | .unknown raw => ⟨.unknown raw, S.writeAs (.code raw (S.scalarParts raw.unknownParts))⟩
  | .record r values =>
    ⟨.record r values, S.writeAs (.record r (S.namedFields r (writableItems S values)))⟩

def writableItems (S : Schema R E) : List (Value R E) → List (Writable R E)
  | [] => []
  | v :: vs => writable S v :: writableItems S vs

def writableEntries (S : Schema R E) :
    List (String × Value R E) → List (String × Writable R E)
  | [] => []
  | (key, v) :: entries => (key, writable S v) :: writableEntries S entries

end

/-- A value as structured data, encoded as a type. -/
def encodeAs (S : Schema R E) (t : Ty R E) (v : Value R E) : Except WriteFault Json :=
  (S.writable v).writeAs t

/-- A value as structured data. -/
def encode (S : Schema R E) (v : Value R E) : Except WriteFault Json := S.encodeAs .any v

theorem writableItems_eq_map (S : Schema R E) (items : List (Value R E)) :
    S.writableItems items = items.map S.writable := by
  induction items with
  | nil => rfl
  | cons v vs ih => rw [writableItems, ih, List.map_cons]

theorem writableEntries_eq_map (S : Schema R E) (entries : List (String × Value R E)) :
    S.writableEntries entries = entries.map fun (key, v) => (key, S.writable v) := by
  induction entries with
  | nil => rfl
  | cons entry entries ih => rw [writableEntries, ih, List.map_cons]

@[simp] theorem value_writable (S : Schema R E) (v : Value R E) : (S.writable v).value = v := by
  cases v <;> rfl

/-- Free-form values are encoded as the data they came from. -/
theorem encode_ofJson (S : Schema R E) (x : Json) : S.encode (.ofJson x) = .ok x :=
  go x
where
  go : (x : Json) → (S.writable (.ofJson x)).writeAs .any = .ok x
    | .scalar _ => rfl
    | .arr items => by
      rw [Value.ofJson]
      show writeItems .any (S.writableItems (Value.ofItems items)) = _
      rw [writeItems, goItems items]
      rfl
    | .obj entries => by
      rw [Value.ofJson]
      show writeEntries .any (S.writableEntries (Value.ofEntries entries)) = _
      rw [writeEntries, goEntries entries]
      rfl
  goItems : (items : List Json) →
      (S.writableItems (Value.ofItems items)).mapM (fun (x : Writable R E) => x.writeAs .any) =
        .ok items
    | [] => rfl
    | x :: xs => by
      rw [Value.ofItems, writableItems, List.mapM_cons, go x, goItems xs]
      rfl
  goEntries : (entries : List (String × Json)) →
      (S.writableEntries (Value.ofEntries entries)).mapM
        (fun ((key, x) : String × Writable R E) => (x.writeAs .any).map (key, ·)) = .ok entries
    | [] => rfl
    | (key, x) :: entries => by
      rw [Value.ofEntries, writableEntries, List.mapM_cons]
      simp only [go x, goEntries entries]
      rfl

end Schema

end LspWire
