import LspWire.Encode
import LspWire.Proofs.Declarations

/-!
# Wire forms

`Value.wire` is the wire form of a value by recursion over the value alone, without going through its
writing as every type. The fields of a record are laid out as cells; a record takes the cells that it
writes, and the one record whose other keys are the entries of a map puts its field among these.
-/

namespace LspWire

variable {R E : Type}

/-- A field of a record with its value and the wire form of the value. -/
structure Cell (R E : Type) where
  field : Field R E
  value : Value R E
  data : Json

namespace Cell

/-- Tokens that stand in a field, as one text. -/
def packedData (v : Value R E) : Json :=
  if v.isNull then .null else .str (v.packed?.getD "")

/-- What a field is written as. -/
def json (c : Cell R E) : Json :=
  match c.field.ty with
  | .packed _ => packedData c.value
  | _ => c.data

theorem json_of_not_codec {c : Cell R E} (h : c.field.ty.isCodec = false) : c.json = c.data := by
  unfold json
  split
  · rename_i hty
    rw [hty] at h
    cases h
  · rfl

/-- The entry of a field. -/
def entry (c : Cell R E) : String × Json := (c.field.name, c.json)

/-- Whether a field is left out while it is null. -/
def isUnset (c : Cell R E) : Bool := c.field.isOmittable && c.value.isNull

/-- The cells of a record. -/
def ofFields (fields : List (Field R E)) (values : List (Value R E)) (data : List Json) :
    List (Cell R E) :=
  (fields.zip (values.zip data)).map fun p => ⟨p.1, p.2.1, p.2.2⟩

end Cell

/-- The cells that a record writes, in their order: first those that always appear. A record of an
outcome writes its error or its result. -/
def Form.written (form : Form R E) (cells : List (Cell R E)) : List (Cell R E) :=
  match form with
  | .plain _ =>
    (cells.filter fun c => !c.field.isOmittable) ++
      cells.filter fun c => c.field.isOmittable && !c.value.isNull
  | .spread .. => cells
  | .outcome _ result error =>
    let failed := cells.any fun c => c.field.name = error.name && !c.value.isNull
    cells.filter fun c => c.field.name ≠ if failed then result.name else error.name

/-- The entries that the map of a record adds to its object. -/
def spreadData (v : Value R E) (x : Json) : List (String × Json) :=
  match x with
  | .obj entries => if v.isNothing then [] else entries
  | _ => []

namespace Schema

/-- The entries of a record with some cells. -/
def wireRecord (S : Schema R E) (r : R) (cells : List (Cell R E)) : List (String × Json) :=
  match (S.record r).form, cells with
  | .spread key _ _ _, [title, rest] =>
    Json.put key.name title.data (spreadData rest.value rest.data)
  | form, _ => (form.written cells).map Cell.entry

theorem wireRecord_of_not_spread {S : Schema R E} {r : R} (h : (S.record r).isSpread = false)
    (cells : List (Cell R E)) :
    S.wireRecord r cells = ((S.record r).form.written cells).map Cell.entry := by
  rw [RecordDecl.isSpread] at h
  unfold wireRecord
  split
  · rename_i hform
    rw [hform] at h
    cases h
  · rfl

end Schema

namespace Value

mutual

/-- The wire form of a value. -/
def wire (S : Schema R E) : Value R E → Json
  | .scalar s => .scalar s
  | .list items => .arr (wireItems S items)
  | .map entries => .obj (wireEntries S entries)
  | .member _ m => .scalar m.raw
  | .flags _ bits => .int bits
  | .unknown raw => .scalar raw
  | .record r values =>
    .obj (S.wireRecord r (Cell.ofFields (S.record r).fields values (wireItems S values)))

def wireItems (S : Schema R E) : List (Value R E) → List Json
  | [] => []
  | v :: vs => wire S v :: wireItems S vs

def wireEntries (S : Schema R E) : List (String × Value R E) → List (String × Json)
  | [] => []
  | (key, v) :: entries => (key, wire S v) :: wireEntries S entries

end

variable {S : Schema R E}

theorem wireItems_eq_map (items : List (Value R E)) : wireItems S items = items.map (wire S) := by
  induction items with
  | nil => rfl
  | cons v vs ih => rw [wireItems, ih, List.map_cons]

theorem wireEntries_eq_map (entries : List (String × Value R E)) :
    wireEntries S entries = entries.map fun entry => (entry.1, wire S entry.2) := by
  induction entries with
  | nil => rfl
  | cons entry entries ih => rw [wireEntries, ih, List.map_cons]

@[simp] theorem wire_scalar (s : Scalar) : wire S (.scalar s) = .scalar s :=
  rfl

@[simp] theorem wire_list (items : List (Value R E)) :
    wire S (.list items) = .arr (items.map (wire S)) :=
  congrArg Json.arr (wireItems_eq_map items)

@[simp] theorem wire_map (entries : List (String × Value R E)) :
    wire S (.map entries) = .obj (entries.map fun entry => (entry.1, wire S entry.2)) :=
  congrArg Json.obj (wireEntries_eq_map entries)

@[simp] theorem wire_member (e : E) (m : Member) : wire S (.member e m) = .scalar m.raw :=
  rfl

@[simp] theorem wire_unknown (raw : Scalar) : wire S (.unknown raw) = .scalar raw :=
  rfl

theorem isNull_iff {v : Value R E} : v.isNull = true ↔ v = .null := by
  cases v with
  | scalar s => cases s <;> simp [isNull]
  | _ => simp [isNull]

/-- The cells of a record value. -/
def cells (S : Schema R E) (r : R) (values : List (Value R E)) : List (Cell R E) :=
  ((S.record r).fields.zip values).map fun p => ⟨p.1, p.2, wire S p.2⟩

theorem wire_record (r : R) (values : List (Value R E)) :
    wire S (.record r values) = .obj (S.wireRecord r (cells S r values)) := by
  rw [wire, wireItems_eq_map, Cell.ofFields, cells, ← List.map_prod_left_eq_zip,
    List.zip_map_right, List.map_map]
  rfl

theorem wire_ofJson (x : Json) : wire S (.ofJson x) = x := by
  induction x using Json.induction with
  | scalar s => rw [Value.ofJson, wire_scalar]
  | arr items ih =>
    rw [Value.ofJson, ofItems_eq_map, wire_list, List.map_map]
    exact congrArg Json.arr ((List.map_congr_left ih).trans (List.map_id' items))
  | obj entries ih =>
    rw [Value.ofJson, ofEntries_eq_map, wire_map, List.map_map]
    refine congrArg Json.obj ((List.map_congr_left fun entry hentry => ?_).trans
      (List.map_id' entries))
    rw [Function.comp_apply, ih entry hentry]

end Value

end LspWire
