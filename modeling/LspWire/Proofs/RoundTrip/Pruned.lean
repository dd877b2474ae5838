import LspWire.Proofs.Nulls
import LspWire.Proofs.RoundTrip.Alike

/-!
# What encoding leaves of decoded data

Data that has been decoded and is encoded again comes back with a few edits, made along the records
that decoding has chosen. Keys without a field, fields outside the surface and nulls where null is the
default are removed; absent fields with another default are added. A response keeps its error or its
result, an action all its keys or its title. Packed tokens get their canonical text, and a flag in
place of a record becomes the record or goes. `pruned` makes these edits and no others.

`pruned` goes over the data, and over the fields that a record declares: the value that the data has
been decoded as only says which records have been chosen. So what the value may lack is not lost, and
arrays keep their length and order, other objects their keys.
-/

namespace LspWire.Protocol

/-! ## Fields -/

/-- The canonical text of the octets that a text stands for. -/
def canonicalText (text : String) : String :=
  match Base64.decode text.toList with
  | .ok octets => String.ofList (Base64.encode octets)
  | .error _ => text

/-- The data that a field has by default, unless it is null. -/
def defaultData? : Default RecordName → Option Json
  | .text s => some (.str s)
  | .blank _ => some (.obj [])
  | .required | .null => none

/-- Whether the data of a field is removed: null where null is the default, and false in place of a
record. -/
def isRemoved (f : Field RecordName EnumName) (d : Json) : Bool :=
  match f.ty, d with
  | .recordOrFlag .., .scalar (.bool false) => true
  | _, .scalar .null => f.isOmittable
  | _, _ => false

/-- What data becomes in a field of a type, where `edit` makes the edits within the data. -/
def editedData (t : DataType) (edit : Json → Json) (d : Json) : Json :=
  match t, d with
  | .packed _, .scalar (.str text) => .str (canonicalText text)
  | .recordOrFlag .., .scalar (.bool true) => .obj [("valueSet", .arr [])]
  | _, d => edit d

/-- What is left under the name of a field. A field outside the surface counts as absent. -/
def leftOf? (σ : Surface) (entries : List (String × Json)) (f : Field RecordName EnumName)
    (edit : Json → Json) : Option Json :=
  match f.shown? σ entries with
  | some d => if isRemoved f d then none else some (editedData f.ty edit d)
  | none => defaultData? f.default

@[simp] theorem isRemoved_null (f : Field RecordName EnumName) :
    isRemoved f .null = f.isOmittable := by
  unfold isRemoved
  cases f.ty <;> rfl

theorem isRemoved_of_not_codec {f : Field RecordName EnumName} {d : Json}
    (h : f.ty.isCodec = false) (hd : d ≠ .null) : isRemoved f d = false := by
  unfold isRemoved
  split
  · rename_i hty
    rw [hty] at h
    cases h
  · exact absurd rfl hd
  · rfl

@[simp] theorem editedData_null (t : DataType) (edit : Json → Json) :
    editedData t edit .null = edit .null := by
  cases t <;> rfl

theorem editedData_of_not_codec {t : DataType} (h : t.isCodec = false) (edit : Json → Json)
    (d : Json) : editedData t edit d = edit d := by
  cases t <;> first | rfl | cases h

/-! ## Parts -/

/-- Parts with the edits within them. A part that there is no edit for stays as it is. -/
def withEdits {α : Type} : List α → List (Json → Json) → List (α × (Json → Json))
  | [], _ => []
  | part :: parts, edits => (part, edits.headD id) :: withEdits parts edits.tail

/-- No part is left out, whatever edits there are. -/
theorem map_fst_withEdits {α : Type} (parts : List α) (edits : List (Json → Json)) :
    (withEdits parts edits).map Prod.fst = parts := by
  induction parts generalizing edits with
  | nil => rfl
  | cons part parts ih => rw [withEdits, List.map_cons, ih]

theorem withEdits_eq_zip {α : Type} {parts : List α} {edits : List (Json → Json)}
    (h : edits.length = parts.length) : withEdits parts edits = parts.zip edits := by
  induction parts generalizing edits with
  | nil => rfl
  | cons part parts ih =>
    cases edits with
    | nil => cases h
    | cons edit edits =>
      rw [withEdits, List.zip_cons_cons, List.tail_cons, ih (Nat.succ.inj h)]
      rfl

/-! ## Records -/

/-- What is left of the fields of a record. -/
def prunedFields (σ : Surface) (fields : List (Field RecordName EnumName))
    (edits : List (Json → Json)) (entries : List (String × Json)) : List (String × Json) :=
  (withEdits fields edits).filterMap fun p =>
    (leftOf? σ entries p.1 p.2).map fun d => (p.1.name, d)

/-- What is left of the entries of an object that has been decoded as a record. -/
def prunedRecord (σ : Surface) (r : RecordName) (edits : List (Json → Json))
    (entries : List (String × Json)) : List (String × Json) :=
  let left := prunedFields σ (schema.record r).fields edits entries
  match (schema.record r).form with
  | .plain _ => left
  | .spread key _ restTag _ =>
    if σ.admits restTag then entries else entries.filter fun entry => entry.1 = key.name
  | .outcome _ result error =>
    let others := left.filter fun entry => entry.1 ≠ result.name
    if (left.lookup error.name).isSome then others
    else others ++ [(result.name, (entries.lookup result.name).getD .null)]

/-! ## Values -/

mutual

/-- What is left of data that has been decoded as a value. -/
def pruned (σ : Surface) : Datum → Json → Json
  | .list values, .arr items =>
    .arr ((withEdits items (prunedItems σ values)).map fun p => p.2 p.1)
  | .map values, .obj entries =>
    .obj ((withEdits entries (prunedEntries σ values)).map fun p => (p.1.1, p.2 p.1.2))
  | .record r values, .obj entries => .obj (prunedRecord σ r (prunedItems σ values) entries)
  | _, d => d

def prunedItems (σ : Surface) : List Datum → List (Json → Json)
  | [] => []
  | v :: vs => pruned σ v :: prunedItems σ vs

def prunedEntries (σ : Surface) : List (String × Datum) → List (Json → Json)
  | [] => []
  | (_, v) :: entries => pruned σ v :: prunedEntries σ entries

end

variable {σ : Surface}

theorem prunedItems_eq_map (values : List Datum) : prunedItems σ values = values.map (pruned σ) := by
  induction values with
  | nil => rfl
  | cons v vs ih => rw [prunedItems, ih, List.map_cons]

theorem prunedEntries_eq_map (values : List (String × Datum)) :
    prunedEntries σ values = values.map fun entry => pruned σ entry.2 := by
  induction values with
  | nil => rfl
  | cons entry values ih => rw [prunedEntries, ih, List.map_cons]

@[simp] theorem pruned_scalar (v : Datum) (s : Scalar) : pruned σ v (.scalar s) = .scalar s := by
  cases v <;> rfl

/-- An array keeps its length and order. -/
theorem pruned_list_length (values : List Datum) (items : List Json) :
    ∃ items', pruned σ (.list values) (.arr items) = .arr items' ∧ items'.length = items.length := by
  refine ⟨_, rfl, ?_⟩
  rw [List.length_map, ← List.length_map Prod.fst, map_fst_withEdits]

/-- An object that is no record keeps its keys and their order. -/
theorem pruned_map_keys (values : List (String × Datum)) (entries : List (String × Json)) :
    ∃ entries', pruned σ (.map values) (.obj entries) = .obj entries' ∧
      entries'.map Prod.fst = entries.map Prod.fst := by
  refine ⟨_, rfl, ?_⟩
  rw [List.map_map, ← congrArg (List.map Prod.fst) (map_fst_withEdits entries _), List.map_map]
  rfl

theorem pruned_list {values : List Datum} {items : List Json} (h : values.length = items.length) :
    pruned σ (.list values) (.arr items) =
      .arr (List.zipWith (fun v d => pruned σ v d) values items) := by
  rw [pruned, prunedItems_eq_map, withEdits_eq_zip (by rwa [List.length_map]), List.zip_map_right,
    List.map_map, List.map_zip_eq_zipWith, List.zipWith_comm]
  rfl

theorem pruned_map {values : List (String × Datum)} {entries : List (String × Json)}
    (h : values.length = entries.length) :
    pruned σ (.map values) (.obj entries) =
      .obj (List.zipWith (fun v entry => (entry.1, pruned σ v.2 entry.2)) values entries) := by
  rw [pruned, prunedEntries_eq_map, withEdits_eq_zip (by rwa [List.length_map]),
    List.zip_map_right, List.map_map, List.map_zip_eq_zipWith, List.zipWith_comm]
  rfl

theorem pruned_record (r : RecordName) (values : List Datum) (entries : List (String × Json)) :
    pruned σ (.record r values) (.obj entries) =
      .obj (prunedRecord σ r (values.map (pruned σ)) entries) := by
  rw [pruned, prunedItems_eq_map]

end LspWire.Protocol
