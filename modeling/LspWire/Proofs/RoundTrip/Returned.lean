import LspWire.Proofs.RoundTrip.Alike

/-!
# What decoded values come back as

A decoded value that is encoded and decoded again comes back as itself, but for two kinds of places:
a response loses its result beside an error, and a registration of notebook synchronization without
an identifier, held by the capabilities of a server, becomes mere options. `returned` makes these two
changes everywhere in a value.
-/

namespace LspWire.Protocol

/-- What the synchronization of notebooks comes back as: a registration without an identifier is
written like options. -/
def returnedSync : Datum → Datum
  | .record .notebookDocumentSyncRegistrationOptions [selector, save, .null] =>
    .record .notebookDocumentSyncOptions [selector, save]
  | v => v

/-- What a field comes back as, given what the parts of its value come back as. -/
def returnedField (r : RecordName) (f : Field RecordName EnumName) (v : Datum) : Datum :=
  if isNotebookSync r f then returnedSync v else v

/-- What the fields of a record come back as. A response has no result beside an error. -/
def returnedFields (r : RecordName) (values : List Datum) : List Datum :=
  match r, values with
  | .responseMessage, [jsonrpc, id, result, error] =>
    [jsonrpc, id, if error.isNull then result else .null, error]
  | r, values => ((schema.record r).fields.zip values).map fun p => returnedField r p.1 p.2

mutual

/-- What a decoded value comes back as. -/
def returned : Datum → Datum
  | .list items => .list (returnedItems items)
  | .map entries => .map (returnedEntries entries)
  | .record r values => .record r (returnedFields r (returnedItems values))
  | v => v

def returnedItems : List Datum → List Datum
  | [] => []
  | v :: vs => returned v :: returnedItems vs

def returnedEntries : List (String × Datum) → List (String × Datum)
  | [] => []
  | (key, v) :: entries => (key, returned v) :: returnedEntries entries

end

theorem returnedItems_eq_map (items : List Datum) : returnedItems items = items.map returned := by
  induction items with
  | nil => rfl
  | cons v vs ih => rw [returnedItems, ih, List.map_cons]

theorem returnedEntries_eq_map (entries : List (String × Datum)) :
    returnedEntries entries = entries.map fun entry => (entry.1, returned entry.2) := by
  induction entries with
  | nil => rfl
  | cons entry entries ih => rw [returnedEntries, ih, List.map_cons]

@[simp] theorem returned_scalar (s : Scalar) : returned (.scalar s) = .scalar s :=
  rfl

@[simp] theorem returned_list (items : List Datum) :
    returned (.list items) = .list (items.map returned) :=
  congrArg Value.list (returnedItems_eq_map items)

@[simp] theorem returned_map (entries : List (String × Datum)) :
    returned (.map entries) = .map (entries.map fun entry => (entry.1, returned entry.2)) :=
  congrArg Value.map (returnedEntries_eq_map entries)

theorem returned_record (r : RecordName) (values : List Datum) :
    returned (.record r values) = .record r (returnedFields r (values.map returned)) :=
  congrArg (fun vs => Value.record r (returnedFields r vs)) (returnedItems_eq_map values)

variable {σ : Surface} {t : DataType} {v : Datum}

theorem isNull_returned (v : Datum) : (returned v).isNull = v.isNull := by
  cases v <;> rfl

/-- Values that are written as scalars come back as themselves. -/
theorem returned_of_wire_scalar {s : Scalar} (h : v.wire schema = .scalar s) : returned v = v := by
  cases v with
  | scalar s => exact returned_scalar s
  | list items => simp at h
  | map entries => simp at h
  | record r values => simp [Value.wire_record] at h
  | member e m => rfl
  | flags e bits => rfl
  | unknown raw => rfl

theorem returned_ofJson (x : Json) : returned (.ofJson x) = .ofJson x := by
  induction x using Json.induction with
  | scalar s => exact returned_scalar s
  | arr items ih =>
    rw [Value.ofJson, Value.ofItems_eq_map, returned_list, List.map_map]
    exact congrArg Value.list (List.map_congr_left ih)
  | obj entries ih =>
    rw [Value.ofJson, Value.ofEntries_eq_map, returned_map, List.map_map]
    refine congrArg Value.map (List.map_congr_left fun entry hentry => ?_)
    exact congrArg (Prod.mk entry.1) (ih entry hentry)

@[simp] theorem returnedField_scalar (r : RecordName) (f : Field RecordName EnumName) (s : Scalar) :
    returnedField r f (.scalar s) = .scalar s := by
  rw [returnedField, returnedSync, ite_self]
  nofun

theorem returnedField_of_ne {r : RecordName} {f : Field RecordName EnumName}
    (h : isNotebookSync r f = false) (v : Datum) : returnedField r f v = v := by
  rw [returnedField, h, if_neg Bool.false_ne_true]

theorem returnedFields_of_ne {r : RecordName} (hr : r ≠ .responseMessage) (values : List Datum) :
    returnedFields r (values.map returned) =
      ((schema.record r).fields.zip values).map fun p => returnedField r p.1 (returned p.2) := by
  rw [returnedFields, List.zip_map_right, List.map_map]
  · rfl
  · exact fun _ _ _ _ hr' => absurd hr' hr

theorem returned_messageActionItem (title rest : Datum) :
    returned (.record .messageActionItem [title, rest]) =
      .record .messageActionItem [returned title, returned rest] := by
  have hne : RecordName.messageActionItem ≠ .responseMessage := nofun
  rw [returned_record, returnedFields_of_ne hne]
  rfl

/-- A response comes back with its error or with its result. -/
theorem returned_responseMessage (jsonrpc id result error : Datum) :
    returned (.record .responseMessage [jsonrpc, id, result, error]) =
      .record .responseMessage [returned jsonrpc, returned id,
        if error.isNull then returned result else .null, returned error] := by
  rw [returned_record, ← isNull_returned error]
  rfl

end LspWire.Protocol
