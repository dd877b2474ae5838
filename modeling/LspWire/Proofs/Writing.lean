import LspWire.Proofs.Typing
import LspWire.Proofs.Wire

/-!
# Well-typed values are written

Encoding succeeds for every value of a type and gives its wire form, both by what the value is and
as the type asks for. Only packed tokens are written differently as their type.
-/

namespace LspWire

variable {R E : Type}

theorem mapM_eq_ok {ε α β : Type} {f : α → Except ε β} {g : α → β} {xs : List α}
    (h : ∀ x ∈ xs, f x = .ok (g x)) : xs.mapM f = .ok (xs.map g) := by
  induction xs with
  | nil => rfl
  | cons x xs ih =>
    rw [List.forall_mem_cons] at h
    rw [List.mapM_cons, h.1, ih h.2]
    rfl

namespace Schema

variable {S : Schema R E}

/-- The uppermost layer of a value, with the writings of the parts. -/
def shape (S : Schema R E) : Value R E → Shape R (Writable R E)
  | .scalar s => .scalar s
  | .list items => .list (items.map S.writable)
  | .map entries => .map (entries.map fun entry => (entry.1, S.writable entry.2))
  | .member _ m => .code m.raw (S.scalarParts m.parts)
  | .flags e bits => .code (.int bits) (S.scalarParts ((S.enumeration e).flagsParts bits))
  | .unknown raw => .code raw (S.scalarParts raw.unknownParts)
  | .record r values => .record r (S.namedFields r (values.map S.writable))

theorem encodeAs_eq_writeAs (t : Ty R E) (v : Value R E) :
    S.encodeAs t v = S.writeAs (S.shape v) t := by
  cases v with
  | list items => rw [shape, ← writableItems_eq_map]; rfl
  | map entries => rw [shape, ← writableEntries_eq_map]; rfl
  | record r values => rw [shape, ← writableItems_eq_map]; rfl
  | _ => rfl

theorem encode_eq_writePlainly (v : Value R E) : S.encode v = S.writePlainly (S.shape v) := by
  rw [encode, encodeAs_eq_writeAs, writeAs]

theorem isNull_shape (v : Value R E) : (S.shape v).isNull = v.isNull := by
  cases v with
  | scalar s => cases s <;> rfl
  | _ => rfl

/-! ## Lists and maps -/

theorem writeItems_eq_ok {item : Ty R E} {items : List (Value R E)}
    (h : ∀ v ∈ items, S.encodeAs item v = .ok (v.wire S)) :
    writeItems item (items.map S.writable) = .ok ((Value.list items).wire S) := by
  rw [writeItems, List.mapM_map, Value.wire_list]
  exact congrArg (Except.map Json.arr) (mapM_eq_ok h)

theorem writeEntries_eq_ok {item : Ty R E} {entries : List (String × Value R E)}
    (h : ∀ entry ∈ entries, S.encodeAs item entry.2 = .ok (entry.2.wire S)) :
    writeEntries item (entries.map fun entry => (entry.1, S.writable entry.2)) =
      .ok ((Value.map entries).wire S) := by
  have hentry : ∀ entry ∈ entries,
      Except.map (entry.1, ·) (S.encodeAs item entry.2) = .ok (entry.1, entry.2.wire S) :=
    fun entry hentry => by
      rw [h entry hentry]
      rfl
  rw [writeEntries, List.mapM_map, Value.wire_map]
  exact congrArg (Except.map Json.obj) (mapM_eq_ok hentry)

/-! ## Records -/

theorem cells_eq_map (r : R) (values : List (Value R E)) :
    Value.cells S r values =
      ((S.record r).fields.zip values).map fun p => ⟨p.1, p.2, p.2.wire S⟩ :=
  rfl

theorem map_field_cells {r : R} {values : List (Value R E)}
    (hlength : values.length = (S.record r).fields.length) :
    (Value.cells S r values).map Cell.field = (S.record r).fields := by
  rw [cells_eq_map, List.map_map]
  exact List.map_fst_zip (Nat.le_of_eq hlength.symm)

theorem part_shape {r : R} {values : List (Value R E)}
    (hn : ((S.record r).fields.map (·.name)).Nodup)
    (hlength : values.length = (S.record r).fields.length) {c : Cell R E}
    (hc : c ∈ Value.cells S r values) :
    (S.shape (.record r values)).part c.field.name = .ok (S.writable c.value) := by
  obtain ⟨p, hp, rfl⟩ := List.mem_map.1 hc
  have hparts : S.namedFields r (values.map S.writable) =
      ((S.record r).fields.zip values).map fun p => (p.1.name, S.writable p.2) := by
    rw [namedFields, List.zip_map]
    rfl
  have hkeys : (S.namedFields r (values.map S.writable)).map Prod.fst =
      (S.record r).fields.map (·.name) := by
    rw [namedFields, List.map_fst_zip (by simp [hlength])]
  have hlookup : (S.namedFields r (values.map S.writable)).lookup p.1.name =
      some (S.writable p.2) := by
    refine Entries.lookup_of_mem (hkeys ▸ hn) ?_
    rw [hparts]
    exact List.mem_map_of_mem hp
  rw [shape, Shape.part, Shape.parts, hlookup]

variable {x : Shape R (Writable R E)} {cs : List (Cell R E)}

theorem writePart_eq_ok {c : Cell R E} (hpart : x.part c.field.name = .ok (S.writable c.value))
    (hdata : S.encode c.value = .ok c.data) :
    writePart x c.field.name = .ok (c.field.name, c.data) := by
  rw [writePart, hpart]
  change Except.map _ (S.encode c.value) = _
  rw [hdata]
  rfl

theorem writeField_eq_ok {c : Cell R E} (hpart : x.part c.field.name = .ok (S.writable c.value))
    (hdata : S.encodeAs c.field.ty c.value = .ok c.json) :
    writeField x c.field = .ok c.entry := by
  rw [writeField, hpart]
  change Except.map _ (S.encodeAs c.field.ty c.value) = _
  rw [hdata]
  rfl

theorem writeSetField_eq_ok {c : Cell R E}
    (hpart : x.part c.field.name = .ok (S.writable c.value))
    (hdata : S.encodeAs c.field.ty c.value = .ok c.json) :
    writeSetField x c.field = .ok (if c.value.isNull then none else some c.entry) := by
  rw [writeSetField, hpart]
  change (if (S.writable c.value).value.isNull then _ else
    Except.map _ (S.encodeAs c.field.ty c.value)) = _
  rw [value_writable, hdata]
  split <;> rfl

theorem filterMap_set (cs : List (Cell R E)) :
    (((cs.filter fun c => c.field.isOmittable).map fun c =>
        if c.value.isNull then none else some c.entry).filterMap id) =
      (cs.filter fun c => c.field.isOmittable && !c.value.isNull).map Cell.entry := by
  induction cs with
  | nil => rfl
  | cons c cs ih =>
    rw [List.filter_cons, List.filter_cons]
    cases c.field.isOmittable with
    | false => exact ih
    | true =>
      cases hnull : c.value.isNull with
      | true => simpa [hnull] using ih
      | false => simpa [hnull] using ih

theorem writeFields_eq_ok (hpart : ∀ c ∈ cs, x.part c.field.name = .ok (S.writable c.value))
    (hdata : ∀ c ∈ cs, S.encodeAs c.field.ty c.value = .ok c.json) :
    writeFields x (cs.map Cell.field) =
      .ok (((cs.filter fun c => !c.field.isOmittable) ++
        cs.filter fun c => c.field.isOmittable && !c.value.isNull).map Cell.entry) := by
  have halways : (((cs.map Cell.field).filter fun f => !f.isOmittable).mapM (writeField x)) =
      .ok ((cs.filter fun c => !c.field.isOmittable).map Cell.entry) := by
    rw [List.filter_map, List.mapM_map]
    refine mapM_eq_ok fun c hc => ?_
    have hmem := List.mem_of_mem_filter hc
    exact writeField_eq_ok (hpart c hmem) (hdata c hmem)
  have hchosen : (((cs.map Cell.field).filter fun f => f.isOmittable).mapM (writeSetField x)) =
      .ok ((cs.filter fun c => c.field.isOmittable).map fun c =>
        if c.value.isNull then none else some c.entry) := by
    rw [List.filter_map, List.mapM_map]
    refine mapM_eq_ok fun c hc => ?_
    have hmem := List.mem_of_mem_filter hc
    exact writeSetField_eq_ok (hpart c hmem) (hdata c hmem)
  rw [writeFields, halways, hchosen]
  change Except.ok (_ ++ List.filterMap id _) = _
  rw [filterMap_set, List.map_append]

theorem writeRecord_plain {r : R} {fields : List (Field R E)} {values : List (Value R E)}
    (hform : (S.record r).form = .plain fields)
    (hn : ((S.record r).fields.map (·.name)).Nodup)
    (hlength : values.length = (S.record r).fields.length)
    (hdata : ∀ c ∈ Value.cells S r values, S.encodeAs c.field.ty c.value = .ok c.json) :
    S.writeRecord r (S.shape (.record r values)) = .ok ((Value.record r values).wire S) := by
  have hfields : fields = (Value.cells S r values).map Cell.field := by
    rw [map_field_cells hlength, RecordDecl.fields, hform]
  rw [writeRecord, hform]
  dsimp only
  rw [hfields, writeFields_eq_ok (fun c hc => part_shape hn hlength hc) hdata, Value.wire_record,
    wireRecord_of_not_spread (by rw [RecordDecl.isSpread, hform]), hform]
  rfl

end Schema

namespace Protocol

/-! ## Wire forms of their own -/

theorem mapM_toToken? (r : RecordName) (tokens : List Token) :
    (tokens.map (Schema.tokenValue (E := EnumName) r)).mapM Value.toToken? = some tokens := by
  induction tokens with
  | nil => rfl
  | cons t ts ih =>
    rw [List.map_cons, List.mapM_cons, ih]
    rfl

theorem packed?_tokens (r : RecordName) (tokens : List Token) :
    (Value.list (tokens.map (Schema.tokenValue (E := EnumName) r))).packed? =
      some (Token.pack tokens) := by
  rw [Value.packed?, mapM_toToken?]
  rfl

theorem encodeAs_packed {r : RecordName} {v : Datum}
    (h : schema.HasType (.packed .semanticHighlightingToken) v) :
    schema.encodeAs (.packed r) v = .ok (Cell.packedData v) := by
  rw [Schema.encodeAs_eq_writeAs]
  obtain rfl | ⟨tokens, -, rfl⟩ := tokens_of_hasType h
  · rfl
  · have hvalues : ((tokens.map (Schema.tokenValue .semanticHighlightingToken)).map
        schema.writable).map (·.value) =
          tokens.map (Schema.tokenValue .semanticHighlightingToken) := by
      rw [List.map_map]
      refine (List.map_congr_left fun v _ => ?_).trans (List.map_id' _)
      exact Schema.value_writable schema v
    rw [Schema.shape, Schema.writeAs, hvalues, packed?_tokens, Cell.packedData, packed?_tokens]
    rfl

/-! ## Records -/

theorem form_responseMessage :
    (schema.record .responseMessage).form = .outcome [
      ⟨"jsonrpc", .str, .text "2.0", none, []⟩, .required "id" (.orNull requestId)]
      (.free "result") (.optional "error" (.record .responseError)) :=
  rfl

/-- Whether a record is written as an object of its fields. -/
def isPlain (r : RecordName) : Bool :=
  match (schema.record r).form with
  | .plain _ => true
  | _ => false

theorem isPlain_record (r : RecordName) :
    isPlain r = !(r == .messageActionItem || r == .responseMessage) := by
  cases r <;> rfl

/-- A record whose fields may all be left out is no exception among the wire forms. -/
theorem isPlain_of_all_omittable {r : RecordName}
    (h : ((schema.record r).fields.all fun f => f.isOmittable && f.checks.isEmpty) = true) :
    isPlain r = true := by
  rw [isPlain_record, Bool.not_eq_true']
  by_contra hexception
  rw [Bool.not_eq_false, Bool.or_eq_true, beq_iff_eq, beq_iff_eq] at hexception
  rcases hexception with rfl | rfl <;> cases h

theorem wire_blank {r : RecordName}
    (h : ((schema.record r).fields.all fun f => f.isOmittable && f.checks.isEmpty) = true) :
    (schema.blank r).wire schema = .obj [] := by
  have hr := isPlain_of_all_omittable h
  rw [isPlain] at hr
  split at hr
  · rename_i hform
    have hunset : ∀ c ∈ Value.cells schema r ((schema.record r).fields.map fun _ => .null),
        c.field.isOmittable = true ∧ c.value.isNull = true := by
      intro c hc
      obtain ⟨p, hp, rfl⟩ := List.mem_map.1 hc
      obtain ⟨hf, hv⟩ := List.of_mem_zip hp
      have hcondition := List.all_eq_true.1 h p.1 hf
      rw [Bool.and_eq_true] at hcondition
      obtain ⟨-, -, hnull⟩ := List.mem_map.1 hv
      exact ⟨hcondition.1, by rw [← hnull]; rfl⟩
    rw [blank_eq h, Value.wire_record,
      Schema.wireRecord_of_not_spread (by rw [RecordDecl.isSpread, hform]), hform, Form.written]
    rw [List.filter_eq_nil_iff.2 fun c hc => by simp [(hunset c hc).1],
      List.filter_eq_nil_iff.2 fun c hc => by simp [(hunset c hc).2]]
    rfl
  · cases hr

/-- The cells of a record are written by what they are and as their fields ask for. -/
def IsWritten (c : Cell RecordName EnumName) : Prop :=
  schema.encode c.value = .ok c.data ∧ schema.encodeAs c.field.ty c.value = .ok c.json

/-- What is written of a map among the keys of a record. -/
theorem spreadEntries_eq_ok {v : Datum} (h : v = .null ∨ ∃ entries, v = .map entries)
    (hdata : schema.encode v = .ok (v.wire schema)) :
    spreadEntries (schema.writable v) = .ok (spreadData v (v.wire schema)) := by
  obtain rfl | ⟨entries, rfl⟩ := h
  · rfl
  · change (if (schema.writable (.map entries)).value.isNothing then _ else
      Except.map _ (schema.encode (.map entries))) = _
    rw [Schema.value_writable, hdata, Value.wire_map, spreadData]
    split <;> rfl

theorem encode_messageActionItem {values : List Datum}
    (hlength : values.length = (schema.record .messageActionItem).fields.length)
    (htyped : ∀ p ∈ (schema.record .messageActionItem).fields.zip values,
      schema.HasType p.1.ty p.2)
    (hcells : ∀ c ∈ Value.cells schema .messageActionItem values, IsWritten c) :
    schema.writeRecord .messageActionItem (schema.shape (.record .messageActionItem values)) =
      .ok ((Value.record .messageActionItem values).wire schema) := by
  match values, hlength with
  | [title, rest], _ =>
    have hrest : rest = .null ∨ ∃ entries, rest = .map entries := by
      rw [fields_messageActionItem] at htyped
      simp only [List.zip_cons_cons, List.zip_nil_right, List.forall_mem_cons] at htyped
      exact htyped.2.1.null_or_map
    have hpart (c : Cell RecordName EnumName)
        (hc : c ∈ Value.cells schema .messageActionItem [title, rest]) :=
      Schema.part_shape (nodup_names .messageActionItem) rfl hc
    have htitle := Schema.writePart_eq_ok (hpart _ List.mem_cons_self)
      (hcells _ List.mem_cons_self).1
    have hproperties := hpart _ (List.mem_cons_of_mem _ List.mem_cons_self)
    have hspread := spreadEntries_eq_ok hrest
      (hcells _ (List.mem_cons_of_mem _ List.mem_cons_self)).1
    rw [Schema.writeRecord, form_messageActionItem, Value.wire_record]
    exact bind_eq_ok_iff.2 ⟨_, hproperties, bind_eq_ok_iff.2 ⟨_, hspread,
      bind_eq_ok_iff.2 ⟨_, htitle, rfl⟩⟩⟩

theorem cells_responseMessage (jsonrpc id result error : Datum) :
    Value.cells schema .responseMessage [jsonrpc, id, result, error] = [
      ⟨⟨"jsonrpc", .str, .text "2.0", none, []⟩, jsonrpc, jsonrpc.wire schema⟩,
      ⟨.required "id" (.orNull requestId), id, id.wire schema⟩,
      ⟨.free "result", result, result.wire schema⟩,
      ⟨.optional "error" (.record .responseError), error, error.wire schema⟩] :=
  rfl

theorem written_responseMessage (jsonrpc id result error : Datum) :
    (schema.record .responseMessage).form.written
        (Value.cells schema .responseMessage [jsonrpc, id, result, error]) = [
      ⟨⟨"jsonrpc", .str, .text "2.0", none, []⟩, jsonrpc, jsonrpc.wire schema⟩,
      ⟨.required "id" (.orNull requestId), id, id.wire schema⟩,
      if error.isNull then ⟨.free "result", result, result.wire schema⟩
      else ⟨.optional "error" (.record .responseError), error, error.wire schema⟩] := by
  have hfailed : ((Value.cells schema .responseMessage [jsonrpc, id, result, error]).any fun c =>
      c.field.name = "error" && !c.value.isNull) = !error.isNull := by
    simp [cells_responseMessage, Field.required, Field.free, Field.optional]
  rw [form_responseMessage]
  refine (congrArg (fun failed => (Value.cells schema .responseMessage
    [jsonrpc, id, result, error]).filter fun c =>
      c.field.name ≠ if failed then "result" else "error") hfailed).trans ?_
  cases error.isNull <;> rfl

theorem wireRecord_responseMessage (jsonrpc id result error : Datum) :
    schema.wireRecord .responseMessage
        (Value.cells schema .responseMessage [jsonrpc, id, result, error]) =
      [("jsonrpc", jsonrpc.wire schema), ("id", id.wire schema),
        if error.isNull then ("result", result.wire schema) else ("error", error.wire schema)] := by
  rw [Schema.wireRecord_of_not_spread rfl, written_responseMessage]
  cases error.isNull <;> rfl

theorem encode_responseMessage {values : List Datum}
    (hlength : values.length = (schema.record .responseMessage).fields.length)
    (hcells : ∀ c ∈ Value.cells schema .responseMessage values, IsWritten c) :
    schema.writeRecord .responseMessage (schema.shape (.record .responseMessage values)) =
      .ok ((Value.record .responseMessage values).wire schema) := by
  match values, hlength with
  | [jsonrpc, id, result, error], _ =>
    have hpart (c : Cell RecordName EnumName)
        (hc : c ∈ Value.cells schema .responseMessage [jsonrpc, id, result, error]) :=
      Schema.part_shape (nodup_names .responseMessage) rfl hc
    have hwritten (c : Cell RecordName EnumName)
        (hc : c ∈ Value.cells schema .responseMessage [jsonrpc, id, result, error]) :=
      Schema.writePart_eq_ok (hpart c hc) (hcells c hc).1
    rw [cells_responseMessage] at hpart hwritten
    simp only [List.forall_mem_cons] at hpart hwritten
    obtain ⟨hjsonrpc, hid, hresult, herror, -⟩ := hwritten
    rw [Schema.writeRecord, form_responseMessage, Value.wire_record, wireRecord_responseMessage]
    have hcommon : [(⟨"jsonrpc", .str, .text "2.0", none, []⟩ : Field RecordName EnumName),
        .required "id" (.orNull requestId)].mapM (fun f => writePart
          (schema.shape (.record .responseMessage [jsonrpc, id, result, error])) f.name) =
        .ok [("jsonrpc", jsonrpc.wire schema), ("id", id.wire schema)] := by
      rw [List.mapM_cons, List.mapM_cons, List.mapM_nil]
      exact bind_eq_ok_iff.2 ⟨_, hjsonrpc, bind_eq_ok_iff.2
        ⟨_, bind_eq_ok_iff.2 ⟨_, hid, bind_eq_ok_iff.2 ⟨_, rfl, rfl⟩⟩, rfl⟩⟩
    refine bind_eq_ok_iff.2 ⟨_, hcommon, bind_eq_ok_iff.2 ⟨_, hpart.2.2.2.1, ?_⟩⟩
    rw [Schema.value_writable]
    cases error.isNull with
    | true => exact bind_eq_ok_iff.2 ⟨_, hresult, rfl⟩
    | false => exact bind_eq_ok_iff.2 ⟨_, herror, rfl⟩

theorem encode_record {r : RecordName} {values : List Datum}
    (hlength : values.length = (schema.record r).fields.length)
    (htyped : ∀ p ∈ (schema.record r).fields.zip values, schema.HasType p.1.ty p.2)
    (hcells : ∀ c ∈ Value.cells schema r values, IsWritten c) :
    schema.writeRecord r (schema.shape (.record r values)) =
      .ok ((Value.record r values).wire schema) := by
  by_cases hplain : isPlain r = true
  · rw [isPlain] at hplain
    split at hplain
    · rename_i fields hform
      exact Schema.writeRecord_plain hform (nodup_names r) hlength fun c hc => (hcells c hc).2
    · cases hplain
  · rw [isPlain_record, Bool.not_eq_true', Bool.not_eq_false, Bool.or_eq_true, beq_iff_eq,
      beq_iff_eq] at hplain
    rcases hplain with rfl | rfl
    · exact encode_messageActionItem hlength htyped hcells
    · exact encode_responseMessage hlength hcells

/-! ## Values of types -/

theorem isFieldType_of_mem {ts : List DataType} (h : isFieldType (.union ts) = true) {t : DataType}
    (ht : t ∈ ts) : isFieldType t = true := by
  rw [isFieldType, Bool.and_eq_true] at h ⊢
  exact ⟨(Schema.isRegular_of_mem h.1 ht).1, Ty.every_of_every_union h.2 t ht⟩

theorem isFieldType_list {item : DataType} (h : isFieldType (.list item) = true) :
    isFieldType item = true := by
  rw [isFieldType, Bool.and_eq_true] at h ⊢
  exact ⟨Ty.every_of_every_list h.1, Ty.every_of_every_list h.2⟩

theorem isFieldType_map {item : DataType} (h : isFieldType (.map item) = true) :
    isFieldType item = true := by
  rw [isFieldType, Bool.and_eq_true] at h ⊢
  exact ⟨Ty.every_of_every_map h.1, Ty.every_of_every_map h.2⟩

/-- A field is written by its value unless it holds packed tokens. -/
theorem isWritten_of_field {r : RecordName} {f : Field RecordName EnumName} {v : Datum}
    (hf : f ∈ (schema.record r).fields) (hv : schema.HasType f.ty v)
    (hencode : schema.encode v = .ok (v.wire schema))
    (hfield : isFieldType f.ty = true → schema.encodeAs f.ty v = .ok (v.wire schema)) :
    IsWritten ⟨f, v, v.wire schema⟩ := by
  refine ⟨hencode, ?_⟩
  have hty := of_all_fields (all_hasFieldType r) hf
  rw [hasFieldType] at hty
  dsimp only [Cell.json]
  split at hty
  · rename_i r' hpacked
    rw [of_decide_eq_true hty] at hpacked
    rw [hpacked] at hv ⊢
    exact encodeAs_packed hv
  · rename_i r' label hflag
    rw [hflag, Schema.encodeAs_eq_writeAs, Schema.writeAs, ← Schema.encode_eq_writePlainly]
    exact hencode
  · rename_i hpacked _
    rw [hfield hty]
    split
    · rename_i r' hty'
      exact absurd hty' (hpacked r')
    · rfl

/-- Well-typed values are written in their wire form, by what they are and as their type. -/
theorem encode_and_encodeAs_of_hasType {t : DataType} {v : Datum} (h : schema.HasType t v) :
    schema.encode v = .ok (v.wire schema) ∧
      (isFieldType t = true → schema.encodeAs t v = .ok (v.wire schema)) := by
  induction h with
  | any x =>
    rw [Value.wire_ofJson]
    exact ⟨Schema.encode_ofJson schema x, fun _ => Schema.encode_ofJson schema x⟩
  | null => exact ⟨rfl, fun _ => rfl⟩
  | str s => exact ⟨rfl, fun _ => rfl⟩
  | int n => exact ⟨rfl, fun _ => rfl⟩
  | bool b => exact ⟨rfl, fun _ => rfl⟩
  | float y => exact ⟨rfl, fun h => by cases h⟩
  | listOfAny items =>
    have hwire := Value.wire_ofJson (S := schema) (.arr items)
    have hencode := Schema.encode_ofJson schema (.arr items)
    rw [Value.ofJson, Value.ofItems_eq_map] at hwire hencode
    rw [hwire]
    exact ⟨hencode, fun _ => hencode⟩
  | unknown hraw => exact ⟨rfl, fun _ => rfl⟩
  | literal text => exact ⟨rfl, fun _ => rfl⟩
  | member hflags hm => exact ⟨rfl, fun _ => rfl⟩
  | flags hflags n =>
    refine ⟨rfl, fun hty => ?_⟩
    rw [isFieldType, Bool.and_eq_true] at hty
    have hnone := Ty.of_every hty.2
    rw [isFlags, hflags] at hnone
    cases hnone
  | record hlength hfields hchecks ih =>
    rename_i r values
    have hrecord := encode_record hlength hfields fun c hc => by
      obtain ⟨p, hp, rfl⟩ := List.mem_map.1 hc
      exact isWritten_of_field (List.of_mem_zip hp).1 (hfields p hp) (ih p hp).1 (ih p hp).2
    rw [Schema.encode_eq_writePlainly, Schema.encodeAs_eq_writeAs, Schema.writeAs]
    exact ⟨hrecord, fun _ => hrecord⟩
  | list h ih =>
    rw [Schema.encode_eq_writePlainly, Schema.encodeAs_eq_writeAs, Schema.shape, Schema.writeAs,
      Schema.writePlainly]
    refine ⟨Schema.writeItems_eq_ok fun v hv => (ih v hv).1, fun hty => ?_⟩
    exact Schema.writeItems_eq_ok fun v hv => (ih v hv).2 (isFieldType_list hty)
  | map h ih =>
    rw [Schema.encode_eq_writePlainly, Schema.encodeAs_eq_writeAs, Schema.shape, Schema.writeAs,
      Schema.writePlainly]
    refine ⟨Schema.writeEntries_eq_ok fun entry hentry => (ih entry hentry).1, fun hty => ?_⟩
    exact Schema.writeEntries_eq_ok fun entry hentry => (ih entry hentry).2 (isFieldType_map hty)
  | union ht hv hraw ih =>
    rename_i ts t v
    refine ⟨ih.1, fun hty => ?_⟩
    rw [Schema.encodeAs_eq_writeAs, Schema.writeAs]
    unfold Schema.writeUnion
    split
    · rename_i u
      rw [Schema.isNull_shape, ← Schema.encodeAs_eq_writeAs]
      cases hnull : v.isNull with
      | true =>
        rw [Value.isNull_iff.1 hnull, Value.wire_scalar]
        rfl
      | false =>
        rcases List.mem_cons.1 ht with rfl | ht
        · exact ih.2 (isFieldType_of_mem hty List.mem_cons_self)
        · rw [List.mem_singleton.1 ht] at hv
          cases hv
          cases hnull
    · rw [← Schema.encode_eq_writePlainly]
      exact ih.1
  | noTokens r => exact ⟨rfl, fun h => by cases h⟩
  | tokens h ih =>
    rw [Schema.encode_eq_writePlainly, Schema.shape, Schema.writePlainly]
    exact ⟨Schema.writeItems_eq_ok fun v hv => (ih v hv).1, fun h => by cases h⟩
  | noRecord r label => exact ⟨rfl, fun h => by cases h⟩
  | recordOfFlag label h ih => exact ⟨ih.1, fun h => by cases h⟩

/-- Encoding a well-typed value succeeds and gives its wire form. -/
theorem encode_of_hasType {t : DataType} {v : Datum} (h : schema.HasType t v) :
    schema.encode v = .ok (v.wire schema) :=
  (encode_and_encodeAs_of_hasType h).1

end Protocol

end LspWire
