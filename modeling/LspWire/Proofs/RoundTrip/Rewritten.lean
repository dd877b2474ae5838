import LspWire.Proofs.RoundTrip.Decoded

/-!
# Normal forms

What a decoded value comes back as may be another value, but it is written as the same data, with the
keys in the same order. So what a decoded value is written as is a normal form: decoding it and
encoding the result gives it again.
-/

namespace LspWire.Protocol

variable {σ : Surface} {r : RecordName} {t : DataType} {v : Datum}

/-! ## Fields -/

/-- A registration without an identifier is written as the options that it comes back as. -/
theorem wire_returnedSync (v : Datum) : (returnedSync v).wire schema = v.wire schema := by
  unfold returnedSync
  split
  · rename_i selector save
    rw [Value.wire_record, Value.wire_record]
    refine congrArg Json.obj ?_
    cases save with
    | scalar s => cases s <;> rfl
    | _ => rfl
  · rfl

theorem isNull_returnedField (r : RecordName) (f : Field RecordName EnumName) (v : Datum) :
    (returnedField r f v).isNull = v.isNull := by
  unfold returnedField returnedSync
  split <;> [split; skip] <;> rfl

theorem wireAs_returnedField {f : Field RecordName EnumName} (hf : f ∈ (schema.record r).fields)
    (hv : schema.HasType f.ty v) (ih : (returned v).wire schema = v.wire schema) :
    wireAs f.ty (returnedField r f (returned v)) = wireAs f.ty v := by
  have hwire : (returnedField r f (returned v)).wire schema = v.wire schema := by
    rw [returnedField]
    split
    · rw [wire_returnedSync, ih]
    · exact ih
  unfold wireAs
  split
  · rename_i r' hty
    have hr := of_all_fields (all_hasFieldType r) hf
    rw [hasFieldType, hty, decide_eq_true_iff] at hr
    subst hr
    rw [returnedField_of_ne (isNotebookSync_eq_false hf (by simp [hty, notebookSync]))]
    obtain rfl | ⟨tokens, -, rfl⟩ := tokens_of_hasType (hty ▸ hv)
    · rw [Value.null, returned_scalar]
    · rw [returned_tokens rfl]
  · exact hwire

/-! ## Records -/

theorem wire_plain_congr {values : List Datum} {g : Field RecordName EnumName × Datum → Datum}
    (hr : isPlain r = true) (hlength : values.length = (schema.record r).fields.length)
    (h : ∀ p ∈ (schema.record r).fields.zip values,
      wireAs p.1.ty (g p) = wireAs p.1.ty p.2 ∧ (g p).isNull = p.2.isNull) :
    (Value.record r (((schema.record r).fields.zip values).map g)).wire schema =
      (Value.record r values).wire schema := by
  have hcells : List.Forall₂ (fun c y => wireAs c.field.ty y = c.json ∧ y.isNull = c.value.isNull)
      (Value.cells schema r values) (((schema.record r).fields.zip values).map g) := by
    rw [Value.cells, List.forall₂_map_left_iff, List.forall₂_map_right_iff, List.forall₂_same]
    intro p hp
    rw [json_cell]
    exact h p hp
  rw [Value.wire_record, Value.wire_record,
    Schema.wireRecord_of_not_spread (isSpread_of_isPlain hr),
    Schema.wireRecord_of_not_spread (isSpread_of_isPlain hr)]
  rw [isPlain] at hr
  split at hr
  · rename_i fields hform
    rw [hform]
    refine congrArg Json.obj ?_
    rw [← List.forall₂_eq_eq_eq, List.forall₂_map_left_iff, List.forall₂_map_right_iff]
    refine (Form.forall₂_written_plain (Schema.forall₂_cells hlength hcells)
      fun c c' hc => ⟨hc.2.1, hc.1.2⟩).flip.imp ?_
    rintro ⟨f, y, x⟩ c ⟨⟨hjson, -⟩, rfl, hx⟩
    obtain rfl : x = y.wire schema := hx
    rw [Cell.entry, Cell.entry, json_cell, hjson]
  · cases hr

theorem isNothing_returned (v : Datum) : (returned v).isNothing = v.isNothing := by
  cases v with
  | scalar s => rw [returned_scalar]
  | list items => cases items <;> simp [Value.isNothing]
  | map entries => cases entries <;> simp [Value.isNothing]
  | record r values => rw [returned_record]; rfl
  | member e m => rw [returned] <;> simp
  | flags e bits => rw [returned] <;> simp
  | unknown raw => rw [returned] <;> simp

theorem wire_returned_messageActionItem {title rest : Datum}
    (htitle : (returned title).wire schema = title.wire schema)
    (hrest : (returned rest).wire schema = rest.wire schema) :
    (returned (.record .messageActionItem [title, rest])).wire schema =
      (Value.record .messageActionItem [title, rest]).wire schema := by
  rw [returned_messageActionItem, Value.wire_record, Value.wire_record,
    wireRecord_messageActionItem, wireRecord_messageActionItem, htitle, hrest]
  unfold spreadData
  rw [isNothing_returned]

theorem wire_returned_responseMessage {jsonrpc id result error : Datum}
    (hjsonrpc : (returned jsonrpc).wire schema = jsonrpc.wire schema)
    (hid : (returned id).wire schema = id.wire schema)
    (hresult : (returned result).wire schema = result.wire schema)
    (herror : (returned error).wire schema = error.wire schema) :
    (returned (.record .responseMessage [jsonrpc, id, result, error])).wire schema =
      (Value.record .responseMessage [jsonrpc, id, result, error]).wire schema := by
  rw [returned_responseMessage, Value.wire_record, Value.wire_record, wireRecord_responseMessage,
    wireRecord_responseMessage, hjsonrpc, hid, herror, isNull_returned]
  cases error.isNull with
  | true => rw [if_pos rfl, if_pos rfl, if_pos rfl, hresult]
  | false => rfl

theorem wire_returned_record {values : List Datum}
    (hlength : values.length = (schema.record r).fields.length)
    (hfields : ∀ p ∈ (schema.record r).fields.zip values, schema.HasType p.1.ty p.2)
    (ih : ∀ p ∈ (schema.record r).fields.zip values,
      (returned p.2).wire schema = p.2.wire schema) :
    (returned (.record r values)).wire schema = (Value.record r values).wire schema := by
  by_cases hplain : isPlain r = true
  · have hne : r ≠ .responseMessage := by
      rintro rfl
      cases hplain
    rw [returned_record, returnedFields_of_ne hne]
    refine wire_plain_congr hplain hlength fun p hp =>
      ⟨wireAs_returnedField (List.of_mem_zip hp).1 (hfields p hp) (ih p hp), ?_⟩
    rw [isNull_returnedField, isNull_returned]
  · rw [isPlain_record, Bool.not_eq_true', Bool.not_eq_false, Bool.or_eq_true, beq_iff_eq,
      beq_iff_eq] at hplain
    have hvalues : ∀ v ∈ values, (returned v).wire schema = v.wire schema := by
      intro v hv
      obtain ⟨f, hp⟩ := Entries.exists_mem_zip hlength.symm hv
      exact ih (f, v) hp
    rcases hplain with rfl | rfl
    · match values, hlength with
      | [title, rest], _ =>
        simp only [List.forall_mem_cons] at hvalues
        exact wire_returned_messageActionItem hvalues.1 hvalues.2.1
    · match values, hlength with
      | [jsonrpc, id, result, error], _ =>
        simp only [List.forall_mem_cons] at hvalues
        obtain ⟨hjsonrpc, hid, hresult, herror, -⟩ := hvalues
        exact wire_returned_responseMessage hjsonrpc hid hresult herror

/-! ## All values -/

/-- What a decoded value comes back as is written as the value is. -/
theorem wire_returned (h : schema.HasType t v) : (returned v).wire schema = v.wire schema := by
  have hlist {items : List Datum} (h : ∀ v ∈ items, (returned v).wire schema = v.wire schema) :
      (returned (.list items)).wire schema = (Value.list items).wire schema := by
    rw [returned_list, Value.wire_list, Value.wire_list, List.map_map]
    exact congrArg Json.arr (List.map_congr_left h)
  induction h with
  | any x => rw [returned_ofJson]
  | listOfAny items =>
    refine hlist fun v hv => ?_
    obtain ⟨x, -, rfl⟩ := List.mem_map.1 hv
    rw [returned_ofJson]
  | unknown => rw [returned_of_wire_scalar (Value.wire_unknown _)]
  | member => rw [returned_of_wire_scalar (Value.wire_member _ _)]
  | record hlength hfields _ ih => exact wire_returned_record hlength hfields ih
  | list _ ih => exact hlist ih
  | map _ ih =>
    rw [returned_map, Value.wire_map, Value.wire_map, List.map_map]
    refine congrArg Json.obj (List.map_congr_left fun entry hentry => ?_)
    exact congrArg (Prod.mk entry.1) (ih entry hentry)
  | union _ _ _ ih => exact ih
  | tokens _ ih => exact hlist ih
  | recordOfFlag _ _ ih => exact ih
  | _ => rw [returned_scalar]

/-- What is decoded is written as data that is decoded on the same surface, and the result is written
as this data again. -/
theorem decode_encode_again {enabled : Bool} {version? : Option SpecVersion} {d : Json}
    (hregular : schema.isRegular t = true) (hsettled : isSettled areAligned t = true)
    (h : schema.decode enabled version? t d = .ok v) :
    schema.decode enabled version? t (v.wire schema) = .ok (returned v) ∧
      schema.encode (returned v) = .ok (v.wire schema) := by
  obtain ⟨hproposed, hread⟩ := Schema.decode_eq_ok_iff.1 h
  have hagain := readsAgain _ d t v hregular hsettled hread
  refine ⟨Schema.decode_eq_ok_iff.2 ⟨hproposed, hagain⟩, ?_⟩
  rw [encode_of_hasType (hasType_of_decodeAt hregular hagain),
    wire_returned (hasType_of_decodeAt hregular hread)]

end LspWire.Protocol
