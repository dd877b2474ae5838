import LspWire.Proofs.Orderly
import LspWire.Proofs.RoundTrip.Fields
import LspWire.Proofs.RoundTrip.Records

/-!
# Decoded values round trip

Whatever is decoded is encoded as data that is decoded on the same surface, and what it is decoded as
is the value but for the two kinds of places that `returned` changes. The induction is on the data
that has been decoded. What carries it is `ReadsAgain` for all parts of the data, since the fields of
a record are read from them as types of their own.
-/

namespace LspWire.Protocol

variable {σ : Surface} {r : RecordName} {t : DataType} {d : Json} {v : Datum}

/-! ## Lists and maps -/

theorem decodeAt_list_again {item : DataType} {values : List Datum}
    (h : ∀ v ∈ values, schema.decodeAt σ item (v.wire schema) = .ok (returned v)) :
    schema.decodeAt σ (.list item) ((Value.list values : Datum).wire schema) =
      .ok (returned (.list values)) := by
  rw [Value.wire_list, returned_list, Schema.decodeAt_list_eq_ok_iff]
  refine ⟨_, _, rfl, rfl, ?_⟩
  rw [List.forall₂_map_left_iff, List.forall₂_map_right_iff, List.forall₂_same]
  exact h

theorem entriesRead_again {item : DataType} {values : List (String × Datum)}
    (h : ∀ entry ∈ values, schema.decodeAt σ item (entry.2.wire schema) = .ok (returned entry.2)) :
    schema.EntriesRead σ item (values.map fun entry => (entry.1, entry.2.wire schema))
      (values.map fun entry => (entry.1, returned entry.2)) := by
  rw [Schema.EntriesRead, List.forall₂_map_left_iff, List.forall₂_map_right_iff, List.forall₂_same]
  exact fun entry hentry => ⟨rfl, h entry hentry⟩

/-! ## Records -/

/-- The integers of a record are checked again as they were. -/
theorem checkField_again {record : String} {f : Field RecordName EnumName}
    (hv : schema.HasType f.ty v) (hint : f.ty = .int)
    (h : schema.checkField true record f v = .ok ()) :
    schema.checkField true record f (returnedField r f (returned v)) = .ok () := by
  obtain ⟨n, rfl⟩ := (hint ▸ hv : schema.HasType .int v).exists_int
  rw [Value.int, returned_scalar, returnedField_scalar]
  exact h

theorem decodeAt_plain_again (hr : isPlain r = true)
    (h : schema.decodeAt σ (.record r) d = .ok v) (ih : ∀ part ∈ d.parts, ReadsAgain σ part) :
    schema.decodeAt σ (.record r) (v.wire schema) = .ok (returned v) := by
  have htyped := hasType_of_decodeAt rfl h
  have hne : r ≠ .responseMessage := by
    rintro rfl
    cases hr
  rw [Schema.decodeAt_record_eq_ok_iff (isSpread_of_isPlain hr) (nodup_names r)] at h
  obtain ⟨hadmits, entries, values, rfl, rfl, -, hread, -⟩ := h
  obtain ⟨values', heq, hlength, hfields, hchecks⟩ := htyped.exists_values
  cases heq
  rw [Schema.checkFields_eq_ok_iff] at hchecks
  rw [returned_record, returnedFields_of_ne hne]
  refine decodeAt_wire_plain hr hadmits hlength (fun p hp hset => ?_) (fun p hp hnull => ?_)
    fun p hp hint => checkField_again (hfields p hp) hint (hchecks p hp)
  · have hf := (List.of_mem_zip hp).1
    have hfield := List.forall₂_zip hread hp
    refine ⟨?_, decodeAt_field hf (fun d hd => ih d ?_) hfield hset⟩
    · rw [Bool.and_eq_false_iff] at hset
      rcases hset with halways | hnull
      · exact isVisible_of_not_omittable hf halways σ
      · exact (available_of_fieldRead hf (fun x _ t v ht hv => available_of_decodeAt ht hv)
          hfield).1 hnull
    · exact List.mem_map.2 ⟨_, Entries.mem_of_lookup hd, rfl⟩
  · rw [hnull, Value.null, returned_scalar, returnedField_scalar]

/-- A response is read again with its error or with its result. -/
theorem decodeAt_wire_responseMessage
    {jsonrpc id result error jsonrpc' id' result' error' : Datum}
    (hjsonrpc : schema.decodeAt σ .str (jsonrpc.wire schema) = .ok jsonrpc')
    (hid : schema.decodeAt σ requestId.orNull (id.wire schema) = .ok id')
    (hresult : schema.decodeAt σ .any (result.wire schema) = .ok result')
    (herror : error.isNull = false →
      schema.decodeAt σ (Ty.record .responseError).orNull (error.wire schema) = .ok error')
    (hnone : error = .null → error' = .null) :
    schema.decodeAt σ (.record .responseMessage)
        ((Value.record .responseMessage [jsonrpc, id, result, error] : Datum).wire schema) =
      .ok (.record .responseMessage
        [jsonrpc', id', if error.isNull then result' else .null, error']) := by
  have hback : List.Forall₂
      (schema.ComesBack σ ((schema.record .responseMessage).form.written
        (Value.cells schema .responseMessage [jsonrpc, id, result, error])))
      (Value.cells schema .responseMessage [jsonrpc, id, result, error])
      [jsonrpc', id', if error.isNull then result' else .null, error'] := by
    rw [written_responseMessage, cells_responseMessage]
    have hlast {c d e : Cell RecordName EnumName} : e ∈ [c, d, e] :=
      List.mem_cons_of_mem _ (List.mem_cons_of_mem _ List.mem_cons_self)
    refine .cons (.inl ⟨List.mem_cons_self, Surface.admits_none σ, hjsonrpc⟩)
      (.cons (.inl ⟨List.mem_cons_of_mem _ List.mem_cons_self, Surface.admits_none σ, hid⟩) ?_)
    cases hnull : error.isNull with
    | true =>
      rw [if_pos rfl, if_pos rfl]
      refine .cons (.inl ⟨hlast, Surface.admits_none σ, hresult⟩) (.cons (.inr ⟨?_, ?_⟩) .nil)
      · simp [Field.optional, Field.required, Field.free]
      · rw [hnone (Value.isNull_iff.1 hnull)]
        rfl
    | false =>
      rw [if_neg Bool.false_ne_true, if_neg Bool.false_ne_true]
      refine .cons (.inr ⟨?_, rfl⟩)
        (.cons (.inl ⟨hlast, Surface.admits_none σ, herror hnull⟩) .nil)
      simp [Field.optional, Field.required, Field.free]
  refine Schema.decodeAt_wireRecord rfl (nodup_names _) rfl (Surface.admits_none σ) hback
    (fun c hc hliteral => ?_) ?_
  · rw [(untagged_of_mem_responseMessage (σ := σ) hc).2] at hliteral
    cases hliteral
  · exact checkFields_of_fieldsRead (Schema.fieldsRead_wireRecord rfl (nodup_names _) rfl hback)
      (.cons (fun h => by cases h) (.cons (fun h => by cases h) (.cons (fun h => by cases h)
        (.cons (fun h => by cases h) .nil))))

theorem decodeAt_responseMessage_again (h : schema.decodeAt σ (.record .responseMessage) d = .ok v)
    (ih : ∀ part ∈ d.parts, ReadsAgain σ part) :
    schema.decodeAt σ (.record .responseMessage) (v.wire schema) = .ok (returned v) := by
  have htyped := hasType_of_decodeAt rfl h
  rw [Schema.decodeAt_record_eq_ok_iff rfl (nodup_names _)] at h
  obtain ⟨hadmits, entries, values, rfl, rfl, -, hread, -⟩ := h
  obtain ⟨values', heq, hlength, hfields, -⟩ := htyped.exists_values
  cases heq
  match values, hlength with
  | [jsonrpc, id, result, error], hlength =>
    have hset : ∀ p ∈ (schema.record .responseMessage).fields.zip [jsonrpc, id, result, error],
        (p.1.isOmittable && p.2.isNull) = false →
          schema.decodeAt σ p.1.ty (wireAs p.1.ty p.2) = .ok (returned p.2) := fun p hp hset =>
      decodeAt_field (List.of_mem_zip hp).1
        (fun d hd => ih d (List.mem_map.2 ⟨_, Entries.mem_of_lookup hd, rfl⟩))
        (List.forall₂_zip hread hp) hset
    change ∀ p ∈ [(_, jsonrpc), (_, id), (_, result), (_, error)], _ at hset hfields
    simp only [List.forall_mem_cons] at hset hfields
    obtain ⟨hjsonrpc, hid, -, herror, -⟩ := hset
    have hresult : schema.decodeAt σ .any (result.wire schema) = .ok (returned result) := by
      cases hfields.2.2.1 with
      | any x => rw [returned_ofJson, Value.wire_ofJson, Schema.decodeAt_any]
    rw [returned_responseMessage]
    refine decodeAt_wire_responseMessage (hjsonrpc rfl) (hid rfl) hresult herror fun hnull => ?_
    rw [hnull, Value.null, returned_scalar]

/-- The properties of an action are read again. -/
theorem restRead_again {restTag : Option Tag} {item : DataType} {entries : List (String × Json)}
    {rest : Datum} {key : Field RecordName EnumName}
    (h : schema.RestRead σ restTag item (Schema.otherEntries key entries) rest)
    (ih : ∀ entry ∈ entries, ∀ v, schema.decodeAt σ item entry.2 = .ok v →
      schema.decodeAt σ item (v.wire schema) = .ok (returned v)) :
    schema.RestRead σ restTag item
        ((spreadData rest (rest.wire schema)).filter fun entry => entry.1 ≠ key.name)
        (returned rest) ∧ (rest.isNull = false → σ.admits restTag = true) := by
  rw [Schema.RestRead] at h
  split at h
  · subst h
    rw [Value.null, returned_scalar, Schema.RestRead]
    exact ⟨(if_pos rfl).mpr rfl, fun h => by cases h⟩
  · rename_i hset
    rw [Bool.or_eq_true, not_or, Bool.not_eq_true', Bool.not_eq_false] at hset
    obtain ⟨values, hvalues, rfl⟩ := h
    have hkept : ∀ entry ∈ values.map fun entry => (entry.1, entry.2.wire schema),
        decide (entry.1 ≠ key.name) = true := by
      intro entry hentry
      obtain ⟨value, hvalue, rfl⟩ := List.mem_map.1 hentry
      obtain ⟨d, hd, hkey, -⟩ := Entries.exists_left_of_forall₂ hvalues hvalue
      rw [← hkey]
      exact (List.mem_filter.1 hd).2
    rw [spreadData_map, List.filter_eq_self.2 hkept, returned_map]
    refine ⟨?_, fun _ => hset.2⟩
    have hne : ¬(((values.map fun entry => (entry.1, entry.2.wire schema)).isEmpty ||
        !σ.admits restTag) = true) := by
      rw [hset.2, Bool.not_true, Bool.or_false, List.isEmpty_map,
        List.isEmpty_iff_length_eq_zero, ← hvalues.length_eq, ← List.isEmpty_iff_length_eq_zero]
      exact hset.1
    refine (if_neg hne).mpr ⟨_, entriesRead_again fun entry hentry => ?_, rfl⟩
    obtain ⟨d, hd, -, hread⟩ := Entries.exists_left_of_forall₂ hvalues hentry
    exact ih d (List.mem_of_mem_filter hd) entry.2 hread

theorem decodeAt_messageActionItem_again
    (h : schema.decodeAt σ (.record .messageActionItem) d = .ok v)
    (ih : ∀ part ∈ d.parts, ReadsAgain σ part) :
    schema.decodeAt σ (.record .messageActionItem) (v.wire schema) = .ok (returned v) := by
  rw [Schema.decodeAt_spread_eq_ok_iff form_messageActionItem] at h
  obtain ⟨entries, d, title, rest, rfl, rfl, hd, htitle, hrest, hgate, -⟩ := h
  obtain ⟨text, -, rfl⟩ := Schema.decodeAt_str_eq_ok_iff.1 htitle
  obtain ⟨hagain, hvisible⟩ := restRead_again hrest fun entry hentry v hread =>
    ih entry.2 (List.mem_map_of_mem hentry) _ v rfl rfl hread
  rw [← isNull_returned] at hvisible
  rw [returned_messageActionItem, Value.str, returned_scalar, Value.wire_record,
    Schema.decodeAt_spread_eq_ok_iff form_messageActionItem]
  refine ⟨_, .str text, .str text, returned rest, rfl, rfl, lookup_title _ _, rfl, ?_, hgate,
    checkFields_messageActionItem hvisible⟩
  rw [otherEntries_messageActionItem]
  exact hagain

theorem decodeAt_record_again (h : schema.decodeAt σ (.record r) d = .ok v)
    (ih : ∀ part ∈ d.parts, ReadsAgain σ part) :
    schema.decodeAt σ (.record r) (v.wire schema) = .ok (returned v) := by
  by_cases hplain : isPlain r = true
  · exact decodeAt_plain_again hplain h ih
  · rw [isPlain_record, Bool.not_eq_true', Bool.not_eq_false, Bool.or_eq_true, beq_iff_eq,
      beq_iff_eq] at hplain
    rcases hplain with rfl | rfl
    · exact decodeAt_messageActionItem_again h ih
    · exact decodeAt_responseMessage_again h ih

/-! ## All data -/

theorem takesParts_of_decodeAt (ht : schema.isRegular t = true) (hunion : t.isUnion = false)
    (hd : ∀ s, d ≠ .scalar s) (h : schema.decodeAt σ t d = .ok v) :
    (takesLists t || takesObjects t) = true := by
  cases d with
  | scalar s => exact absurd rfl (hd s)
  | arr items => rw [takesLists_of_decodeAt ht hunion h, Bool.true_or]
  | obj entries => rw [takesObjects_of_decodeAt ht hunion h, Bool.or_true]

theorem readsAgain (σ : Surface) (d : Json) : ReadsAgain σ d := by
  induction d using Json.partsInduction with
  | step d ih =>
    intro t v ht hsettled h
    by_cases hd : ∃ s, d = .scalar s
    · obtain ⟨s, rfl⟩ := hd
      exact decodeAt_wire_of_scalar ht h
    rw [not_exists] at hd
    induction t using Ty.induction generalizing v with
    | any =>
      rw [Schema.decodeAt_any] at h
      cases h
      rw [Value.wire_ofJson, Schema.decodeAt_any, returned_ofJson]
    | listOfAny =>
      rw [Schema.decodeAt_listOfAny] at h ⊢
      obtain ⟨items, values, rfl, rfl, hvalues⟩ := Schema.decodeAt_list_eq_ok_iff.1 h
      refine decodeAt_list_again fun v hv => ?_
      obtain ⟨d, hd, hread⟩ := Entries.exists_left_of_forall₂ hvalues hv
      exact ih d hd .any v rfl rfl hread
    | record r => exact decodeAt_record_again h ih
    | list item =>
      obtain ⟨items, values, rfl, rfl, hvalues⟩ := Schema.decodeAt_list_eq_ok_iff.1 h
      refine decodeAt_list_again fun v hv => ?_
      obtain ⟨d, hd, hread⟩ := Entries.exists_left_of_forall₂ hvalues hv
      exact ih d hd item v (Ty.every_of_every_list ht) (Ty.every_of_every_list hsettled) hread
    | map item =>
      obtain ⟨entries, values, rfl, rfl, hvalues⟩ := Schema.decodeAt_map_eq_ok_iff.1 h
      rw [Value.wire_map, returned_map, Schema.decodeAt_map_eq_ok_iff]
      refine ⟨_, _, rfl, rfl, entriesRead_again fun entry hentry => ?_⟩
      obtain ⟨d, hd, -, hread⟩ := Entries.exists_left_of_forall₂ hvalues hentry
      exact ih d.2 (List.mem_map_of_mem hd) item entry.2 (Ty.every_of_every_map ht)
        (Ty.every_of_every_map hsettled) hread
    | union ts iht =>
      refine decodeAt_union_wire ht hsettled hd h fun t htmem hread => ?_
      exact iht t htmem v (Schema.isRegular_of_mem ht htmem).1
        (Ty.every_of_every_union hsettled t htmem) hread
    | _ => cases takesParts_of_decodeAt ht rfl hd h

/-- Whatever is decoded is encoded, and the data is decoded on the same surface as the value but for
two kinds of places: the result of a response beside an error, and the registration of notebook
synchronization without an identifier that a server announces. -/
theorem decode_encode_of_decode {type : TypeRef} {enabled : Bool} {version? : Option SpecVersion}
    {x : Json} (ht : type.resolve = .ok t) (hsteady : isSteady t = true)
    (h : schema.decode enabled version? t x = .ok v) :
    ∃ y, schema.encode v = .ok y ∧ schema.decode enabled version? t y = .ok (returned v) := by
  have horderly := isOrderly_of_resolve ht hsteady
  obtain ⟨hproposed, hread⟩ := Schema.decode_eq_ok_iff.1 h
  refine ⟨v.wire schema, encode_of_hasType (hasType_of_decodeAt horderly.regular hread),
    Schema.decode_eq_ok_iff.2 ⟨hproposed, ?_⟩⟩
  exact readsAgain _ x t v horderly.regular horderly.settled hread

theorem decode_encode_responseMessage :
    (TypeRef.named "ResponseMessage").resolve = .ok (.record .responseMessage) ∧
      isSteady (.record .responseMessage) = true ∧
      ∃ v y, schema.decode false none (.record .responseMessage)
          (.obj [("id", .int 1), ("result", .arr [.int 2]), ("error", .obj [("code", .int 3),
            ("message", .str "failed")])]) = .ok v ∧
        schema.encode v = .ok y ∧
        schema.decode false none (.record .responseMessage) y =
          .ok (.record .responseMessage [.str "2.0", .int 1, .null,
            .record .responseError [.unknown (.int 3), .str "failed", .null]]) := by
  have hresolve : (TypeRef.named "ResponseMessage").resolve = .ok (.record .responseMessage) := rfl
  have hread : schema.decode false none (.record .responseMessage)
      (.obj [("id", .int 1), ("result", .arr [.int 2]), ("error", .obj [("code", .int 3),
        ("message", .str "failed")])]) =
    .ok (.record .responseMessage [.str "2.0", .int 1, .list [.int 2],
      .record .responseError [.unknown (.int 3), .str "failed", .null]]) := rfl
  have hsteady : isSteady (.record .responseMessage) = true :=
    isSteady_of_ofName hresolve (by decide)
  obtain ⟨y, hy, hagain⟩ := decode_encode_of_decode hresolve hsteady hread
  exact ⟨hresolve, hsteady, _, y, hread, hy, hagain⟩

end LspWire.Protocol
