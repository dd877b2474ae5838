import LspWire.Proofs.RoundTrip.Decoded
import LspWire.Proofs.Surfaces
import LspWire.Protocol.Method

/-!
# Methods over the wire

A method sends its parameters as free-form data in a message. The message comes back from its data as
it was, and the parameters come back from the data in the message, also where null parameters are left
out of it. The two kinds of places where a decoded value does not come back as itself stand in no
parameters.
-/

namespace LspWire.Protocol

/-! ## Parameters that come back -/

/-- The records that hold a place where a decoded value changes on its way over the wire. -/
def alteredRecords : List RecordName := [.responseMessage, .serverCapabilities, .initializeResult]

def isUnaltered (r : RecordName) : Bool := !alteredRecords.contains r

theorem all_isUnaltered (r : RecordName) :
    (!isUnaltered r || (schema.record r).fields.all fun f =>
      !isNotebookSync r f && f.ty.isOver isUnaltered) = true := by
  cases r <;> rfl

theorem returned_record_of_isUnaltered {r : RecordName} (hr : isUnaltered r = true)
    {values : List Datum} (hlength : values.length = (schema.record r).fields.length)
    (h : ∀ p ∈ (schema.record r).fields.zip values,
      p.1.ty.isOver isUnaltered = true → returned p.2 = p.2) :
    returned (.record r values) = .record r values := by
  have hne : r ≠ .responseMessage := by
    rintro rfl
    cases hr
  have hall := all_isUnaltered r
  rw [hr, Bool.not_true, Bool.false_or, List.all_eq_true] at hall
  have hvalues : ((schema.record r).fields.zip values).map Prod.snd = values :=
    List.map_snd_zip (Nat.le_of_eq hlength)
  rw [returned_record, returnedFields_of_ne hne]
  refine congrArg (Value.record r) (Eq.trans (List.map_congr_left fun p hp => ?_) hvalues)
  have hf := hall p.1 (List.of_mem_zip hp).1
  rw [Bool.and_eq_true, Bool.not_eq_true'] at hf
  rw [returnedField_of_ne hf.1, h p hp hf.2]

/-- Values of a type over records that are not altered come back as themselves. -/
theorem returned_of_hasType {t : DataType} {v : Datum} (ht : t.isOver isUnaltered = true)
    (h : schema.HasType t v) : returned v = v := by
  have hlist {items : List Datum} (h : ∀ v ∈ items, returned v = v) :
      returned (.list items) = .list items := by
    rw [returned_list]
    exact congrArg Value.list ((List.map_congr_left h).trans (List.map_id' items))
  induction h with
  | any x => exact returned_ofJson x
  | listOfAny items =>
    refine hlist fun v hv => ?_
    obtain ⟨x, -, rfl⟩ := List.mem_map.1 hv
    exact returned_ofJson x
  | unknown => exact returned_of_wire_scalar (Value.wire_unknown _)
  | member => exact returned_of_wire_scalar (Value.wire_member _ _)
  | record hlength _ _ ih => exact returned_record_of_isUnaltered ht hlength fun p hp => ih p hp
  | list _ ih => exact hlist fun v hv => ih v hv (Ty.every_of_every_list ht)
  | map _ ih =>
    rw [returned_map]
    refine congrArg Value.map ((List.map_congr_left fun entry hentry => ?_).trans (List.map_id' _))
    rw [ih entry hentry (Ty.every_of_every_map ht)]
  | union hmem _ _ ih => exact ih (Ty.every_of_every_union ht _ hmem)
  | tokens _ ih => exact hlist fun v hv => ih v hv ht
  | recordOfFlag _ _ ih => exact ih ht
  | _ => exact returned_scalar _

/-- Whether a type of parameters is free-form data or a record that comes back as itself. -/
def isParams : DataType → Bool
  | .any => true
  | .record r => isUnaltered r
  | _ => false

theorem all_isParams (kind : MethodKind) :
    (kind.methods.all fun m => m.kind = kind && m.params?.all isParams) = true := by
  cases kind <;> rfl

namespace Method

variable {kind : MethodKind} {m : Method} {enabled : Bool} {version? : Option SpecVersion}
  {d : Json} {p : Datum}

theorem decodeParams_eq_ok_iff :
    m.decodeParams enabled version? d = .ok p ↔
      m.gate enabled = .ok () ∧
        decodePart enabled version? (.unexpectedParams m.name) m.params? d = .ok p := by
  rw [decodeParams, bind_eq_ok_iff]
  constructor
  · rintro ⟨⟨⟩, hgate, hread⟩
    exact ⟨hgate, hread⟩
  · rintro ⟨hgate, hread⟩
    exact ⟨(), hgate, hread⟩

theorem kind_eq_of_mem (hm : m ∈ kind.methods) : m.kind = kind := by
  have h := List.all_eq_true.1 (all_isParams kind) m hm
  rw [Bool.and_eq_true, decide_eq_true_iff] at h
  exact h.1

/-- Parameters are encoded in their wire form, and this is decoded as the same parameters. -/
theorem decodeParams_again (hm : m ∈ kind.methods)
    (h : m.decodeParams enabled version? d = .ok p) :
    m.encodeParams p = .ok (p.wire schema) ∧
      m.decodeParams enabled version? (p.wire schema) = .ok p := by
  have hparams := List.all_eq_true.1 (all_isParams kind) m hm
  rw [Bool.and_eq_true] at hparams
  rw [decodeParams_eq_ok_iff] at h ⊢
  obtain ⟨hgate, hread⟩ := h
  rw [and_iff_right hgate, encodeParams]
  cases ht? : m.params? with
  | none =>
    rw [ht?, decodePart] at hread
    split at hread
    · cases hread
      exact ⟨rfl, rfl⟩
    · cases hread
  | some t =>
    rw [ht?] at hread hparams
    replace hread : schema.decode enabled version? t d = .ok p := hread
    obtain ⟨hproposed, hread⟩ := Schema.decode_eq_ok_iff.1 hread
    have htyped : schema.isRegular t = true ∧ isSettled areAligned t = true ∧
        t.isOver isUnaltered = true ∧ isFieldType t = true := by
      cases t with
      | any => exact ⟨rfl, rfl, rfl, rfl⟩
      | record r => exact ⟨rfl, rfl, hparams.2, rfl⟩
      | _ => cases hparams.2
    obtain ⟨hregular, hsettled, hover, hfield⟩ := htyped
    have hp := hasType_of_decodeAt hregular hread
    have hagain := readsAgain _ d t p hregular hsettled hread
    rw [returned_of_hasType hover hp] at hagain
    constructor
    · rw [encodePart, (encode_and_encodeAs_of_hasType hp).2 hfield]
      rfl
    · exact Schema.decode_eq_ok_iff.2 ⟨hproposed, hagain⟩

end Method

/-! ## Messages -/

/-- The record of the messages of a kind. -/
def MethodKind.envelope : MethodKind → RecordName
  | .request => .requestMessage
  | .notification => .notificationMessage

/-- The message of a kind with some data for its parameters. A notification has no identifier. -/
def MethodKind.messageValue (kind : MethodKind) (method : String) (id : Scalar) (params : Json) :
    Datum :=
  match kind with
  | .request => .record .requestMessage [.str "2.0", .scalar id, .str method, .ofJson params]
  | .notification => .record .notificationMessage [.str "2.0", .str method, .ofJson params]

/-- What a message is sent as. Null parameters are left out. -/
def MethodKind.messageData (kind : MethodKind) (method : String) (id : Scalar) (params : Json) :
    Json :=
  .obj ((("jsonrpc", .str "2.0") :: match kind with
    | .request => [("id", .scalar id), ("method", .str method)]
    | .notification => [("method", .str method)]) ++
      if params = .null then [] else [("params", params)])

variable {kind : MethodKind} {m : Method} {method : String} {id : Scalar} {params : Json}

theorem isNull_ofJson (x : Json) : (Value.ofJson x : Datum).isNull = decide (x = .null) := by
  cases x with
  | scalar s => cases s <;> rfl
  | arr items => rfl
  | obj entries => rfl

theorem fields_requestMessage : (schema.record .requestMessage).fields =
    [⟨"jsonrpc", .str, .text "2.0", none, []⟩, .required "id" requestId,
      .required "method" .str, .free "params"] :=
  rfl

theorem fields_notificationMessage : (schema.record .notificationMessage).fields =
    [⟨"jsonrpc", .str, .text "2.0", none, []⟩, .required "method" .str, .free "params"] :=
  rfl

theorem hasType_requestId (hid : id.kind = .int ∨ id.kind = .str) :
    schema.HasType requestId (.scalar id) := by
  cases id with
  | int n => exact .union (t := .int) (by simp) (.int n) nofun
  | str s => exact .union (t := .str) (by simp) (.str s) nofun
  | _ => simp [Scalar.kind] at hid

theorem decodeAt_requestId {σ : Surface} (hid : id.kind = .int ∨ id.kind = .str) :
    schema.decodeAt σ requestId (.scalar id) = .ok (.scalar id) := by
  cases id with
  | int n => rfl
  | str s => rfl
  | _ => simp [Scalar.kind] at hid

theorem hasType_messageValue (hid : id.kind = .int ∨ id.kind = .str) :
    schema.HasType (.record kind.envelope) (kind.messageValue method id params) := by
  cases kind with
  | request =>
    refine .record rfl ?_ rfl
    simp only [MethodKind.envelope, fields_requestMessage, List.zip_cons_cons, List.zip_nil_right,
      List.forall_mem_cons]
    exact ⟨.str _, hasType_requestId hid, .str _, .any params, List.forall_mem_nil _⟩
  | notification =>
    refine .record rfl ?_ rfl
    simp only [MethodKind.envelope, fields_notificationMessage, List.zip_cons_cons,
      List.zip_nil_right, List.forall_mem_cons]
    exact ⟨.str _, .str _, .any params, List.forall_mem_nil _⟩

theorem wire_requestMessage (params : Datum) :
    (Value.record .requestMessage [.str "2.0", .scalar id, .str method, params]).wire schema =
      .obj ([("jsonrpc", .str "2.0"), ("id", .scalar id), ("method", .str method)] ++
        if params.isNull then [] else [("params", params.wire schema)]) := by
  cases params with
  | scalar s => cases s <;> rfl
  | _ => rfl

theorem wire_notificationMessage (params : Datum) :
    (Value.record .notificationMessage [.str "2.0", .str method, params]).wire schema =
      .obj ([("jsonrpc", .str "2.0"), ("method", .str method)] ++
        if params.isNull then [] else [("params", params.wire schema)]) := by
  cases params with
  | scalar s => cases s <;> rfl
  | _ => rfl

theorem wire_messageValue :
    (kind.messageValue method id params).wire schema = kind.messageData method id params := by
  cases kind with
  | request =>
    rw [MethodKind.messageValue, wire_requestMessage, isNull_ofJson, Value.wire_ofJson]
    simp [MethodKind.messageData]
  | notification =>
    rw [MethodKind.messageValue, wire_notificationMessage, isNull_ofJson, Value.wire_ofJson]
    simp [MethodKind.messageData]

/-- Free-form data that is left out while it is null is read as this data. -/
theorem fieldRead_params {σ : Surface} {entries : List (String × Json)}
    (h : entries.lookup "params" =
      (if params = .null then [] else [("params", params)]).lookup "params") :
    schema.FieldRead σ entries (.free "params") (.ofJson params) := by
  rw [fieldRead_iff_of_untagged rfl, show (Field.free "params" : Field RecordName EnumName).name =
    "params" from rfl, h]
  split_ifs with hnull
  · rw [hnull]
    exact .inr ⟨rfl, rfl⟩
  · exact .inl ⟨params, List.lookup_cons_self, Schema.decodeAt_any params⟩

/-- A message comes back from what it is sent as. -/
theorem decodeAt_messageData {σ : Surface} (hid : id.kind = .int ∨ id.kind = .str) :
    schema.decodeAt σ (.record kind.envelope) (kind.messageData method id params) =
      .ok (kind.messageValue method id params) := by
  have htext {f : Field RecordName EnumName} {entries : List (String × Json)} {text : String}
      (htag : f.tag = none) (hty : f.ty = .str)
      (hlookup : entries.lookup f.name = some (.str text)) :
      schema.FieldRead σ entries f (.str text) :=
    (fieldRead_iff_of_untagged htag).2 (.inl ⟨_, hlookup, by rw [hty]; rfl⟩)
  cases kind with
  | request =>
    rw [MethodKind.envelope, Schema.decodeAt_record_eq_ok_iff rfl (nodup_names _)]
    refine ⟨Surface.admits_none σ, _, _, rfl, rfl, ?_, ?_, rfl⟩
    · simp [fields_requestMessage, Field.isLiteral, Field.required, Field.free]
    · rw [fields_requestMessage, Schema.FieldsRead]
      refine .cons (htext rfl rfl rfl) (.cons ?_ (.cons (htext rfl rfl rfl)
        (.cons (fieldRead_params rfl) .nil)))
      exact (fieldRead_iff_of_untagged rfl).2 (.inl ⟨_, rfl, decodeAt_requestId hid⟩)
  | notification =>
    rw [MethodKind.envelope, Schema.decodeAt_record_eq_ok_iff rfl (nodup_names _)]
    refine ⟨Surface.admits_none σ, _, _, rfl, rfl, ?_, ?_, rfl⟩
    · simp [fields_notificationMessage, Field.isLiteral, Field.required, Field.free]
    · rw [fields_notificationMessage, Schema.FieldsRead]
      exact .cons (htext rfl rfl rfl) (.cons (htext rfl rfl rfl)
        (.cons (fieldRead_params rfl) .nil))

theorem message_eq_ok {enabled : Bool} {p : Datum} (hm : m ∈ kind.methods)
    (hgate : m.gate enabled = .ok ()) (hparams : m.encodeParams p = .ok params) :
    m.message enabled (.scalar id) p = .ok (kind.messageValue m.name id params) := by
  have hkind := m.kind_eq_of_mem hm
  refine bind_eq_ok_iff.2 ⟨(), hgate, bind_eq_ok_iff.2 ⟨params, hparams, ?_⟩⟩
  simp only [hkind]
  cases kind <;> rfl

/-- Decoded parameters are sent in a message, and they come back from it. The message has the name of
the method, an identifier if it is a request, and the encoded parameters unless these are null; it is
decoded as itself, and the parameters are decoded from the data in it. -/
theorem message_again {enabled : Bool} {version? : Option SpecVersion} {d : Json} {p : Datum}
    (hm : m ∈ kind.methods) (hversion : version? = some .v3_17 → enabled = true)
    (h : m.decodeParams enabled version? d = .ok p) (hid : id.kind = .int ∨ id.kind = .str) :
    ∃ message params, m.message enabled (.scalar id) p = .ok message ∧
      m.encodeParams p = .ok params ∧
      schema.encode message = .ok (kind.messageData m.name id params) ∧
      schema.decode enabled version? (.record kind.envelope) (kind.messageData m.name id params) =
        .ok message ∧
      (message.parts schema).lookup "params" = some (.ofJson params) ∧
      m.decodeParams enabled version? params = .ok p := by
  obtain ⟨hencode, hagain⟩ := Method.decodeParams_again hm h
  have hgate := (Method.decodeParams_eq_ok_iff.1 h).1
  refine ⟨kind.messageValue m.name id (p.wire schema), p.wire schema,
    message_eq_ok hm hgate hencode, hencode, ?_, ?_, ?_, hagain⟩
  · rw [encode_of_hasType (hasType_messageValue hid), wire_messageValue]
  · exact Schema.decode_eq_ok_iff.2
      ⟨Schema.enabled_of_isProposed hversion, decodeAt_messageData hid⟩
  · cases kind <;> rfl

/-- A method whose parameters are a record. -/
def hoverMethod : Method :=
  ⟨"textDocument/hover", none, some (.record .hoverParams), .data (.orNull (.record .hover))⟩

/-- The place of the cursor, with more entries after it. -/
def hoverData (more : List (String × Json)) : Json :=
  .obj ([("textDocument", .obj [("uri", .str "file:///a")]),
    ("position", .obj [("line", .int 1), ("character", .int 2)])] ++ more)

/-- The token is not available at 3.13, so it does not travel. -/
theorem message_again_hover :
    hoverMethod ∈ MethodKind.request.methods ∧
      ((some .v3_13 : Option SpecVersion) = some .v3_17 → false = true) ∧
      ((Scalar.str "7").kind = .int ∨ (Scalar.str "7").kind = .str) ∧
      ∃ p message, Method.decodeParams false (some .v3_13) hoverMethod
          (hoverData [("workDoneToken", .int 5)]) = .ok p ∧
        schema.encode message = .ok (.obj [("jsonrpc", .str "2.0"), ("id", .str "7"),
          ("method", .str "textDocument/hover"), ("params", hoverData [])]) ∧
        (message.parts schema).lookup "params" = some (.ofJson (hoverData [])) ∧
        Method.decodeParams false (some .v3_13) hoverMethod (hoverData []) = .ok p := by
  have hm : hoverMethod ∈ MethodKind.request.methods := by
    simp [MethodKind.methods, requests, hoverMethod]
  have hread : Method.decodeParams false (some .v3_13) hoverMethod
      (hoverData [("workDoneToken", .int 5)]) =
    .ok (.record .hoverParams [.record .textDocumentIdentifier [.str "file:///a"],
      .record .position [.int 1, .int 2], .null]) := rfl
  have hid : (Scalar.str "7").kind = .int ∨ (Scalar.str "7").kind = .str := .inr rfl
  have hversion : (some .v3_13 : Option SpecVersion) = some .v3_17 → false = true := nofun
  obtain ⟨message, params, -, hparams, hencode, -, hpart, hagain⟩ :=
    message_again hm hversion hread hid
  have hwire : params = hoverData [] := (Except.ok.inj hparams).symm
  rw [hwire] at hencode hpart hagain
  exact ⟨hm, hversion, hid, _, message, hread, hencode, hpart, hagain⟩

end LspWire.Protocol
