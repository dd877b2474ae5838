import LspWire.Proofs.RoundTrip.Alike

/-!
# Records that come back alike

A record comes back alike if its fields do. A field that is left out comes back as null, and nothing
else of a record depends on the values of its fields. The result of a response is lost beside an
error, which the written data does not show; the properties of an action come back as far as there
are any.
-/

namespace LspWire.Protocol

variable {σ : Surface} {r : RecordName} {values ys : List Datum}

/-- What comes back of a cell: the same data if it is written, null otherwise. -/
def CellComesAlike (σ : Surface) (written : List (Cell RecordName EnumName))
    (c : Cell RecordName EnumName) (y : Datum) : Prop :=
  schema.ComesBack σ written c y ∧
    (c ∈ written → (wireAs c.field.ty y).Same c.json ∧ y.isNull = c.value.isNull) ∧
    (c ∉ written → y = .null)

theorem exists_cellsComeAlike
    (hvisible : ∀ c ∈ (schema.record r).form.written (Value.cells schema r values),
      c.field.isVisible σ = true)
    (hdefault : ∀ c ∈ Value.cells schema r values,
      c ∉ (schema.record r).form.written (Value.cells schema r values) → c.field.default = .null)
    (h : ∀ p ∈ (schema.record r).fields.zip values, ComesAlike σ p.1.ty p.2) :
    ∃ ys, List.Forall₂
      (CellComesAlike σ ((schema.record r).form.written (Value.cells schema r values)))
      (Value.cells schema r values) ys := by
  refine Entries.exists_forall₂ fun c hc => ?_
  by_cases hwritten : c ∈ (schema.record r).form.written (Value.cells schema r values)
  · obtain ⟨p, hp, rfl⟩ := List.mem_map.1 hc
    obtain ⟨y, hread, hsame, hnull⟩ := h p hp
    rw [← json_cell p.1 p.2] at hread hsame
    exact ⟨y, .inl ⟨hwritten, hvisible _ hwritten, hread⟩, fun _ => ⟨hsame, hnull⟩,
      fun hunwritten => absurd hwritten hunwritten⟩
  · refine ⟨.null, .inr ⟨hwritten, ?_⟩, fun h => absurd h hwritten, fun _ => rfl⟩
    rw [hdefault c hc hwritten]
    rfl

/-- An integer comes back as itself, so it passes the checks that it has passed. -/
theorem checkInts_of_cells (hlength : values.length = (schema.record r).fields.length)
    (hfields : ∀ p ∈ (schema.record r).fields.zip values, schema.HasType p.1.ty p.2)
    (hchecks : schema.checkFields true r values = .ok ())
    (h : List.Forall₂
      (CellComesAlike σ ((schema.record r).form.written (Value.cells schema r values)))
      (Value.cells schema r values) ys) :
    List.Forall₂ (fun f v => f.ty = .int →
      schema.checkField true (schema.record r).name f v = .ok ()) (schema.record r).fields ys := by
  rw [Schema.checkFields_eq_ok_iff] at hchecks
  rw [← Schema.map_field_cells hlength, List.forall₂_map_left_iff]
  refine Entries.forall₂_imp_of_mem h fun c hc y _ hcy hint => ?_
  obtain ⟨p, hp, rfl⟩ := List.mem_map.1 hc
  dsimp only at hint ⊢
  obtain ⟨n, hn⟩ := (hint ▸ hfields p hp : schema.HasType .int p.2).exists_int
  obtain ⟨⟨-, -, hread⟩ | ⟨hunwritten, hdefault⟩, -, hnull⟩ := hcy
  · rw [json_cell, hint, hn] at hread
    obtain ⟨m, hm, rfl⟩ := Schema.decodeAt_int_eq_ok_iff.1 hread
    rw [wireAs_of_isRegular rfl, Value.wire_scalar, Json.scalar.injEq, Scalar.int.injEq] at hm
    have hcheck := hchecks p hp
    rw [hn, hm] at hcheck
    exact hcheck
  · -- An integer is never left out.
    have htyped := hasType_of_default (List.of_mem_zip hp).1 hdefault
    rw [hint, hnull hunwritten] at htyped
    cases htyped

/-- A record comes back alike if what comes back of its cells is written as the same data. -/
theorem comesAlike_record (hspread : (schema.record r).isSpread = false)
    (hv : schema.HasType (.record r) (.record r values))
    (hadmits : σ.admits (schema.record r).tag = true)
    (hliteral : ∀ c ∈ Value.cells schema r values, c.field.isLiteral = true →
      c ∈ (schema.record r).form.written (Value.cells schema r values))
    (h : List.Forall₂
      (CellComesAlike σ ((schema.record r).form.written (Value.cells schema r values)))
      (Value.cells schema r values) ys)
    (hsame : ((Value.record r ys : Datum).wire schema).Same
      ((Value.record r values).wire schema)) : ComesAlike σ (.record r) (.record r values) := by
  rw [comesAlike_iff rfl hv]
  obtain ⟨values', heq, hlength, hfields, hchecks⟩ := hv.exists_values
  cases heq
  have hback := h.imp fun c y hcy => hcy.1
  have hread := Schema.fieldsRead_wireRecord hspread (nodup_names r) hlength hback
  have hpass := checkFields_of_fieldsRead hread (checkInts_of_cells hlength hfields hchecks h)
  exact ⟨.record r ys, Schema.decodeAt_wireRecord hspread (nodup_names r) hlength hadmits hback
    hliteral hpass, hsame⟩

/-! ## Objects of fields -/

theorem same_wire_of_cells {fields : List (Field RecordName EnumName)}
    (hform : (schema.record r).form = .plain fields)
    (hlength : values.length = (schema.record r).fields.length)
    (h : List.Forall₂
      (CellComesAlike σ ((schema.record r).form.written (Value.cells schema r values)))
      (Value.cells schema r values) ys) :
    ((Value.record r ys : Datum).wire schema).Same ((Value.record r values).wire schema) := by
  have hspread : (schema.record r).isSpread = false := by rw [RecordDecl.isSpread, hform]
  have hcells : List.Forall₂
      (fun c c' => c'.field = c.field ∧ c'.value.isNull = c.value.isNull ∧
        (c ∈ (schema.record r).form.written (Value.cells schema r values) →
          c'.json.Same c.json)) (Value.cells schema r values) (Value.cells schema r ys) := by
    refine Entries.forall₂_imp_of_mem (Schema.forall₂_cells hlength h) fun c hc c' hc' hcell => ?_
    obtain ⟨⟨-, hwritten, hunwritten⟩, hfield, hdata⟩ := hcell
    refine ⟨hfield, ?_, fun hmem => ?_⟩
    · by_cases hmem : c ∈ (schema.record r).form.written (Value.cells schema r values)
      · exact (hwritten hmem).2
      · have hunset : c.isUnset = true := by
          rw [hform, Form.mem_written_plain] at hmem
          by_contra hset
          exact hmem ⟨hc, Bool.eq_false_iff.2 hset⟩
        rw [Cell.isUnset, Bool.and_eq_true] at hunset
        rw [hunwritten hmem, hunset.2]
        rfl
    · obtain ⟨f, y, x⟩ := c'
      obtain rfl : x = y.wire schema := hdata
      rw [json_cell, show f = c.field from hfield]
      exact (hwritten hmem).1
  rw [Value.wire_record, Value.wire_record, Schema.wireRecord_of_not_spread hspread,
    Schema.wireRecord_of_not_spread hspread, hform]
  rw [hform] at hcells
  refine .of_entries ?_
  rw [List.forall₂_map_left_iff, List.forall₂_map_right_iff]
  refine List.Forall₂.flip (Entries.forall₂_imp_of_mem
    (Form.forall₂_written_plain hcells fun c c' hc => ⟨hc.1, hc.2.1⟩) fun c hc c' _ hcell => ?_)
  exact ⟨congrArg Field.name hcell.1, hcell.2.2 hc⟩

theorem comesAlike_plain {fields : List (Field RecordName EnumName)}
    (hform : (schema.record r).form = .plain fields)
    (hv : schema.HasType (.record r) (.record r values))
    (ha : (Value.record r values : Datum).Available schema σ)
    (h : ∀ p ∈ (schema.record r).fields.zip values, ComesAlike σ p.1.ty p.2) :
    ComesAlike σ (.record r) (.record r values) := by
  have hspread : (schema.record r).isSpread = false := by rw [RecordDecl.isSpread, hform]
  obtain ⟨values', heq, hlength, hfields, hchecks⟩ := hv.exists_values
  cases heq
  cases ha with
  | record hadmits hset hparts =>
    have hcells : ∃ ys, List.Forall₂
        (CellComesAlike σ ((schema.record r).form.written (Value.cells schema r values)))
        (Value.cells schema r values) ys := by
      refine exists_cellsComeAlike (fun c hc => ?_) (fun c hc hunwritten => ?_) h
      · rw [hform, Form.mem_written_plain] at hc
        obtain ⟨hmem, hset'⟩ := hc
        obtain ⟨p, hp, rfl⟩ := List.mem_map.1 hmem
        rw [Cell.isUnset, Bool.and_eq_false_iff] at hset'
        rcases hset' with halways | hnull
        · exact isVisible_of_not_omittable (List.of_mem_zip hp).1 halways σ
        · exact hset p hp hnull
      · rw [hform, Form.mem_written_plain, not_and, Bool.not_eq_false, Cell.isUnset] at hunwritten
        have homittable := (Bool.and_eq_true _ _ ▸ hunwritten hc).1
        obtain ⟨p, hp, rfl⟩ := List.mem_map.1 hc
        exact (takesNull_of_omittable (List.of_mem_zip hp).1 homittable).1
    obtain ⟨ys, hys⟩ := hcells
    refine comesAlike_record hspread hv hadmits (fun c hc hliteral => ?_) hys
      (same_wire_of_cells hform hlength hys)
    rw [hform, Form.mem_written_plain]
    refine ⟨hc, ?_⟩
    obtain ⟨p, hp, rfl⟩ := List.mem_map.1 hc
    rw [Cell.isUnset, isOmittable_of_isLiteral (List.of_mem_zip hp).1 hliteral, Bool.false_and]

/-! ## Responses -/

theorem all_plain_responseMessage :
    ((schema.record .responseMessage).fields.all fun f => f.tag.isNone && !f.isLiteral) = true := by
  rfl

/-- The fields of a response belong to every version, and none of them is a fixed text. -/
theorem untagged_of_mem_responseMessage {c : Cell RecordName EnumName}
    (hc : c ∈ Value.cells schema .responseMessage values) :
    c.field.isVisible σ = true ∧ c.field.isLiteral = false := by
  obtain ⟨p, hp, rfl⟩ := List.mem_map.1 hc
  have hcondition := List.all_eq_true.1 all_plain_responseMessage _ (List.of_mem_zip hp).1
  rw [Bool.and_eq_true, Option.isNone_iff_eq_none, Bool.not_eq_true'] at hcondition
  rw [Field.isVisible, hcondition.1, Surface.admits_none]
  exact ⟨rfl, hcondition.2⟩

theorem default_of_not_written {jsonrpc id result error : Datum} {c : Cell RecordName EnumName}
    (hc : c ∈ Value.cells schema .responseMessage [jsonrpc, id, result, error])
    (h : c ∉ (schema.record .responseMessage).form.written
      (Value.cells schema .responseMessage [jsonrpc, id, result, error])) :
    c.field.default = .null := by
  rw [written_responseMessage] at h
  rw [cells_responseMessage] at hc
  simp only [List.mem_cons, List.not_mem_nil, or_false] at hc h
  obtain rfl | rfl | rfl | rfl := hc
  · exact absurd (.inl rfl) h
  · exact absurd (.inr (.inl rfl)) h
  · rfl
  · rfl

theorem same_wire_of_cells_responseMessage
    {jsonrpc id result error jsonrpc' id' result' error' : Datum}
    (h : List.Forall₂
      (CellComesAlike σ ((schema.record .responseMessage).form.written
        (Value.cells schema .responseMessage [jsonrpc, id, result, error])))
      (Value.cells schema .responseMessage [jsonrpc, id, result, error])
      [jsonrpc', id', result', error']) :
    ((Value.record .responseMessage [jsonrpc', id', result', error'] : Datum).wire schema).Same
      ((Value.record .responseMessage [jsonrpc, id, result, error]).wire schema) := by
  rw [Value.wire_record, Value.wire_record, wireRecord_responseMessage, wireRecord_responseMessage]
  rw [written_responseMessage, cells_responseMessage] at h
  simp only [List.forall₂_cons] at h
  obtain ⟨⟨-, hjsonrpc, -⟩, ⟨-, hid, -⟩, ⟨-, hresult, -⟩, ⟨-, herror, hnone⟩, -⟩ := h
  refine .of_entries (.cons ⟨rfl, (hjsonrpc List.mem_cons_self).1⟩
    (.cons ⟨rfl, (hid (List.mem_cons_of_mem _ List.mem_cons_self)).1⟩ (.cons ?_ .nil)))
  have hlast {c d e : Cell RecordName EnumName} : e ∈ [c, d, e] :=
    List.mem_cons_of_mem _ (List.mem_cons_of_mem _ List.mem_cons_self)
  cases hnull : error.isNull with
  | true =>
    simp only [hnull, if_true] at hresult hnone
    have hunwritten := hnone (by simp [Field.optional, Field.required, Field.free])
    rw [hunwritten]
    exact ⟨rfl, (hresult hlast).1⟩
  | false =>
    simp only [hnull, Bool.false_eq_true, if_false] at herror
    obtain ⟨hsame, hnull'⟩ := herror hlast
    rw [hnull']
    exact ⟨rfl, hsame⟩

theorem comesAlike_responseMessage
    (hv : schema.HasType (.record .responseMessage) (.record .responseMessage values))
    (ha : (Value.record .responseMessage values : Datum).Available schema σ)
    (h : ∀ p ∈ (schema.record .responseMessage).fields.zip values, ComesAlike σ p.1.ty p.2) :
    ComesAlike σ (.record .responseMessage) (.record .responseMessage values) := by
  obtain ⟨values', heq, hlength, hfields, hchecks⟩ := hv.exists_values
  cases heq
  match values, hlength with
  | [jsonrpc, id, result, error], hlength =>
    cases ha with
    | record hadmits hset hparts =>
      obtain ⟨ys, hys⟩ := exists_cellsComeAlike
        (fun c hc => (untagged_of_mem_responseMessage (Form.mem_of_mem_written hc)).1)
        (fun c hc => default_of_not_written hc) h
      match ys, hys.length_eq with
      | [jsonrpc', id', result', error'], _ =>
        refine comesAlike_record rfl hv hadmits (fun c hc hliteral => ?_) hys
          (same_wire_of_cells_responseMessage hys)
        rw [(untagged_of_mem_responseMessage (σ := σ) hc).2] at hliteral
        cases hliteral

/-! ## Actions -/

theorem filter_put (key : String) (x : Json) (entries : List (String × Json)) :
    ((Json.put key x entries).filter fun entry => entry.1 ≠ key) =
      entries.filter fun entry => entry.1 ≠ key := by
  induction entries with
  | nil => simp
  | cons entry entries ih =>
    obtain ⟨k, v⟩ := entry
    rw [Json.put]
    by_cases hk : k = key
    · rw [if_pos hk]
      simp [hk]
    · rw [if_neg hk, List.filter_cons, List.filter_cons, ih]

/-- An action is written as its properties with its title put among them. -/
theorem wireRecord_messageActionItem (title rest : Datum) :
    schema.wireRecord .messageActionItem (Value.cells schema .messageActionItem [title, rest]) =
      Json.put "title" (title.wire schema) (spreadData rest (rest.wire schema)) :=
  rfl

theorem otherEntries_messageActionItem (title rest : Datum) :
    Schema.otherEntries (.required "title" .str : Field RecordName EnumName)
        (schema.wireRecord .messageActionItem
          (Value.cells schema .messageActionItem [title, rest])) =
      (spreadData rest (rest.wire schema)).filter fun entry => entry.1 ≠ "title" :=
  filter_put _ _ _

theorem lookup_title (title rest : Datum) :
    (schema.wireRecord .messageActionItem
      (Value.cells schema .messageActionItem [title, rest])).lookup "title" =
        some (title.wire schema) :=
  (Entries.lookup_put _ _ _ _).trans (if_pos rfl)

theorem spreadData_map (entries : List (String × Datum)) :
    spreadData (.map entries) ((Value.map entries : Datum).wire schema) =
      entries.map fun entry => (entry.1, entry.2.wire schema) := by
  rw [Value.wire_map, spreadData, Value.isNothing]
  cases entries <;> rfl

/-- Entries are read as a map that adds the same entries to the object around it. -/
theorem exists_restRead {restTag : Option Tag} {item : DataType} {entries : List (String × Json)}
    {ys : List (String × Datum)} (hadmits : entries ≠ [] → σ.admits restTag = true)
    (hread : schema.EntriesRead σ item entries ys)
    (hsame : ((Value.map ys : Datum).wire schema).Same (.obj entries)) :
    ∃ rest, schema.RestRead σ restTag item entries rest ∧
      (rest.isNull = false → σ.admits restTag = true) ∧
      (Json.obj (spreadData rest (rest.wire schema))).Same (.obj entries) := by
  rw [Schema.EntriesRead] at hread
  cases entries with
  | nil =>
    refine ⟨.null, ?_, (fun h => by cases h), .refl _⟩
    rw [Schema.RestRead, List.isEmpty_nil, Bool.true_or, if_pos rfl]
  | cons entry entries =>
    have hvisible := hadmits (List.cons_ne_nil _ _)
    refine ⟨.map ys, ?_, fun _ => hvisible, ?_⟩
    · rw [Schema.RestRead, hvisible, if_neg (by simp)]
      exact ⟨ys, hread, rfl⟩
    · rw [spreadData_map, ← Value.wire_map]
      exact hsame

theorem exists_entriesRead_of_comesAlike {item : DataType} {rest : Datum} {key : String}
    (hrest : schema.HasType (.union [.map item, .null]) rest)
    (h : ComesAlike σ (.union [.map item, .null]) rest) :
    ∃ ys, schema.EntriesRead σ item
        ((spreadData rest (rest.wire schema)).filter fun entry => entry.1 ≠ key) ys ∧
      ((Value.map ys : Datum).wire schema).Same
        (.obj ((spreadData rest (rest.wire schema)).filter fun entry => entry.1 ≠ key)) := by
  obtain rfl | ⟨entries, rfl⟩ := hrest.null_or_map
  · exact ⟨[], .nil, .of_eq (Value.wire_map _)⟩
  · obtain ⟨y, hread, hsame, -⟩ := h
    change schema.decodeAt σ _ ((Value.map entries : Datum).wire schema) = .ok y at hread
    change (y.wire schema).Same ((Value.map entries : Datum).wire schema) at hsame
    have hne (x : List (String × Json)) : Json.obj x ≠ .null := nofun
    rw [Value.wire_map, Schema.decodeAt_union_singleton rfl fun h => hne _ h.1] at hread
    obtain ⟨entries', ys, heq, rfl, hys⟩ := Schema.decodeAt_map_eq_ok_iff.1 hread
    cases heq
    rw [spreadData_map]
    refine ⟨ys.filter fun y => y.1 ≠ key, ?_, ?_⟩
    · refine List.rel_filter (fun x y hxy => ?_) hys
      simp only [hxy.1]
    · rw [Value.wire_map, Value.wire_map] at hsame
      rw [Value.wire_map]
      refine .of_lookup fun key' => ?_
      have hkey := hsame.rel_lookup key'
      have hfilter (entries : List (String × Datum)) :
          (entries.filter fun y => y.1 ≠ key).map (fun y => (y.1, y.2.wire schema)) =
            (entries.map fun y => (y.1, y.2.wire schema)).filter fun y => y.1 ≠ key := by
        rw [List.filter_map]
        rfl
      rw [hfilter, Entries.lookup_filter_key (fun k => k ≠ key),
        Entries.lookup_filter_key (fun k => k ≠ key)]
      split
      · exact hkey
      · exact .none

/-- The properties of an action come back beside its title. -/
theorem comesAlike_messageActionItem
    (hv : schema.HasType (.record .messageActionItem) (.record .messageActionItem values))
    (ha : (Value.record .messageActionItem values : Datum).Available schema σ)
    (h : ∀ p ∈ (schema.record .messageActionItem).fields.zip values, ComesAlike σ p.1.ty p.2) :
    ComesAlike σ (.record .messageActionItem) (.record .messageActionItem values) := by
  rw [comesAlike_iff rfl hv]
  obtain ⟨values', heq, hlength, hfields, hchecks⟩ := hv.exists_values
  cases heq
  match values, hlength with
  | [title, rest], hlength =>
    cases ha with
    | record hadmits hset hparts =>
      simp only [fields_messageActionItem, List.zip_cons_cons, List.zip_nil_right,
        List.forall_mem_cons] at hfields hset h
      obtain ⟨htitle, hrest, -⟩ := hfields
      obtain ⟨text, rfl⟩ := htitle.exists_str
      obtain ⟨ys, hys, hsame⟩ := exists_entriesRead_of_comesAlike hrest h.2.1
      have hadmits' : (spreadData rest (rest.wire schema)).filter (fun entry => entry.1 ≠ "title") ≠
          [] → σ.admits (some (.since 16 true)) = true := by
        intro hne
        refine hset.2.1 (Bool.eq_false_iff.2 fun hnull => hne ?_)
        rw [Value.isNull_iff.1 hnull]
        rfl
      obtain ⟨restValue, hrestRead, hvisible, hsame'⟩ := exists_restRead hadmits' hys hsame
      refine ⟨.record .messageActionItem [.str text, restValue], ?_, ?_⟩
      · rw [Value.wire_record, Schema.decodeAt_spread_eq_ok_iff form_messageActionItem]
        refine ⟨_, .str text, .str text, restValue, rfl, rfl, ?_, rfl, ?_,
          Schema.gate_of_admits hadmits, checkFields_messageActionItem hvisible⟩
        · exact lookup_title _ _
        · rw [otherEntries_messageActionItem]
          exact hrestRead
      · rw [Value.wire_record, Value.wire_record, wireRecord_messageActionItem,
          wireRecord_messageActionItem]
        refine .of_lookup fun key => ?_
        rw [Entries.lookup_put, Entries.lookup_put]
        split
        · exact .some (.refl _)
        · rename_i hne
          have hkey := hsame'.rel_lookup key
          rw [Entries.lookup_filter_key (fun k => k ≠ "title"),
            if_pos (decide_eq_true hne)] at hkey
          exact hkey

end LspWire.Protocol
