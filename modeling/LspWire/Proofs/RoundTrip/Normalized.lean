import LspWire.Proofs.Orderly
import LspWire.Proofs.RoundTrip.Pruned
import LspWire.Proofs.RoundTrip.Records

/-!
# Decoding and encoding prunes

Data that is decoded and encoded again is the data with the edits of `pruned` and no others, up to the
order of keys. A field is settled first, with what stands under its name before and after; a record
compares what is found under every key. The induction is on the data.
-/

namespace LspWire.Protocol

variable {σ : Surface} {r : RecordName} {f : Field RecordName EnumName} {d : Json} {v : Datum}
  {entries : List (String × Json)}

/-- Whatever data is decoded as, the value is written as what is left of the data. -/
def IsPruned (σ : Surface) (d : Json) : Prop :=
  ∀ (t : DataType) (v : Datum), schema.isRegular t = true → schema.decodeAt σ t d = .ok v →
    (v.wire schema).Same (pruned σ v d)

/-! ## Fields -/

/-- What is written under the name of a field. -/
def written? (f : Field RecordName EnumName) (v : Datum) : Option Json :=
  if f.isOmittable && v.isNull then none else some (wireAs f.ty v)

/-- Whether a field for a record or a flag is null unless it is set. -/
def hasOmittableFlag (f : Field RecordName EnumName) : Bool :=
  match f.ty with
  | .recordOrFlag .. => f.isOmittable
  | _ => true

theorem all_hasOmittableFlag (r : RecordName) :
    (schema.record r).fields.all hasOmittableFlag = true := by
  cases r <;> rfl

/-- A field that nothing is shown for is written as its default. -/
theorem rel_written?_of_default (hf : f ∈ (schema.record r).fields)
    (h : schema.defaultValue? f.default = some v) :
    Option.Rel Json.Same (written? f v) (defaultData? f.default) := by
  cases holdsDefault hf h with
  | null hdefault =>
    rw [written?, Field.isOmittable, hdefault]
    exact .none
  | text hdefault hty =>
    have hregular : schema.isRegular f.ty = true := by
      rcases hty with hty | hty <;> rw [hty] <;> rfl
    rw [written?, Field.isOmittable, hdefault, wireAs_of_isRegular hregular, Value.str,
      Value.wire_scalar]
    exact .some (.refl _)
  | blank hdefault hty hblank =>
    rw [written?, Field.isOmittable, hdefault, hty, wireAs_of_isRegular rfl, wire_blank hblank]
    exact .some (.refl _)

theorem rel_written?_null (f : Field RecordName EnumName) :
    Option.Rel Json.Same (written? f .null)
      (if isRemoved f .null then none else some (editedData f.ty (pruned σ .null) .null)) := by
  rw [written?, isRemoved_null, editedData_null, wireAs_null, Json.null, pruned_scalar]
  cases f.isOmittable with
  | true => exact .none
  | false => exact .some (.refl _)

theorem rel_written?_of_not_null (hremoved : isRemoved f d = false) (hnull : v.isNull = false)
    (h : (wireAs f.ty v).Same (editedData f.ty (pruned σ v) d)) :
    Option.Rel Json.Same (written? f v)
      (if isRemoved f d then none else some (editedData f.ty (pruned σ v) d)) := by
  rw [written?, hremoved, hnull, Bool.and_false]
  exact .some h

theorem rel_written?_packed {r' : RecordName} (hty : f.ty = .packed r')
    (h : schema.decodeAt σ (.packed r') d = .ok v) :
    Option.Rel Json.Same (written? f v)
      (if isRemoved f d then none else some (editedData f.ty (pruned σ v) d)) := by
  obtain ⟨rfl, rfl⟩ | ⟨text, tokens, rfl, htokens, rfl⟩ := Schema.decodeAt_packed_eq_ok_iff.1 h
  · exact rel_written?_null f
  · obtain ⟨octets, hoctets, -⟩ := Token.exists_bytes_of_unpack htokens
    have hkept : isRemoved f (.str text) = false := by
      unfold isRemoved
      rw [hty]
    refine rel_written?_of_not_null hkept rfl (.of_eq ?_)
    rw [hty, wireAs, Cell.packedData, packed?_tokens, Option.getD_some,
      Token.pack_of_unpack htokens hoctets]
    change _ = Json.str (canonicalText text)
    rw [canonicalText, hoctets]
    rfl

/-- A flag in place of a record is removed or becomes the record of empty lists. -/
theorem rel_written?_recordOrFlag {r' : RecordName} {label : String}
    (hr : r' = .completionItemTagSupport) (hf : f ∈ (schema.record r).fields)
    (hty : f.ty = .recordOrFlag r' label)
    (ih : IsPruned σ d) (h : schema.decodeAt σ (.recordOrFlag r' label) d = .ok v) :
    Option.Rel Json.Same (written? f v)
      (if isRemoved f d then none else some (editedData f.ty (pruned σ v) d)) := by
  obtain ⟨rfl | rfl, rfl⟩ | ⟨rfl, rfl⟩ | ⟨entries, rfl, hrecord⟩ :=
    Schema.decodeAt_recordOrFlag_eq_ok_iff.1 h
  · exact rel_written?_null f
  · have homittable := of_all_fields (all_hasOmittableFlag r) hf
    rw [hasOmittableFlag, hty] at homittable
    have hremoved : isRemoved f (.bool false) = true := by
      unfold isRemoved
      rw [hty]
    rw [written?, hremoved, show f.isOmittable = true from homittable]
    exact .none
  · have hkept : isRemoved f (.bool true) = false := by
      unfold isRemoved
      rw [hty]
    refine rel_written?_of_not_null hkept rfl ?_
    rw [hty, hr]
    exact .refl _
  · have hkept : isRemoved f (.obj entries) = false := by
      unfold isRemoved
      rw [hty]
    obtain ⟨-, values, -, rfl⟩ := exists_of_decodeAt_record hrecord
    refine rel_written?_of_not_null hkept rfl ?_
    rw [hty]
    exact ih _ _ rfl hrecord

theorem isCodec_of_isRegular {t : DataType} (h : schema.isRegular t = true) :
    t.isCodec = false := by
  cases t <;> first | rfl | cases h

/-- What is written under the name of a field is what is left of what the object shows for it. -/
theorem rel_written? (hf : f ∈ (schema.record r).fields)
    (ih : ∀ d, entries.lookup f.name = some d → IsPruned σ d)
    (h : schema.FieldRead σ entries f v) :
    Option.Rel Json.Same (written? f v) (leftOf? σ entries f (pruned σ v)) := by
  rw [Schema.FieldRead] at h
  rw [leftOf?]
  cases hx : f.shown? σ entries with
  | none =>
    rw [hx] at h
    exact rel_written?_of_default hf h
  | some d =>
    rw [hx] at h
    change schema.decodeAt σ f.ty d = .ok v at h
    replace ih := ih d (Field.lookup_of_shown? hx)
    have hty := of_all_fields (all_hasFieldType r) hf
    rw [hasFieldType] at hty
    dsimp only
    split at hty
    · rename_i r' hpacked
      exact rel_written?_packed hpacked (hpacked ▸ h)
    · rename_i r' label hflag
      exact rel_written?_recordOrFlag (of_decide_eq_true hty) hf hflag ih (hflag ▸ h)
    · rw [isFieldType, Bool.and_eq_true] at hty
      have hcodec := isCodec_of_isRegular hty.1
      by_cases hnull : d = .null
      · subst hnull
        rw [eq_null_of_decodeAt_null hty.1 h]
        exact rel_written?_null f
      · refine rel_written?_of_not_null (isRemoved_of_not_codec hcodec hnull) ?_ ?_
        · rw [Bool.eq_false_iff, ne_eq, Value.isNull_iff]
          rintro rfl
          exact hnull (eq_null_of_decodeAt hty.1 h)
        · rw [wireAs_of_isRegular hty.1, editedData_of_not_codec hcodec]
          exact ih f.ty v hty.1 h

/-! ## Records -/

theorem prunedFields_eq_filterMap {fields : List (Field RecordName EnumName)}
    {values : List Datum} (hlength : values.length = fields.length)
    (entries : List (String × Json)) :
    prunedFields σ fields (values.map (pruned σ)) entries =
      (fields.zip values).filterMap fun p =>
        (leftOf? σ entries p.1 (pruned σ p.2)).map fun d => (p.1.name, d) := by
  rw [prunedFields, withEdits_eq_zip (by rwa [List.length_map]), List.zip_map_right,
    List.filterMap_map]
  rfl

theorem nodup_names_zip {values : List Datum}
    (hlength : values.length = (schema.record r).fields.length) :
    (((schema.record r).fields.zip values).map fun p => p.1.name).Nodup := by
  have hnames := nodup_names r
  rwa [← List.map_fst_zip (Nat.le_of_eq hlength.symm), List.map_map] at hnames

theorem lookup_prunedFields (σ : Surface) (entries : List (String × Json)) {values : List Datum}
    (hlength : values.length = (schema.record r).fields.length)
    {p : Field RecordName EnumName × Datum} (hp : p ∈ (schema.record r).fields.zip values) :
    (prunedFields σ (schema.record r).fields (values.map (pruned σ)) entries).lookup p.1.name =
      leftOf? σ entries p.1 (pruned σ p.2) := by
  rw [prunedFields_eq_filterMap hlength]
  exact Entries.lookup_filterMap (nodup_names_zip hlength) hp

/-- Keys without a field are removed. -/
theorem lookup_prunedFields_eq_none (σ : Surface) (entries : List (String × Json))
    {values : List Datum} (hlength : values.length = (schema.record r).fields.length)
    {key : String} (h : ∀ f ∈ (schema.record r).fields, f.name ≠ key) :
    (prunedFields σ (schema.record r).fields (values.map (pruned σ)) entries).lookup key = none := by
  rw [prunedFields_eq_filterMap hlength]
  exact Entries.lookup_filterMap_eq_none fun p hp => h p.1 (List.of_mem_zip hp).1

theorem same_pruned_plain {values : List Datum} (hr : isPlain r = true)
    (hread : schema.FieldsRead σ entries (schema.record r).fields values)
    (ih : ∀ part ∈ (Json.obj entries).parts, IsPruned σ part) :
    ((Value.record r values : Datum).wire schema).Same
      (pruned σ (.record r values) (.obj entries)) := by
  have hlength := hread.length_eq.symm
  have hpruned : prunedRecord σ r (values.map (pruned σ)) entries =
      prunedFields σ (schema.record r).fields (values.map (pruned σ)) entries := by
    rw [isPlain] at hr
    split at hr
    · rename_i hform
      rw [prunedRecord, hform]
    · cases hr
  rw [Value.wire_record, pruned_record, hpruned]
  refine .of_lookup fun key => ?_
  by_cases hkey : ∃ f ∈ (schema.record r).fields, f.name = key
  · obtain ⟨f, hf, rfl⟩ := hkey
    obtain ⟨v, hp⟩ := Entries.exists_mem_zip_left hread.length_eq hf
    have hwire := lookup_wireRecord hr hlength hp
    have hleft := lookup_prunedFields σ entries hlength hp
    rw [hwire, hleft, json_cell]
    refine rel_written? hf (fun d hd => ih d ?_) (List.forall₂_zip hread hp)
    exact List.mem_map.2 ⟨_, Entries.mem_of_lookup hd, rfl⟩
  · have hnone : ∀ f ∈ (schema.record r).fields, f.name ≠ key := fun f hf hname =>
      hkey ⟨f, hf, hname⟩
    rw [lookup_wireRecord_of_not_mem hr hnone, lookup_prunedFields_eq_none σ entries hlength hnone]
    exact .none

/-- A response is left with its error or with its result. -/
theorem prunedRecord_responseMessage (edits : List (Json → Json))
    (entries : List (String × Json)) :
    prunedRecord σ .responseMessage edits entries =
      if ((prunedFields σ (schema.record .responseMessage).fields edits entries).lookup
          "error").isSome then
        (prunedFields σ (schema.record .responseMessage).fields edits entries).filter fun entry =>
          entry.1 ≠ "result"
      else
        ((prunedFields σ (schema.record .responseMessage).fields edits entries).filter fun entry =>
          entry.1 ≠ "result") ++ [("result", (entries.lookup "result").getD .null)] := by
  rw [prunedRecord, form_responseMessage]
  rfl

theorem exists_of_rel_some {α β : Type} {q : α → β → Prop} {x : α} {y? : Option β}
    (h : Option.Rel q (some x) y?) : ∃ y, y? = some y ∧ q x y := by
  cases h with
  | some hxy => exact ⟨_, rfl, hxy⟩

theorem wire_result {result : Datum}
    (h : schema.FieldRead σ entries (.free "result") result) :
    result.wire schema = (entries.lookup "result").getD .null := by
  rw [fieldRead_iff_of_untagged rfl] at h
  obtain ⟨x, hx, hread⟩ | ⟨hx, hdefault⟩ := h
  · replace hx : entries.lookup "result" = some x := hx
    replace hread : schema.decodeAt σ .any x = .ok result := hread
    rw [Schema.decodeAt_any, Except.ok.injEq] at hread
    rw [hx, ← hread, Value.wire_ofJson, Option.getD_some]
  · replace hx : entries.lookup "result" = none := hx
    cases hdefault
    rw [hx, Option.getD_none, Value.null, Value.wire_scalar]

theorem same_pruned_responseMessage {values : List Datum}
    (hread : schema.FieldsRead σ entries (schema.record .responseMessage).fields values)
    (ih : ∀ part ∈ (Json.obj entries).parts, IsPruned σ part) :
    ((Value.record .responseMessage values : Datum).wire schema).Same
      (pruned σ (.record .responseMessage values) (.obj entries)) := by
  match values, hread.length_eq with
  | [jsonrpc, id, result, error], hlength =>
    have hrel : ∀ p ∈ (schema.record .responseMessage).fields.zip [jsonrpc, id, result, error],
        Option.Rel Json.Same (written? p.1 p.2) (leftOf? σ entries p.1 (pruned σ p.2)) :=
      fun p hp => rel_written? (List.of_mem_zip hp).1
        (fun d hd => ih d (List.mem_map.2 ⟨_, Entries.mem_of_lookup hd, rfl⟩))
        (List.forall₂_zip hread hp)
    change ∀ p ∈ [(_, jsonrpc), (_, id), (_, result), (_, error)], _ at hrel
    simp only [List.forall_mem_cons] at hrel
    obtain ⟨hjsonrpc, hid, -, herror, -⟩ := hrel
    obtain ⟨jsonrpc', hjsonrpc', hsame⟩ := exists_of_rel_some hjsonrpc
    obtain ⟨id', hid', hsame'⟩ := exists_of_rel_some hid
    have hfound := lookup_prunedFields σ entries hlength.symm
      (List.mem_cons_of_mem _ (List.mem_cons_of_mem _ (List.mem_cons_of_mem _ List.mem_cons_self)))
    have hothers : (prunedFields σ (schema.record .responseMessage).fields
        ([jsonrpc, id, result, error].map (pruned σ)) entries).filter (fun entry =>
          entry.1 ≠ "result") =
        [("jsonrpc", jsonrpc'), ("id", id')] ++
          ((leftOf? σ entries (.optional "error" (.record .responseError))
            (pruned σ error)).map fun d => ("error", d)).toList := by
      rw [prunedFields_eq_filterMap hlength.symm]
      change ((List.filterMap _ [(_, jsonrpc), (_, id), (_, result), (_, error)]).filter _) = _
      simp only [List.filterMap_cons, hjsonrpc', hid', List.filterMap_nil]
      cases leftOf? σ entries (.free "result") (pruned σ result) <;>
        cases leftOf? σ entries (.optional "error" (.record .responseError)) (pruned σ error) <;>
        rfl
    have hresult : schema.FieldRead σ entries (.free "result") result :=
      List.forall₂_zip hread (List.mem_cons_of_mem _ (List.mem_cons_of_mem _ List.mem_cons_self))
    rw [Value.wire_record, wireRecord_responseMessage, pruned_record, prunedRecord_responseMessage,
      hothers]
    change Option.Rel Json.Same (if true && error.isNull then none else some (error.wire schema)) _
      at herror
    change List.lookup "error" _ =
      leftOf? σ entries (.optional "error" (.record .responseError)) (pruned σ error) at hfound
    rw [hfound]
    cases hnull : error.isNull with
    | true =>
      rw [hnull] at herror
      generalize leftOf? σ entries _ (pruned σ error) = left at herror
      cases herror
      exact .of_entries (.cons ⟨rfl, hsame⟩ (.cons ⟨rfl, hsame'⟩
        (.cons ⟨rfl, .of_eq (wire_result hresult)⟩ .nil)))
    | false =>
      rw [hnull] at herror
      obtain ⟨error', herror', hsame''⟩ := exists_of_rel_some herror
      rw [herror']
      exact .of_entries (.cons ⟨rfl, hsame⟩ (.cons ⟨rfl, hsame'⟩ (.cons ⟨rfl, hsame''⟩ .nil)))

/-! ## Actions -/

theorem map_wire_of_entriesRead {item : DataType} {values : List (String × Datum)}
    (hitem : ∀ d v, schema.decodeAt σ item d = .ok v → v.wire schema = d)
    (h : schema.EntriesRead σ item entries values) :
    values.map (fun entry => (entry.1, entry.2.wire schema)) = entries := by
  rw [Schema.EntriesRead] at h
  induction h with
  | nil => rfl
  | @cons entry value _ _ hentry _ ih =>
    rw [List.map_cons, ih, ← hentry.1, hitem entry.2 value.2 hentry.2]

theorem wire_of_decodeAt_property (h : schema.decodeAt σ messageActionItemProperty d = .ok v) :
    v.wire schema = d := by
  have hregular : schema.isRegular messageActionItemProperty = true := rfl
  obtain ⟨rfl, rfl⟩ | ⟨e, raw, hothers, -⟩ | ⟨t, ht, hread⟩ := cases_of_regular_union hregular h
  · exact Value.wire_scalar _
  · cases hothers
  · cases d with
    | scalar s => exact wire_of_decodeAt_scalar hregular h
    | _ =>
      simp only [List.mem_cons, List.not_mem_nil, or_false] at ht
      obtain rfl | rfl | rfl | rfl := ht
      · obtain ⟨b, hb, -⟩ := Schema.decodeAt_bool_eq_ok_iff.1 hread
        cases hb
      · obtain ⟨n, hn, -⟩ := Schema.decodeAt_int_eq_ok_iff.1 hread
        cases hn
      · obtain ⟨s, hs, -⟩ := Schema.decodeAt_str_eq_ok_iff.1 hread
        cases hs
      · obtain ⟨entries, values, heq, rfl, hvalues⟩ := Schema.decodeAt_map_eq_ok_iff.1 hread
        rw [Value.wire_map, heq, map_wire_of_entriesRead (fun d v hany => ?_) hvalues]
        rw [Schema.decodeAt_any, Except.ok.injEq] at hany
        rw [← hany, Value.wire_ofJson]

/-- Beside its title an action is written with all keys if its properties belong to the surface. -/
theorem lookup_spreadData {restTag : Option Tag} {key : Field RecordName EnumName} {rest : Datum}
    (h : schema.RestRead σ restTag messageActionItemProperty (Schema.otherEntries key entries) rest)
    {name : String} (hname : name ≠ key.name) :
    (spreadData rest (rest.wire schema)).lookup name =
      if σ.admits restTag then entries.lookup name else none := by
  have hothers : (Schema.otherEntries key entries).lookup name = entries.lookup name :=
    (Entries.lookup_filter_key (fun name => name ≠ key.name) entries name).trans
      (if_pos (decide_eq_true hname))
  rw [Schema.RestRead] at h
  split at h
  · rename_i hempty
    subst h
    change none = _
    rw [Bool.or_eq_true, List.isEmpty_iff, Bool.not_eq_true'] at hempty
    rcases hempty with hempty | hhidden
    · rw [← hothers, hempty, List.lookup_nil, ite_self]
    · rw [hhidden, if_neg Bool.false_ne_true]
  · rename_i hset
    rw [Bool.or_eq_true, not_or, Bool.not_eq_true', Bool.not_eq_false] at hset
    obtain ⟨values, hvalues, rfl⟩ := h
    rw [spreadData_map, hset.2, if_pos rfl,
      map_wire_of_entriesRead (fun d v => wire_of_decodeAt_property) hvalues, hothers]

theorem prunedRecord_messageActionItem (edits : List (Json → Json))
    (entries : List (String × Json)) :
    prunedRecord σ .messageActionItem edits entries =
      if σ.admits (some (.since 16 true)) then entries
      else entries.filter fun entry => entry.1 = "title" := by
  rw [prunedRecord, form_messageActionItem]
  rfl

theorem same_pruned_messageActionItem {values : List Datum}
    (h : schema.decodeAt σ (.record .messageActionItem) (.obj entries) =
      .ok (.record .messageActionItem values)) :
    ((Value.record .messageActionItem values : Datum).wire schema).Same
      (pruned σ (.record .messageActionItem values) (.obj entries)) := by
  rw [Schema.decodeAt_spread_eq_ok_iff form_messageActionItem] at h
  obtain ⟨entries', d, title, rest, heq, heq', hd, htitle, hrest, -⟩ := h
  cases heq
  cases heq'
  replace hd : entries.lookup "title" = some d := hd
  obtain ⟨text, rfl, rfl⟩ := Schema.decodeAt_str_eq_ok_iff.1 htitle
  rw [Value.wire_record, pruned_record, prunedRecord_messageActionItem,
    wireRecord_messageActionItem]
  refine .of_lookup fun name => ?_
  rw [Entries.lookup_put, Value.str, Value.wire_scalar]
  have hfilter := Entries.lookup_filter_key (fun name => name = "title") entries name
  by_cases hname : name = "title"
  · subst hname
    rw [if_pos rfl]
    split
    · rw [hd]
      exact .some (.refl _)
    · rw [hfilter, if_pos (decide_eq_true rfl), hd]
      exact .some (.refl _)
  · rw [if_neg hname, lookup_spreadData hrest hname]
    have hrefl (d? : Option Json) : Option.Rel Json.Same d? d? := by
      cases d? with
      | none => exact .none
      | some d => exact .some (.refl d)
    split
    · exact hrefl _
    · rw [hfilter, if_neg (by simpa using hname)]
      exact .none

/-! ## All data -/

theorem same_pruned_record {values : List Datum}
    (h : schema.decodeAt σ (.record r) (.obj entries) = .ok (.record r values))
    (ih : ∀ part ∈ (Json.obj entries).parts, IsPruned σ part) :
    ((Value.record r values : Datum).wire schema).Same
      (pruned σ (.record r values) (.obj entries)) := by
  by_cases hspread : r = .messageActionItem
  · subst hspread
    exact same_pruned_messageActionItem h
  · have hform : (schema.record r).isSpread = false := by
      rw [isSpread_record, beq_eq_false_iff_ne]
      exact hspread
    rw [Schema.decodeAt_record_eq_ok_iff hform (nodup_names r)] at h
    obtain ⟨-, entries', values', heq, heq', -, hread, -⟩ := h
    cases heq
    cases heq'
    by_cases hplain : isPlain r = true
    · exact same_pruned_plain hplain hread ih
    · rw [isPlain_record, Bool.not_eq_true', Bool.not_eq_false, Bool.or_eq_true, beq_iff_eq,
        beq_iff_eq] at hplain
      obtain rfl := hplain.resolve_left hspread
      exact same_pruned_responseMessage hread ih

theorem isPruned (σ : Surface) (d : Json) : IsPruned σ d := by
  induction d using Json.partsInduction with
  | step d ih =>
    intro t v ht h
    cases reads_of_decodeAt ht h with
    | scalar hwire =>
      rw [hwire, pruned_scalar]
    | list item hitem hvalues =>
      rw [Value.wire_list, pruned_list hvalues.length_eq.symm]
      exact .of_forall₂ (Entries.forall₂_map_zipWith hvalues fun d hd v hread =>
        ih d hd item v hitem hread)
    | map item hitem hvalues =>
      rw [Value.wire_map, pruned_map hvalues.length_eq.symm]
      exact .of_entries (Entries.forall₂_map_zipWith hvalues fun entry hentry value hread =>
        ⟨hread.1.symm, ih entry.2 (List.mem_map_of_mem hentry) item value.2 hitem hread.2⟩)
    | record hrecord => exact same_pruned_record hrecord ih

/-- Data that is decoded and encoded again is the data with the edits of `pruned`, made along the
records that decoding has chosen, and no others. -/
theorem encode_decode_eq_pruned {type : TypeRef} {t : DataType} {enabled : Bool}
    {version? : Option SpecVersion} (ht : type.resolve = .ok t) (hsteady : isSteady t = true)
    (h : schema.decode enabled version? t d = .ok v) :
    ∃ y, schema.encode v = .ok y ∧
      y.Same (pruned ⟨version?.getD (Surface.defaultVersion enabled), enabled⟩ v d) := by
  have hregular := (isOrderly_of_resolve ht hsteady).regular
  have hread := (Schema.decode_eq_ok_iff.1 h).2
  exact ⟨v.wire schema, encode_of_hasType (hasType_of_decodeAt hregular hread),
    isPruned _ d t v hregular hread⟩

theorem encode_decode_initializeParams :
    (TypeRef.named "InitializeParams").resolve = .ok (.record .initializeParams) ∧
      isSteady (.record .initializeParams) = true ∧
      ∃ v y, schema.decode false (some .v3_13) (.record .initializeParams)
          (.obj [("extra", .int 1), ("processId", .null), ("rootUri", .null), ("trace", .null),
            ("locale", .str "en"), ("initializationOptions", .obj [("deep", .null)])]) = .ok v ∧
        schema.encode v = .ok y ∧
        y.Same (.obj [("processId", .null), ("rootUri", .null), ("capabilities", .obj []),
          ("initializationOptions", .obj [("deep", .null)])]) := by
  have hresolve : (TypeRef.named "InitializeParams").resolve = .ok (.record .initializeParams) :=
    rfl
  have hread : schema.decode false (some .v3_13) (.record .initializeParams)
      (.obj [("extra", .int 1), ("processId", .null), ("rootUri", .null), ("trace", .null),
        ("locale", .str "en"), ("initializationOptions", .obj [("deep", .null)])]) =
    .ok (.record .initializeParams [.null, .null, schema.blank .clientCapabilities, .null, .null,
      .null, .map [("deep", .null)], .null, .null, .null]) := rfl
  obtain ⟨y, hy, hsame⟩ := encode_decode_eq_pruned hresolve rfl hread
  exact ⟨hresolve, rfl, _, y, hread, hy, hsame⟩

end LspWire.Protocol
