import LspWire.Proofs.RoundTrip.Choices

/-!
# Fields that are read again

What a field has been read as is written as data that is read as what the value comes back as. A
field that is left out takes its default again, and the default of a field that always appears is
written like any other value.
-/

namespace LspWire.Protocol

variable {σ : Surface} {r : RecordName} {f : Field RecordName EnumName} {d : Json} {v : Datum}

/-- Whatever data is read as, the value is written as data that is read as what the value comes
back as. -/
def ReadsAgain (σ : Surface) (d : Json) : Prop :=
  ∀ (t : DataType) (v : Datum), schema.isRegular t = true → isSettled areAligned t = true →
    schema.decodeAt σ t d = .ok v → schema.decodeAt σ t (v.wire schema) = .ok (returned v)

theorem isNotebookSync_eq_false (hf : f ∈ (schema.record r).fields) (h : f.ty ≠ notebookSync) :
    isNotebookSync r f = false := by
  have haligned := of_all_fields (all_hasAlignedType r) hf
  rw [hasAlignedType] at haligned
  split at haligned
  · exact absurd (Ty.eq_of_same haligned) h
  · rename_i hsync
    exact Bool.eq_false_iff.2 hsync

/-! ## Objects of fields -/

/-- A record of fields is read again if each of them is, and those that are left out come back as
null. -/
theorem decodeAt_wire_plain {values : List Datum} {g : Field RecordName EnumName × Datum → Datum}
    (hr : isPlain r = true) (hadmits : σ.admits (schema.record r).tag = true)
    (hlength : values.length = (schema.record r).fields.length)
    (hset : ∀ p ∈ (schema.record r).fields.zip values, (p.1.isOmittable && p.2.isNull) = false →
      p.1.isVisible σ = true ∧ schema.decodeAt σ p.1.ty (wireAs p.1.ty p.2) = .ok (g p))
    (hunset : ∀ p ∈ (schema.record r).fields.zip values, p.2 = .null → g p = .null)
    (hints : ∀ p ∈ (schema.record r).fields.zip values, p.1.ty = .int →
      schema.checkField true (schema.record r).name p.1 (g p) = .ok ()) :
    schema.decodeAt σ (.record r) ((Value.record r values : Datum).wire schema) =
      .ok (.record r (((schema.record r).fields.zip values).map g)) := by
  have hwritten (c : Cell RecordName EnumName) :
      c ∈ (schema.record r).form.written (Value.cells schema r values) ↔
        c ∈ Value.cells schema r values ∧ c.isUnset = false := by
    rw [isPlain] at hr
    split at hr
    · rename_i hform
      rw [hform, Form.mem_written_plain]
    · cases hr
  have hspread := isSpread_of_isPlain hr
  have hback : List.Forall₂
      (schema.ComesBack σ ((schema.record r).form.written (Value.cells schema r values)))
      (Value.cells schema r values) (((schema.record r).fields.zip values).map g) := by
    rw [Schema.cells_eq_map, List.forall₂_map_left_iff, List.forall₂_map_right_iff,
      List.forall₂_same]
    intro p hp
    rw [Schema.ComesBack, ← Schema.cells_eq_map, hwritten, and_iff_right (mem_cells hp),
      Cell.isUnset, json_cell]
    by_cases hnull : (p.1.isOmittable && p.2.isNull) = true
    · refine .inr ⟨by simp [hnull], ?_⟩
      rw [Bool.and_eq_true, Value.isNull_iff] at hnull
      rw [(takesNull_of_omittable (List.of_mem_zip hp).1 hnull.1).1, hunset p hp hnull.2]
      rfl
    · rw [Bool.not_eq_true] at hnull
      exact .inl ⟨hnull, hset p hp hnull⟩
  refine Schema.decodeAt_wireRecord hspread (nodup_names r) hlength hadmits hback
    (fun c hc hliteral => (hwritten c).2 ⟨hc, ?_⟩) ?_
  · obtain ⟨p, hp, rfl⟩ := List.mem_map.1 hc
    rw [Cell.isUnset, isOmittable_of_isLiteral (List.of_mem_zip hp).1 hliteral, Bool.false_and]
  · exact checkFields_of_fieldsRead
      (Schema.fieldsRead_wireRecord hspread (nodup_names r) hlength hback)
      (Entries.forall₂_map_zip hlength.symm hints)

/-! ## Defaults -/

theorem decodeAt_blank (hadmits : σ.admits (schema.record r).tag = true)
    (h : ((schema.record r).fields.all fun f => f.isOmittable && f.checks.isEmpty) = true) :
    schema.decodeAt σ (.record r) ((schema.blank r).wire schema) = .ok (schema.blank r) ∧
      returned (schema.blank r) = schema.blank r := by
  have hr := isPlain_of_all_omittable h
  have hlength : ((schema.record r).fields.map fun _ => (.null : Datum)).length =
      (schema.record r).fields.length := List.length_map _
  have hnull : ∀ p ∈ (schema.record r).fields.zip ((schema.record r).fields.map fun _ => .null),
      p.2 = (.null : Datum) := by
    intro p hp
    obtain ⟨-, -, hnull⟩ := List.mem_map.1 (List.of_mem_zip hp).2
    exact hnull.symm
  have hfields {p : Field RecordName EnumName × Datum}
      (hp : p ∈ (schema.record r).fields.zip ((schema.record r).fields.map fun _ => .null)) :
      p.1.isOmittable = true ∧ p.1.checks = [] := by
    have hcondition := List.all_eq_true.1 h p.1 (List.of_mem_zip hp).1
    rw [Bool.and_eq_true, List.isEmpty_iff] at hcondition
    exact hcondition
  rw [blank_eq h]
  constructor
  · have hread := decodeAt_wire_plain (g := Prod.snd) hr hadmits hlength
      (fun p hp hset => by
        rw [(hfields hp).1, hnull p hp] at hset
        cases hset)
      (fun p hp hp' => hp')
      (fun p hp _ => by
        rw [hnull p hp]
        refine Schema.checkField_eq_ok_iff.2 ⟨nofun, ?_⟩
        rw [(hfields hp).2]
        exact List.forall_mem_nil _)
    rw [hread, List.map_snd_zip (Nat.le_of_eq hlength)]
  · have hne : r ≠ .responseMessage := by
      rintro rfl
      cases hr
    rw [returned_record, returnedFields_of_ne hne]
    refine congrArg (Value.record r) ((List.map_congr_left fun p hp => ?_).trans
      (List.map_snd_zip (Nat.le_of_eq hlength)))
    rw [hnull p hp, Value.null, returned_scalar, returnedField_scalar]

theorem decodeAt_default (hf : f ∈ (schema.record r).fields)
    (h : schema.defaultValue? f.default = some v) (halways : f.isOmittable = false) :
    schema.decodeAt σ f.ty (wireAs f.ty v) = .ok (returnedField r f (returned v)) := by
  have hstable := of_all_fields (all_hasStableDefault r) hf
  cases holdsDefault hf h with
  | null hdefault =>
    rw [Field.isOmittable, hdefault] at halways
    cases halways
  | text hdefault hty =>
    rw [Value.str, returned_scalar, returnedField_scalar]
    rcases hty with hty | hty
    · rw [hty, wireAs_of_isRegular rfl, Value.wire_scalar]
      exact Schema.decodeAt_str_eq_ok_iff.2 ⟨_, rfl, rfl⟩
    · rw [hty, wireAs_of_isRegular rfl, Value.wire_scalar]
      exact Schema.decodeAt_literal_eq_ok_iff.2 ⟨rfl, rfl⟩
  | @blank r' hdefault hty hblank =>
    rw [hasStableDefault, hdefault, Option.isNone_iff_eq_none] at hstable
    have hadmits : σ.admits (schema.record r').tag = true := by rw [hstable, Surface.admits_none]
    obtain ⟨hread, hreturned⟩ := decodeAt_blank hadmits hblank
    rw [hreturned, returnedField_of_ne (isNotebookSync_eq_false hf (by simp [hty, notebookSync])), hty]
    exact hread

/-! ## Wire forms of their own -/

theorem returned_tokens {r : RecordName} (hr : r = .semanticHighlightingToken)
    (tokens : List Token) :
    returned (.list (tokens.map (Schema.tokenValue r))) =
      .list (tokens.map (Schema.tokenValue (E := EnumName) r)) := by
  subst hr
  have hne : RecordName.semanticHighlightingToken ≠ .responseMessage := nofun
  rw [returned_list, List.map_map]
  refine congrArg Value.list (List.map_congr_left fun t _ => ?_)
  rw [Function.comp_apply, Schema.tokenValue, returned_record, returnedFields_of_ne hne]
  rfl

theorem decodeAt_packed_again {r' : RecordName} (hr : r' = .semanticHighlightingToken)
    (h : schema.decodeAt σ (.packed r') d = .ok v) :
    schema.decodeAt σ (.packed r') (wireAs (.packed r') v) = .ok (returned v) := by
  rw [Schema.decodeAt_packed_eq_ok_iff] at h ⊢
  obtain ⟨-, rfl⟩ | ⟨text, tokens, -, htokens, rfl⟩ := h
  · exact .inl ⟨rfl, returned_scalar _⟩
  · refine .inr ⟨Token.pack tokens, tokens, ?_, Token.unpack_pack (Token.fits_of_unpack htokens),
      returned_tokens hr tokens⟩
    rw [wireAs, Cell.packedData, packed?_tokens]
    rfl

theorem decodeAt_ofTrue
    (hadmits : σ.admits (schema.record .completionItemTagSupport).tag = true) :
    schema.decodeAt σ (.record .completionItemTagSupport)
        ((Value.record .completionItemTagSupport [.list []] : Datum).wire schema) =
      .ok (.record .completionItemTagSupport [.list []]) := by
  refine decodeAt_wire_plain (g := Prod.snd) rfl hadmits rfl (fun p hp _ => ?_)
    (fun p hp hnull => hnull) fun p hp hint => ?_
  · rw [List.mem_singleton.1 hp]
    exact ⟨Surface.admits_none σ, Schema.decodeAt_list_eq_ok_iff.2 ⟨[], [], rfl, rfl, .nil⟩⟩
  · rw [List.mem_singleton.1 hp] at hint
    cases hint

theorem decodeAt_recordOrFlag_again {r' : RecordName} {label : String}
    (hr : r' = .completionItemTagSupport) (hadmits : σ.admits (schema.record r').tag = true)
    (ih : ReadsAgain σ d) (h : schema.decodeAt σ (.recordOrFlag r' label) d = .ok v) :
    schema.decodeAt σ (.recordOrFlag r' label) (v.wire schema) = .ok (returned v) := by
  subst hr
  rw [Schema.decodeAt_recordOrFlag_eq_ok_iff] at h ⊢
  obtain ⟨-, rfl⟩ | ⟨-, rfl⟩ | ⟨entries, rfl, hrecord⟩ := h
  · exact .inl ⟨.inl (Value.wire_scalar _), returned_scalar _⟩
  · exact .inr (.inr ⟨_, Value.wire_record _ _, decodeAt_ofTrue hadmits⟩)
  · obtain ⟨-, values, -, rfl⟩ := exists_of_decodeAt_record hrecord
    exact .inr (.inr ⟨_, Value.wire_record _ _, ih _ _ rfl rfl hrecord⟩)

/-! ## Synchronization of notebooks -/

theorem returned_registrationOptions (selector save id : Datum) :
    returned (.record .notebookDocumentSyncRegistrationOptions [selector, save, id]) =
      .record .notebookDocumentSyncRegistrationOptions
        [returned selector, returned save, returned id] := by
  have hne : RecordName.notebookDocumentSyncRegistrationOptions ≠ .responseMessage := nofun
  rw [returned_record, returnedFields_of_ne hne]
  rfl

/-- The keys of a registration are those of options just if it has no identifier. -/
theorem accounts_registrationOptions (selector save id : Datum) :
    schema.accounts (.record .notebookDocumentSyncOptions)
        ((Value.record .notebookDocumentSyncRegistrationOptions [selector, save, id] :
          Datum).wire schema) = id.isNull := by
  have hplain : isPlain .notebookDocumentSyncRegistrationOptions = true := rfl
  rw [accounts_wire_record hplain]
  change ((false && selector.isNull || true) && ((true && save.isNull || true) &&
    ((true && id.isNull || false) && true))) = id.isNull
  simp only [Bool.or_true, Bool.true_and, Bool.or_false, Bool.and_true]

theorem decodeAt_registrationOptions {x : Json} {selector save id : Datum}
    (h : schema.decodeAt σ (.record .notebookDocumentSyncRegistrationOptions) x =
      .ok (.record .notebookDocumentSyncRegistrationOptions [selector, save, id])) :
    schema.decodeAt σ (.record .notebookDocumentSyncOptions) x =
      .ok (.record .notebookDocumentSyncOptions [selector, save]) := by
  rw [Schema.decodeAt_record_eq_ok_iff rfl (nodup_names _)] at h
  obtain ⟨hadmits, entries, values, rfl, heq, -, hread, -⟩ := h
  cases heq
  cases hread with
  | cons hselector hread =>
    cases hread with
    | cons hsave hread =>
      have hwithin : isWithin .notebookDocumentSyncOptions
          .notebookDocumentSyncRegistrationOptions = true := rfl
      exact decodeAt_of_fieldsRead rfl hwithin hadmits (.cons hselector (.cons hsave .nil))

/-- A registration that is read again comes back as itself or, without an identifier, as options. -/
theorem chosen?_registrationOptions {selector save id : Datum} {x : Json}
    (haccounts : schema.accounts (.record .notebookDocumentSyncOptions) x = id.isNull)
    (hcaptured : schema.captured? σ x (.record .notebookDocumentSyncRegistrationOptions) =
      some (.record .notebookDocumentSyncRegistrationOptions [selector, save, id])) :
    schema.chosen? σ x [.record .notebookDocumentSyncOptions,
        .record .notebookDocumentSyncRegistrationOptions] =
      some (returnedSync
        (.record .notebookDocumentSyncRegistrationOptions [selector, save, id])) := by
  have hread := decodeAt_registrationOptions (Schema.captured?_eq_some_iff.1 hcaptured).2
  cases hid : id.isNull with
  | true =>
    rw [hid] at haccounts
    rw [Value.isNull_iff.1 hid]
    change schema.chosen? σ x ([] ++ .record .notebookDocumentSyncOptions :: [_]) = _
    exact Schema.chosen?_of_captured? (Schema.captured?_eq_some_iff.2 ⟨haccounts, hread⟩)
      (List.forall_mem_nil _)
  | false =>
    have hset : returnedSync (.record .notebookDocumentSyncRegistrationOptions
        [selector, save, id]) =
          .record .notebookDocumentSyncRegistrationOptions [selector, save, id] := by
      unfold returnedSync
      split
      · rename_i heq
        cases heq
        cases hid
      · rfl
    rw [hset]
    change schema.chosen? σ x ([_] ++ .record .notebookDocumentSyncRegistrationOptions :: []) = _
    refine Schema.chosen?_of_captured? hcaptured fun u hu => ?_
    rw [List.mem_singleton.1 hu, Schema.captured?, haccounts, hid, if_neg Bool.false_ne_true]

/-- What stands for the synchronization of notebooks comes back, but for a registration without an
identifier. -/
theorem decodeAt_notebookSync (h : schema.decodeAt σ notebookSync d = .ok v)
    (ih : ReadsAgain σ d) :
    schema.decodeAt σ notebookSync (v.wire schema) = .ok (returnedSync (returned v)) := by
  have hregular : schema.isRegular notebookSync = true := rfl
  by_cases hd : d = .null
  · rw [hd, notebookSync, Schema.decodeAt_union_null (by simp), Except.ok.injEq] at h
    rw [← h, Value.null, Value.wire_scalar, returned_scalar]
    exact Schema.decodeAt_union_null (by simp)
  rw [notebookSync, decodeAt_union_eq_ok_iff hregular rfl fun hnull => hd hnull.1] at h
  obtain ⟨t, ht, hread⟩ := Schema.exists_of_chosen? h
  have hne : ∃ r, t = .record r ∧ r ≠ .messageActionItem := by
    rcases List.mem_cons.1 ht with rfl | ht
    · exact ⟨_, rfl, nofun⟩
    · exact ⟨_, List.mem_singleton.1 ht, nofun⟩
  obtain ⟨r, rfl, hr⟩ := hne
  have htyped := hasType_of_decodeAt rfl hread
  have hcaptured := Schema.captured?_eq_some_iff.2
    ⟨accounts_wire htyped fun hr' => hr (Ty.record.inj hr'), ih _ v rfl rfl hread⟩
  obtain ⟨values, rfl, hlength, -⟩ := htyped.exists_values
  rw [notebookSync, decodeAt_union_eq_ok_iff hregular rfl]
  · rcases List.mem_cons.1 ht with heq | ht
    · cases heq
      rw [returned_record] at hcaptured ⊢
      change schema.chosen? σ _ ([] ++ .record .notebookDocumentSyncOptions :: [_]) = _
      exact Schema.chosen?_of_captured? hcaptured (List.forall_mem_nil _)
    · cases List.mem_singleton.1 ht
      match values, hlength with
      | [selector, save, id], _ =>
        have haccounts := accounts_registrationOptions selector save id
        rw [← isNull_returned] at haccounts
        rw [returned_registrationOptions] at hcaptured ⊢
        exact chosen?_registrationOptions haccounts hcaptured
  · rw [Value.wire_record]
    exact fun hnull => Json.noConfusion hnull.1

/-! ## Fields -/

/-- What a field has been read as is read again, unless the field is left out. -/
theorem decodeAt_field {entries : List (String × Json)} (hf : f ∈ (schema.record r).fields)
    (ih : ∀ d, entries.lookup f.name = some d → ReadsAgain σ d)
    (h : schema.FieldRead σ entries f v) (hset : (f.isOmittable && v.isNull) = false) :
    schema.decodeAt σ f.ty (wireAs f.ty v) = .ok (returnedField r f (returned v)) := by
  rw [Schema.FieldRead] at h
  cases hx : f.shown? σ entries with
  | none =>
    rw [hx] at h
    refine decodeAt_default hf h (Bool.eq_false_iff.2 fun homittable => ?_)
    rw [(takesNull_of_omittable hf homittable).1] at h
    cases h
    rw [homittable] at hset
    cases hset
  | some d =>
    rw [hx] at h
    change schema.decodeAt σ f.ty d = .ok v at h
    replace ih := ih d (Field.lookup_of_shown? hx)
    have hty := of_all_fields (all_hasFieldType r) hf
    have hcodec := of_all_fields (all_hasStableCodec r) hf
    have haligned := of_all_fields (all_hasAlignedType r) hf
    rw [hasFieldType] at hty
    rw [hasStableCodec] at hcodec
    rw [hasAlignedType] at haligned
    split at hty
    · rename_i r' hpacked
      rw [hpacked] at h
      rw [returnedField_of_ne (isNotebookSync_eq_false hf (by simp [hpacked, notebookSync])), hpacked]
      exact decodeAt_packed_again (of_decide_eq_true hty) h
    · rename_i r' label hflag
      have hvisible := Field.isVisible_of_shown? hx
      rw [hflag, Bool.and_eq_true, decide_eq_true_iff] at hcodec
      rw [Field.isVisible, ← hcodec.1] at hvisible
      rw [hflag] at h
      rw [returnedField_of_ne (isNotebookSync_eq_false hf (by simp [hflag, notebookSync])), hflag]
      exact decodeAt_recordOrFlag_again (of_decide_eq_true hty) hvisible ih h
    · rw [isFieldType, Bool.and_eq_true] at hty
      rw [wireAs_of_isRegular hty.1]
      split at haligned
      · rename_i hsync
        rw [returnedField, if_pos hsync]
        rw [Ty.eq_of_same haligned] at h ⊢
        exact decodeAt_notebookSync h ih
      · rename_i hsync
        rw [returnedField, if_neg hsync]
        exact ih f.ty v hty.1 haligned h

end LspWire.Protocol
