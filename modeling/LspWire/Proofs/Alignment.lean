import LspWire.Proofs.Nulls
import LspWire.Proofs.SameData
import LspWire.Proofs.Separation

/-!
# Records with fields in common

Where the fields of a record have counterparts in another one, both read the same values from the
same object. So when the first record accounts for all keys, and the second one needs no further
ones, both are written as the same data.
-/

namespace LspWire.Protocol

variable {σ : Surface} {a b : RecordName} {f g : Field RecordName EnumName}
  {entries : List (String × Json)} {v w : Datum}

/-! ## Counterparts -/

theorem isCodec_of_not_takesNull {t : DataType} (h : takesNull t = false) : t.isCodec = false := by
  cases t <;> first | rfl | cases h

/-- Two fields of every version with the same name and the same type but for null. A field that
does not take null is required, and null is the default of the other ones. -/
structure Counterparts (f g : Field RecordName EnumName) : Prop where
  name : f.name = g.name
  tags : f.tag = none ∧ g.tag = none
  types : (f.default = .required ∧ g.default = .required ∧ f.ty = g.ty ∧ takesNull f.ty = false) ∨
    (f.default = .required ∧ g.default = .null ∧ g.ty = f.ty.orNull ∧ takesNull f.ty = false) ∨
    (f.default = .null ∧ g.default = .required ∧ f.ty = g.ty.orNull ∧ takesNull g.ty = false) ∨
    (f.default = .null ∧ g.default = .null ∧ f.ty = g.ty)

theorem counterparts_of_areCounterparts (h : areCounterparts f g = true) : Counterparts f g := by
  rw [areCounterparts, Bool.and_eq_true, Bool.and_eq_true, Bool.and_eq_true, decide_eq_true_iff,
    Option.isNone_iff_eq_none, Option.isNone_iff_eq_none] at h
  obtain ⟨⟨⟨hname, hf⟩, hg⟩, htypes⟩ := h
  refine ⟨hname, ⟨hf, hg⟩, ?_⟩
  rw [haveSameType] at htypes
  split at htypes
  · rename_i hd hd'
    rw [Bool.and_eq_true, Bool.not_eq_true'] at htypes
    exact .inl ⟨hd, hd', Ty.eq_of_same htypes.1, htypes.2⟩
  · rename_i hd hd'
    rw [Bool.and_eq_true, Bool.not_eq_true'] at htypes
    exact .inr (.inl ⟨hd, hd', (Ty.eq_of_same htypes.1).symm, htypes.2⟩)
  · rename_i hd hd'
    rw [Bool.and_eq_true, Bool.not_eq_true'] at htypes
    exact .inr (.inr (.inl ⟨hd, hd', (Ty.eq_of_same htypes.1).symm, htypes.2⟩))
  · rename_i hd hd'
    exact .inr (.inr (.inr ⟨hd, hd', Ty.eq_of_same htypes⟩))
  · cases htypes

theorem exists_counterpart (h : isWithin a b = true) (hf : f ∈ (schema.record a).fields) :
    f.checks = [] ∧ ∃ g ∈ (schema.record b).fields, Counterparts f g := by
  have hcondition := List.all_eq_true.1 h f hf
  rw [Bool.and_eq_true, List.isEmpty_iff, List.any_eq_true] at hcondition
  obtain ⟨hchecks, g, hg, hcounterparts⟩ := hcondition
  exact ⟨hchecks, g, hg, counterparts_of_areCounterparts hcounterparts⟩

namespace Counterparts

theorem symm (h : Counterparts f g) : Counterparts g f := by
  refine ⟨h.name.symm, h.tags.symm, ?_⟩
  obtain ⟨hf, hg, hty, hnull⟩ | ⟨hf, hg, hty, hnull⟩ | ⟨hf, hg, hty, hnull⟩ | ⟨hf, hg, hty⟩ :=
    h.types
  · exact .inl ⟨hg, hf, hty.symm, hty ▸ hnull⟩
  · exact .inr (.inr (.inl ⟨hg, hf, hty, hnull⟩))
  · exact .inr (.inl ⟨hg, hf, hty, hnull⟩)
  · exact .inr (.inr (.inr ⟨hg, hf, hty.symm⟩))

theorem takesNull_eq_false (h : Counterparts f g) (hf : f.default ≠ .null) :
    f.default = .required ∧ takesNull f.ty = false := by
  obtain ⟨hf', -, -, hnull⟩ | ⟨hf', -, -, hnull⟩ | ⟨hf', -⟩ | ⟨hf', -⟩ := h.types
  · exact ⟨hf', hnull⟩
  · exact ⟨hf', hnull⟩
  · exact absurd hf' hf
  · exact absurd hf' hf

/-- Packed tokens have packed tokens for their counterpart. -/
theorem json_eq (h : Counterparts f g) (v : Datum) (x : Json) :
    (⟨f, v, x⟩ : Cell RecordName EnumName).json = (⟨g, v, x⟩ : Cell RecordName EnumName).json := by
  have horNull (t : DataType) : t.orNull.isCodec = false := by cases t <;> rfl
  obtain ⟨-, -, hty, -⟩ | ⟨-, -, hty, hnull⟩ | ⟨-, -, hty, hnull⟩ | ⟨-, -, hty⟩ := h.types
  · rw [Cell.json, Cell.json, hty]
  · rw [Cell.json_of_not_codec (isCodec_of_not_takesNull hnull),
      Cell.json_of_not_codec (hty ▸ horNull f.ty)]
  · rw [Cell.json_of_not_codec (hty ▸ horNull g.ty),
      Cell.json_of_not_codec (isCodec_of_not_takesNull hnull)]
  · rw [Cell.json, Cell.json, hty]

end Counterparts

/-! ## Readings -/

theorem fieldRead_iff_of_untagged (h : f.tag = none) :
    schema.FieldRead σ entries f v ↔
      (∃ x, entries.lookup f.name = some x ∧ schema.decodeAt σ f.ty x = .ok v) ∨
        (entries.lookup f.name = none ∧ schema.defaultValue? f.default = some v) := by
  rw [Schema.FieldRead, Field.shown?, Field.isVisible, h, Surface.admits_none, if_pos rfl]
  cases entries.lookup f.name <;> simp

theorem fieldRead_unique (hv : schema.FieldRead σ entries f v)
    (hw : schema.FieldRead σ entries f w) : v = w := by
  rw [Schema.FieldRead] at hv hw
  cases hx : f.shown? σ entries with
  | none =>
    rw [hx] at hv hw
    exact Option.some.inj (hv.symm.trans hw)
  | some x =>
    rw [hx] at hv hw
    exact Except.ok.inj (hv.symm.trans hw)

theorem isRegular_of_not_takesNull (hf : f ∈ (schema.record a).fields)
    (h : takesNull f.ty = false) : schema.isRegular f.ty = true := by
  have hty := of_all_fields (all_hasFieldType a) hf
  rw [hasFieldType] at hty
  split at hty
  · rename_i hty'
    rw [hty'] at h
    cases h
  · rename_i hty'
    rw [hty'] at h
    cases h
  · rw [isFieldType, Bool.and_eq_true] at hty
    exact hty.1

theorem ne_null_of_fieldRead (hf : f ∈ (schema.record a).fields) (hdefault : f.default = .required)
    (hnull : takesNull f.ty = false) (h : schema.FieldRead σ entries f v) : v ≠ .null := by
  rintro rfl
  have hregular := isRegular_of_not_takesNull hf hnull
  rw [Schema.FieldRead] at h
  cases hx : f.shown? σ entries with
  | none =>
    rw [hx, hdefault] at h
    cases h
  | some x =>
    rw [hx] at h
    change schema.decodeAt σ f.ty x = .ok .null at h
    rw [eq_null_of_decodeAt hregular h] at h
    exact decodeAt_null_ne_ok hregular hnull h

theorem fieldRead_of_counterparts (hg : g ∈ (schema.record b).fields) (h : Counterparts f g)
    (hread : schema.FieldRead σ entries g v) (hset : f.default = .null ∨ v ≠ .null) :
    schema.FieldRead σ entries f v := by
  rw [fieldRead_iff_of_untagged h.tags.2] at hread
  rw [fieldRead_iff_of_untagged h.tags.1, h.name]
  obtain ⟨x, hx, hread⟩ | ⟨hx, hdefault⟩ := hread
  · refine .inl ⟨x, hx, ?_⟩
    obtain ⟨-, -, hty, -⟩ | ⟨hfd, -, hty, hnull⟩ | ⟨-, -, hty, hnull⟩ | ⟨-, -, hty⟩ := h.types
    · rw [hty]
      exact hread
    · rw [hty] at hread
      have hx : x ≠ .null := by
        rintro rfl
        rw [decodeAt_orNull_null, Except.ok.injEq] at hread
        obtain hset | hset := hset
        · rw [hset] at hfd
          cases hfd
        · exact hset hread.symm
      rwa [decodeAt_orNull hx hnull] at hread
    · have hx : x ≠ .null := by
        rintro rfl
        exact decodeAt_null_ne_ok (isRegular_of_not_takesNull hg hnull) hnull hread
      rw [hty, decodeAt_orNull hx hnull]
      exact hread
    · rw [hty]
      exact hread
  · refine .inr ⟨hx, ?_⟩
    have hnull : g.default = .null := by
      by_contra hne
      rw [(h.symm.takesNull_eq_false hne).1] at hdefault
      cases hdefault
    rw [hnull] at hdefault
    cases hdefault
    rw [hset.resolve_right (not_not.2 rfl)]
    rfl

/-- Counterparts are read as the same value. -/
theorem eq_of_counterparts (hf : f ∈ (schema.record a).fields)
    (hg : g ∈ (schema.record b).fields) (h : Counterparts f g)
    (hv : schema.FieldRead σ entries f v) (hw : schema.FieldRead σ entries g w) : v = w := by
  by_cases hset : f.default = .null ∨ w ≠ .null
  · exact fieldRead_unique hv (fieldRead_of_counterparts hg h hw hset)
  · rw [not_or] at hset
    obtain ⟨hdefault, hnull⟩ := h.takesNull_eq_false hset.1
    have hne := ne_null_of_fieldRead hf hdefault hnull hv
    exact fieldRead_unique (fieldRead_of_counterparts hf h.symm hv (.inr hne)) hw

/-! ## Records -/

theorem mem_cells {r : RecordName} {values : List Datum} {p : Field RecordName EnumName × Datum}
    (hp : p ∈ (schema.record r).fields.zip values) :
    ⟨p.1, p.2, p.2.wire schema⟩ ∈ Value.cells schema r values :=
  List.mem_map_of_mem hp

/-- A search in a written record finds a field unless it is null and left out. -/
theorem lookup_wireRecord {r : RecordName} {values : List Datum} (hr : isPlain r = true)
    (hlength : values.length = (schema.record r).fields.length)
    {p : Field RecordName EnumName × Datum} (hp : p ∈ (schema.record r).fields.zip values) :
    (schema.wireRecord r (Value.cells schema r values)).lookup p.1.name =
      if p.1.isOmittable && p.2.isNull then none
      else some (⟨p.1, p.2, p.2.wire schema⟩ : Cell RecordName EnumName).json := by
  have hnames := Schema.nodup_names_cells (nodup_names r) hlength
  have hmem := mem_cells hp
  rw [Schema.wireRecord_of_not_spread (isSpread_of_isPlain hr)]
  rw [isPlain] at hr
  split at hr
  · rename_i hform
    have hwritten (c : Cell RecordName EnumName) :
        c ∈ (schema.record r).form.written (Value.cells schema r values) ↔
          c ∈ Value.cells schema r values ∧ c.isUnset = false := by
      rw [hform, Form.mem_written_plain]
    split
    · rename_i hunset
      refine Form.lookup_unwritten hnames hmem fun h => ?_
      have hset := ((hwritten _).1 h).2
      rw [Cell.isUnset, hunset] at hset
      cases hset
    · rename_i hset
      exact Form.lookup_written hnames ((hwritten _).2 ⟨hmem, Bool.eq_false_iff.2 hset⟩)
  · cases hr

theorem lookup_wireRecord_of_not_mem {r : RecordName} {values : List Datum} (hr : isPlain r = true)
    {key : String} (h : ∀ f ∈ (schema.record r).fields, f.name ≠ key) :
    (schema.wireRecord r (Value.cells schema r values)).lookup key = none := by
  rw [Entries.lookup_eq_none_iff, List.mem_map]
  rintro ⟨entry, hentry, hkey⟩
  obtain ⟨c, hc, -, rfl⟩ :=
    Schema.exists_field_of_wireRecord (isSpread_of_isPlain hr) hentry
  obtain ⟨p, hp, rfl⟩ := List.mem_map.1 hc
  exact h p.1 (List.of_mem_zip hp).1 hkey

theorem eq_null_of_lookup_eq_none (hf : f ∈ (schema.record a).fields)
    (homittable : f.isOmittable = true) (hlookup : entries.lookup f.name = none)
    (h : schema.FieldRead σ entries f v) : v = .null := by
  rw [Schema.FieldRead, Field.shown?, hlookup, ite_self,
    (takesNull_of_omittable hf homittable).1] at h
  exact (Option.some.inj h).symm

theorem isOmittable_of_fieldRead (hf : f ∈ (schema.record a).fields) (h : Counterparts f g)
    (hread : schema.FieldRead σ entries f .null) : f.isOmittable = true := by
  by_cases hdefault : f.default = .null
  · rw [Field.isOmittable, hdefault]
  · obtain ⟨hrequired, hnull⟩ := h.takesNull_eq_false hdefault
    exact absurd rfl (ne_null_of_fieldRead hf hrequired hnull hread)

/-- Two records that read the same object are written as the same data if the first one accounts for
all keys and has all fields of the second one that always appear. -/
theorem same_wire_of_isWithin {ys zs : List Datum} (ha : isPlain a = true) (hb : isPlain b = true)
    (hwithin : isWithin a b = true) (hoverlooks : overlooks a b = false)
    (haccounts : schema.accounts (.record a) (.obj entries) = true)
    (hys : schema.FieldsRead σ entries (schema.record a).fields ys)
    (hzs : schema.FieldsRead σ entries (schema.record b).fields zs) :
    ((Value.record a ys : Datum).wire schema).Same ((Value.record b zs).wire schema) := by
  rw [Value.wire_record, Value.wire_record]
  refine .of_lookup fun key => ?_
  by_cases hkey : ∃ f ∈ (schema.record a).fields, f.name = key
  · obtain ⟨f, hf, rfl⟩ := hkey
    obtain ⟨y, hy⟩ := Entries.exists_mem_zip_left hys.length_eq hf
    obtain ⟨-, g, hg, hcounterparts⟩ := exists_counterpart hwithin hf
    obtain ⟨z, hz⟩ := Entries.exists_mem_zip_left hzs.length_eq hg
    have hfy := List.forall₂_zip hys hy
    have heq := eq_of_counterparts hf hg hcounterparts hfy (List.forall₂_zip hzs hz)
    rw [← heq] at hz
    rw [lookup_wireRecord ha hys.length_eq.symm hy, hcounterparts.name,
      lookup_wireRecord hb hzs.length_eq.symm hz, hcounterparts.json_eq]
    cases hnull : y.isNull with
    | false =>
      rw [Bool.and_false, Bool.and_false, if_neg Bool.false_ne_true]
      exact .some (.refl _)
    | true =>
      rw [Value.isNull_iff] at hnull
      rw [hnull] at hfy hz
      rw [isOmittable_of_fieldRead hf hcounterparts hfy,
        isOmittable_of_fieldRead hg hcounterparts.symm (List.forall₂_zip hzs hz)]
      exact .none
  · -- What the first record does not write is a field of the second one that is left out.
    rw [not_exists] at hkey
    rw [lookup_wireRecord_of_not_mem ha fun f hf hname => hkey f ⟨hf, hname⟩]
    suffices h : (schema.wireRecord b (Value.cells schema b zs)).lookup key = none by
      rw [h]
      exact .none
    by_cases hmem : ∃ g ∈ (schema.record b).fields, g.name = key
    · obtain ⟨g, hg, rfl⟩ := hmem
      obtain ⟨z, hz⟩ := Entries.exists_mem_zip_left hzs.length_eq hg
      have homittable : g.isOmittable = true := by
        by_contra hne
        rw [overlooks, List.any_eq_false] at hoverlooks
        refine hoverlooks g hg ?_
        rw [Bool.eq_false_iff.2 hne, Bool.not_false, Bool.true_and, List.all_eq_true]
        exact fun f hf => decide_eq_true fun hname => hkey f ⟨hf, hname⟩
      have hlookup : entries.lookup g.name = none := by
        rw [Entries.lookup_eq_none_iff, List.mem_map]
        rintro ⟨entry, hentry, hname⟩
        obtain ⟨f, hf, hf'⟩ := List.any_eq_true.1 (List.all_eq_true.1 haccounts entry hentry)
        exact hkey f ⟨hf, (of_decide_eq_true hf').trans hname⟩
      have hnull := eq_null_of_lookup_eq_none hg homittable hlookup (List.forall₂_zip hzs hz)
      rw [lookup_wireRecord hb hzs.length_eq.symm hz, homittable, hnull]
      rfl
    · rw [not_exists] at hmem
      exact lookup_wireRecord_of_not_mem hb fun g hg hname => hmem g ⟨hg, hname⟩

/-- Where a record reads what another one has written, it reads what the other one has read. -/
theorem exists_fieldsRead {ws ys : List Datum} (hb : isPlain b = true)
    (hwithin : isWithin a b = true)
    (hws : schema.FieldsRead σ entries (schema.record b).fields ws)
    (hys : schema.FieldsRead σ (schema.wireRecord b (Value.cells schema b ws))
      (schema.record a).fields ys) :
    ∃ vs, schema.FieldsRead σ entries (schema.record a).fields vs := by
  refine Entries.exists_forall₂ fun f hf => ?_
  obtain ⟨-, g, hg, hcounterparts⟩ := exists_counterpart hwithin hf
  obtain ⟨w, hw⟩ := Entries.exists_mem_zip_left hws.length_eq hg
  have hread := List.forall₂_zip hws hw
  refine ⟨w, fieldRead_of_counterparts hg hcounterparts hread ?_⟩
  by_cases hdefault : f.default = .null
  · exact .inl hdefault
  · -- A field that is demanded has been written, so it is not null.
    refine .inr ?_
    rintro rfl
    obtain ⟨y, -, hy⟩ := Entries.exists_right_of_forall₂ hys hf
    obtain ⟨hrequired, hnull⟩ := hcounterparts.takesNull_eq_false hdefault
    have hlookup := lookup_wireRecord hb hws.length_eq.symm hw
    rw [isOmittable_of_fieldRead hg hcounterparts.symm hread] at hlookup
    rw [fieldRead_iff_of_untagged hcounterparts.tags.1, hcounterparts.name, hlookup, hrequired]
      at hy
    obtain ⟨x, hx, -⟩ | ⟨-, hy⟩ := hy
    · cases hx
    · cases hy

theorem checkFields_of_isWithin {vs : List Datum} (hwithin : isWithin a b = true) (enabled : Bool) :
    schema.checkFields enabled a vs = .ok () := by
  refine Schema.checkFields_eq_ok_iff.2 fun p hp => ?_
  obtain ⟨hchecks, g, -, hcounterparts⟩ := exists_counterpart hwithin (List.of_mem_zip hp).1
  refine Schema.checkField_eq_ok_iff.2 ⟨fun hproposed => ?_, ?_⟩
  · rw [hcounterparts.tags.1] at hproposed
    cases hproposed
  · rw [hchecks]
    exact List.forall_mem_nil _

theorem decodeAt_of_fieldsRead {vs : List Datum} (ha : isPlain a = true)
    (hwithin : isWithin a b = true) (hadmits : σ.admits (schema.record a).tag = true)
    (hvs : schema.FieldsRead σ entries (schema.record a).fields vs) :
    schema.decodeAt σ (.record a) (.obj entries) = .ok (.record a vs) := by
  rw [Schema.decodeAt_record_eq_ok_iff (isSpread_of_isPlain ha) (nodup_names a)]
  refine ⟨hadmits, entries, vs, rfl, rfl, fun f hf hliteral => ?_, hvs,
    checkFields_of_isWithin hwithin _⟩
  obtain ⟨-, g, -, hcounterparts⟩ := exists_counterpart hwithin hf
  obtain ⟨v, -, hv⟩ := Entries.exists_right_of_forall₂ hvs hf
  have hdefault : f.default ≠ .null := by
    intro hnull
    have halways := isOmittable_of_isLiteral hf hliteral
    rw [Field.isOmittable, hnull] at halways
    cases halways
  rw [fieldRead_iff_of_untagged hcounterparts.tags.1,
    (hcounterparts.takesNull_eq_false hdefault).1] at hv
  obtain ⟨x, hx, -⟩ | ⟨-, hv⟩ := hv
  · rw [hx]
    rfl
  · cases hv

/-- A record accounts for the keys that its counterpart accounts for. -/
theorem accounts_of_isWithin (hwithin : isWithin b a = true)
    (h : schema.accounts (.record b) (.obj entries) = true) :
    schema.accounts (.record a) (.obj entries) = true := by
  refine List.all_eq_true.2 fun entry hentry => ?_
  obtain ⟨g, hg, hname⟩ := List.any_eq_true.1 (List.all_eq_true.1 h entry hentry)
  obtain ⟨-, f, hf, hcounterparts⟩ := exists_counterpart hwithin hg
  exact List.any_eq_true.2 ⟨f, hf, hcounterparts.name ▸ hname⟩

end LspWire.Protocol
