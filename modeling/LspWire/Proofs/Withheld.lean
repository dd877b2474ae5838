import LspWire.Proofs.References
import LspWire.Proofs.Surfaces
import LspWire.Proofs.Typing

/-!
# The proposed parts of a stable version

As a stable version, data is read alike with the proposed parts and without them, but for three fields
that belong to version 3.16 as proposed ones. Without the proposed parts these fields are null, however
deep they stand, and nothing else is read in another way; what is lost is their data, which does not
even have to fit. `stripped` is what becomes of a value. Where such a field may stand in an alternative
of a union, the union has no other alternative for lists and objects, so it chooses as before.
-/

namespace LspWire.Protocol

/-! ## Parts that are withheld -/

/-- The fields that version 3.16 has with the proposed parts only. -/
def withheldFields : List (RecordName × String) := [
  (.textDocumentClientCapabilities, "onTypeRename"),
  (.serverCapabilities, "onTypeRenameProvider"),
  (.messageActionItem, "properties")]

def isWithheld (r : RecordName) (f : Field RecordName EnumName) : Bool :=
  withheldFields.contains (r, f.name)

/-- The records that version 3.16 has with the proposed parts only. -/
def withheldRecords : List RecordName := [.onTypeRenameOptions, .onTypeRenameRegistrationOptions,
  .onTypeRenameParams, .onTypeRenameRanges]

/-- The names of the types over these records. -/
def withheldNames : List String := ["OnTypeRenameOptions", "OnTypeRenameRegistrationOptions",
  "OnTypeRenameParams", "OnTypeRenameRanges", "OnTypeRenameServerCapabilities"]

mutual

/-- A value without the fields that are withheld. -/
def stripped : Datum → Datum
  | .list items => .list (strippedItems items)
  | .map entries => .map (strippedEntries entries)
  | .record r values => .record r (((schema.record r).fields.zip (strippedItems values)).map
      fun p => if isWithheld r p.1 then .null else p.2)
  | v => v

def strippedItems : List Datum → List Datum
  | [] => []
  | v :: vs => stripped v :: strippedItems vs

def strippedEntries : List (String × Datum) → List (String × Datum)
  | [] => []
  | (key, v) :: entries => (key, stripped v) :: strippedEntries entries

end

theorem strippedItems_eq_map (items : List Datum) : strippedItems items = items.map stripped := by
  induction items with
  | nil => rfl
  | cons v vs ih => rw [strippedItems, ih, List.map_cons]

theorem strippedEntries_eq_map (entries : List (String × Datum)) :
    strippedEntries entries = entries.map fun entry => (entry.1, stripped entry.2) := by
  induction entries with
  | nil => rfl
  | cons entry entries ih => rw [strippedEntries, ih, List.map_cons]

@[simp] theorem stripped_scalar (s : Scalar) : stripped (.scalar s) = .scalar s :=
  rfl

@[simp] theorem stripped_member (e : EnumName) (m : Member) :
    stripped (.member e m) = .member e m :=
  rfl

@[simp] theorem stripped_flags (e : EnumName) (bits : Int) :
    stripped (.flags e bits) = .flags e bits :=
  rfl

@[simp] theorem stripped_unknown (raw : Scalar) : stripped (.unknown raw) = .unknown raw :=
  rfl

@[simp] theorem stripped_list (items : List Datum) :
    stripped (.list items) = .list (items.map stripped) :=
  congrArg Value.list (strippedItems_eq_map items)

@[simp] theorem stripped_map (entries : List (String × Datum)) :
    stripped (.map entries) = .map (entries.map fun entry => (entry.1, stripped entry.2)) :=
  congrArg Value.map (strippedEntries_eq_map entries)

/-- What is left of a field of a record. -/
def strippedField (r : RecordName) (f : Field RecordName EnumName) (v : Datum) : Datum :=
  if isWithheld r f then .null else stripped v

theorem stripped_record (r : RecordName) (values : List Datum) :
    stripped (.record r values) =
      .record r (((schema.record r).fields.zip values).map fun p => strippedField r p.1 p.2) := by
  rw [stripped, strippedItems_eq_map, List.zip_map_right, List.map_map]
  rfl

/-- Free-form data is left as it is. -/
theorem stripped_ofJson (x : Json) : stripped (.ofJson x) = .ofJson x := by
  induction x using Json.induction with
  | scalar s => exact stripped_scalar s
  | arr items ih =>
    rw [Value.ofJson, Value.ofItems_eq_map, stripped_list, List.map_map]
    exact congrArg Value.list (List.map_congr_left ih)
  | obj entries ih =>
    rw [Value.ofJson, Value.ofEntries_eq_map, stripped_map, List.map_map]
    refine congrArg Value.map (List.map_congr_left fun entry hentry => ?_)
    exact congrArg (Prod.mk entry.1) (ih entry hentry)

/-! ## Surfaces of a stable version -/

/-- The records that hold a field that is withheld, anywhere in them, and those that are withheld
themselves. -/
def touchedRecords : List RecordName := withheldRecords ++ [.textDocumentClientCapabilities,
  .serverCapabilities, .messageActionItem, .clientCapabilities, .initializeParams,
  .initializeResult, .showMessageRequestParams]

def isUntouched (r : RecordName) : Bool := !touchedRecords.contains r

/-- Whether the surfaces of a version with the proposed parts and without them admit a part alike. -/
def isAlikeAt (version : SpecVersion) (tag? : Option Tag) : Bool :=
  Surface.admits ⟨version, true⟩ tag? == Surface.admits ⟨version, false⟩ tag?

/-- Whether these surfaces admit the same of a record. -/
def isRecordAlikeAt (version : SpecVersion) (p : RecordName → Bool) (r : RecordName) : Bool :=
  isAlikeAt version (schema.record r).tag &&
    (schema.record r).fields.all fun f => isAlikeAt version f.tag && f.ty.isOver p

/-- Whether these surfaces admit the same members of an enumeration. -/
def isEnumerationAlikeAt (version : SpecVersion) (e : EnumName) : Bool :=
  (schema.enumeration e).members.all fun m =>
    EnumDecl.admits ⟨version, true⟩ (schema.enumeration e) m ==
      EnumDecl.admits ⟨version, false⟩ (schema.enumeration e) m

theorem agree_of_isAlikeAt {version : SpecVersion} {p : RecordName → Bool}
    (hmember : ∀ e, isEnumerationAlikeAt version e = true)
    (hrecord : ∀ r, (!p r || isRecordAlikeAt version p r) = true) :
    Agree ⟨version, true⟩ ⟨version, false⟩ p := by
  have hof {r : RecordName} (hr : p r = true) : isRecordAlikeAt version p r = true := by
    have h := hrecord r
    rwa [hr, Bool.not_true, Bool.false_or] at h
  simp only [isRecordAlikeAt, isAlikeAt, Bool.and_eq_true, beq_iff_eq, List.all_eq_true] at hof
  refine ⟨fun e m hm => ?_, fun r hr => (hof hr).1, fun r hr f hf => ((hof hr).2 f hf).1,
    fun r hr f hf => ((hof hr).2 f hf).2⟩
  exact beq_iff_eq.1 (List.all_eq_true.1 (hmember e) m hm)

/-- As version 3.13 the proposed parts make no difference. -/
theorem agree_v3_13 : Agree ⟨.v3_13, true⟩ ⟨.v3_13, false⟩ fun _ => true :=
  agree_of_isAlikeAt (fun e => by cases e <;> rfl) fun r => by cases r <;> rfl

theorem agree_v3_16 : Agree ⟨.v3_16, true⟩ ⟨.v3_16, false⟩ isUntouched :=
  agree_of_isAlikeAt (fun e => by cases e <;> rfl) fun r => by cases r <;> rfl

/-! ## Types that are kept -/

/-- Whether the values of a type are lists or objects. -/
def isParted : DataType → Bool
  | .list _ | .map _ | .record _ => true
  | _ => false

/-- Whether the alternatives of a union are over records that are not touched, or are lists or objects
with nothing but null and raw values beside them. -/
def isUnionKept (ts : List DataType) : Bool :=
  ts.all fun t => t.isOver isUntouched ||
    isParted t && ts.all fun u => [t, .null, .unknown].any u.same

/-- Whether a type is no record that is withheld and no union that has to choose between records that
are touched. Records with a wire form of their own are those that the fields have. -/
def isKeptAt : DataType → Bool
  | .record r => !withheldRecords.contains r
  | .union ts => isUnionKept ts
  | .packed r => r = .semanticHighlightingToken
  | .recordOrFlag r _ => r = .completionItemTagSupport
  | _ => true

/-- Whether a type is over no record that is withheld. -/
def isKept (t : DataType) : Bool := t.every isKeptAt

theorem all_isKept (r : RecordName) :
    (withheldRecords.contains r ||
      (schema.record r).fields.all fun f => isWithheld r f || isKept f.ty) = true := by
  cases r <;> rfl

/-- Without the proposed parts, version 3.16 has the records that are not withheld, and of their fields
just those that are not withheld. -/
theorem all_withheld (r : RecordName) :
    (withheldRecords.contains r || isAlikeAt .v3_16 (schema.record r).tag &&
      (schema.record r).fields.all fun f =>
        if isWithheld r f then !f.isVisible ⟨.v3_16, false⟩ && f.default = .null
        else isAlikeAt .v3_16 f.tag) = true := by
  cases r <;> rfl

/-! ## Reading what is kept -/

/-- Version 3.16 with the proposed parts. -/
abbrev withProposed : Surface := ⟨.v3_16, true⟩

/-- Version 3.16 without them. -/
abbrev withoutProposed : Surface := ⟨.v3_16, false⟩

variable {r : RecordName} {f : Field RecordName EnumName} {t : DataType} {x : Json} {v : Datum}

theorem admits_of_kept (hr : withheldRecords.contains r = false)
    (h : withProposed.admits (schema.record r).tag = true) :
    withoutProposed.admits (schema.record r).tag = true := by
  have hall := all_withheld r
  rw [hr, Bool.false_or, Bool.and_eq_true, isAlikeAt, beq_iff_eq] at hall
  exact hall.1 ▸ h

theorem isVisible_of_kept (hr : withheldRecords.contains r = false)
    (hf : f ∈ (schema.record r).fields) (hkept : isWithheld r f = false) :
    f.isVisible withoutProposed = f.isVisible withProposed := by
  have hall := all_withheld r
  rw [hr, Bool.false_or, Bool.and_eq_true] at hall
  have hfield := List.all_eq_true.1 hall.2 f hf
  rw [hkept, if_neg Bool.false_ne_true, isAlikeAt, beq_iff_eq] at hfield
  exact hfield.symm

theorem hidden_of_withheld (hr : withheldRecords.contains r = false)
    (hf : f ∈ (schema.record r).fields) (hwithheld : isWithheld r f = true) :
    f.isVisible withoutProposed = false ∧ f.default = .null := by
  have hall := all_withheld r
  rw [hr, Bool.false_or, Bool.and_eq_true] at hall
  have hfield := List.all_eq_true.1 hall.2 f hf
  rwa [hwithheld, if_pos rfl, Bool.and_eq_true, Bool.not_eq_true', decide_eq_true_iff] at hfield

theorem isKept_of_mem (hr : withheldRecords.contains r = false)
    (hf : f ∈ (schema.record r).fields) (hkept : isWithheld r f = false) : isKept f.ty = true := by
  have hall := all_isKept r
  rw [hr, Bool.false_or] at hall
  have hfield := of_all_fields hall hf
  rwa [hkept, Bool.false_or] at hfield

theorem stripped_default (hf : f ∈ (schema.record r).fields)
    (h : schema.defaultValue? f.default = some v) : stripped v = v := by
  cases holdsDefault hf h with
  | null => exact stripped_scalar _
  | text => exact stripped_scalar _
  | blank _ _ hblank =>
    rw [blank_eq hblank, stripped_record, ← List.map_prod_left_eq_zip, List.map_map]
    refine congrArg (Value.record _) (List.map_congr_left fun g _ => ?_)
    exact (congrArg (ite _ _) (stripped_scalar _)).trans (ite_self _)

theorem stripped_tokenValue (token : Token) :
    stripped (Schema.tokenValue .semanticHighlightingToken token) =
      Schema.tokenValue .semanticHighlightingToken token := by
  rfl

theorem stripped_ofTrue :
    stripped (.record .completionItemTagSupport
        ((schema.record .completionItemTagSupport).fields.map fun _ => .list [])) =
      .record .completionItemTagSupport
        ((schema.record .completionItemTagSupport).fields.map fun _ => .list []) := by
  rfl

/-- A field that is read with the proposed parts is read without them as what is left of it. -/
theorem fieldRead_stripped (hr : withheldRecords.contains r = false)
    (hf : f ∈ (schema.record r).fields) {entries : List (String × Json)}
    (ih : ∀ x, entries.lookup f.name = some x → ∀ (t : DataType) (v : Datum), isKept t = true →
      schema.decodeAt withProposed t x = .ok v →
        schema.decodeAt withoutProposed t x = .ok (stripped v))
    (h : schema.FieldRead withProposed entries f v) :
    schema.FieldRead withoutProposed entries f (strippedField r f v) := by
  rw [Schema.FieldRead] at h ⊢
  cases hwithheld : isWithheld r f with
  | true =>
    obtain ⟨hhidden, hdefault⟩ := hidden_of_withheld hr hf hwithheld
    rw [Field.shown?, if_neg (by simp [hhidden]), hdefault, strippedField, if_pos hwithheld]
    rfl
  | false =>
    have hshown : f.shown? withoutProposed entries = f.shown? withProposed entries := by
      rw [Field.shown?, Field.shown?, isVisible_of_kept hr hf hwithheld]
    rw [hshown, strippedField, if_neg (by simp [hwithheld])]
    cases hx : f.shown? withProposed entries with
    | none =>
      rw [hx] at h
      exact (stripped_default hf h).symm ▸ h
    | some x =>
      rw [hx] at h
      exact ih x (Field.lookup_of_shown? hx) f.ty v (isKept_of_mem hr hf hwithheld) h

theorem strippedField_int (hr : withheldRecords.contains r = false)
    (hf : f ∈ (schema.record r).fields) (hty : f.ty = .int) {σ : Surface}
    {entries : List (String × Json)} (h : schema.FieldRead σ entries f v) :
    strippedField r f v = v := by
  have hkept : isWithheld r f = false := by
    rw [Bool.eq_false_iff]
    intro hwithheld
    exact ne_int_of_default (v := .null) hf
      (by rw [(hidden_of_withheld hr hf hwithheld).2]; rfl) hty
  rw [strippedField, if_neg (by rw [hkept]; nofun)]
  rw [Schema.FieldRead] at h
  split at h
  · rw [hty, Schema.decodeAt_int_eq_ok_iff] at h
    obtain ⟨n, -, rfl⟩ := h
    exact stripped_scalar _
  · exact stripped_default hf h

/-- A record that is read with the proposed parts is read without them as what is left of it, if the
data in it is. -/
theorem record_stripped (hr : withheldRecords.contains r = false)
    (ih : ∀ part ∈ x.parts, ∀ (t : DataType) (v : Datum), isKept t = true →
      schema.decodeAt withProposed t part = .ok v →
        schema.decodeAt withoutProposed t part = .ok (stripped v))
    (h : schema.decodeAt withProposed (.record r) x = .ok v) :
    schema.decodeAt withoutProposed (.record r) x = .ok (stripped v) := by
  cases hspread : (schema.record r).isSpread with
  | true =>
    rw [isSpread_record, beq_iff_eq] at hspread
    subst hspread
    rw [Schema.decodeAt_spread_eq_ok_iff form_messageActionItem] at h ⊢
    obtain ⟨entries, d, title, restValue, rfl, rfl, hd, htitle, -, -, -⟩ := h
    obtain ⟨s, rfl, rfl⟩ := Schema.decodeAt_str_eq_ok_iff.1 htitle
    refine ⟨entries, .str s, .str s, .null, rfl, rfl, hd,
      Schema.decodeAt_str_eq_ok_iff.2 ⟨s, rfl, rfl⟩, ?_, rfl, rfl⟩
    have hhidden : withoutProposed.admits (some (.since 16 true)) = false := rfl
    rw [Schema.RestRead, hhidden, Bool.not_false, Bool.or_true, if_pos rfl]
  | false =>
    rw [Schema.decodeAt_record_eq_ok_iff hspread (nodup_names r)] at h ⊢
    obtain ⟨htag, entries, values, rfl, rfl, hliterals, hfields, hchecks⟩ := h
    have hread : schema.FieldsRead withoutProposed entries (schema.record r).fields
        (((schema.record r).fields.zip values).map fun p => strippedField r p.1 p.2) := by
      refine Entries.forall₂_map_zip hfields.length_eq fun p hp => ?_
      refine fieldRead_stripped hr (List.of_mem_zip hp).1 (fun d hd => ih d ?_)
        (List.forall₂_zip hfields hp)
      exact List.mem_map.2 ⟨_, Entries.mem_of_lookup hd, rfl⟩
    refine ⟨admits_of_kept hr htag, entries, _, rfl, stripped_record r values, hliterals, hread, ?_⟩
    refine checkFields_of_fieldsRead hread (Entries.forall₂_map_zip hfields.length_eq ?_)
    intro p hp hty
    rw [strippedField_int hr (List.of_mem_zip hp).1 hty (List.forall₂_zip hfields hp)]
    exact Schema.checkFields_eq_ok_iff.1 hchecks p hp

theorem stripped_of_readOpen {σ : Surface} {e : EnumName}
    {layer : Layer (Readable RecordName EnumName)} (h : schema.readOpen σ e layer = .ok v) :
    stripped v = v := by
  obtain hmember | ⟨raw, rfl⟩ := Schema.readOpen_cases h
  · obtain ⟨-, bits, rfl⟩ | ⟨m, rfl, -⟩ := Schema.readMember_cases hmember
    · exact stripped_flags e bits
    · exact stripped_member e m
  · exact stripped_unknown raw

theorem ne_scalar_of_isParted {σ : Surface} (ht : isParted t = true)
    (h : schema.decodeAt σ t x = .ok v) (s : Scalar) : x ≠ .scalar s := by
  rintro rfl
  cases t with
  | list item =>
    obtain ⟨items, -, hx, -⟩ := Schema.decodeAt_list_eq_ok_iff.1 h
    cases hx
  | map item =>
    obtain ⟨entries, -, hx, -⟩ := Schema.decodeAt_map_eq_ok_iff.1 h
    cases hx
  | record r =>
    obtain ⟨entries, -, hx, -⟩ := exists_of_decodeAt_record h
    cases hx
  | _ => cases ht

theorem union_stripped_of_isOver {ts : List DataType}
    (hts : ∀ t ∈ ts, t.isOver isUntouched = true)
    (ih : ∀ t ∈ ts, ∀ v, schema.decodeAt withProposed t x = .ok v →
      schema.decodeAt withoutProposed t x = .ok (stripped v))
    (h : schema.decodeAt withProposed (.union ts) x = .ok v) :
    schema.decodeAt withoutProposed (.union ts) x = .ok (stripped v) := by
  have hover : (Ty.union ts).isOver isUntouched = true := by
    rw [Ty.isOver, Ty.every_union, Bool.true_and, List.all_eq_true]
    exact hts
  have hread := ((agree_v3_16.concur hover x).1 v).1 h
  have hstripped : stripped v = v := by
    obtain rfl | ⟨t, ht, htv⟩ | ⟨e, hopen⟩ := Schema.cases_of_decodeAt_union h
    · exact stripped_scalar _
    · have hkept := ((agree_v3_16.concur (hts t ht) x).1 v).1 htv
      exact Except.ok.inj ((ih t ht v htv).symm.trans hkept)
    · exact stripped_of_readOpen hopen
  rw [hstripped, hread]

/-- A union of one type of lists or objects, with null and raw values besides, reads data without the
proposed parts as the type does. -/
theorem union_stripped_of_isParted {ts : List DataType} {t : DataType} (ht : isParted t = true)
    (hts : ∀ u ∈ ts, u = t ∨ u = .null ∨ u = .unknown)
    (hnull : ¬(x = .null ∧ Ty.null ∈ ts))
    (hopen : Schema.openEnumeration? (Schema.others ts) = none)
    (ih : ∀ t ∈ ts, ∀ v, schema.decodeAt withProposed t x = .ok v →
      schema.decodeAt withoutProposed t x = .ok (stripped v))
    (h : schema.decodeAt withProposed (.union ts) x = .ok v) :
    schema.decodeAt withoutProposed (.union ts) x = .ok (stripped v) := by
  have hothers {u : DataType} (hu : u ∈ Schema.others ts) : u = t ∨ u = .unknown := by
    obtain ⟨hmem, hne⟩ := Schema.mem_others_iff.1 hu
    exact (hts u hmem).imp_right fun h => h.resolve_left hne
  have hlarge (σ : Surface) : ∀ u ∈ Schema.others ts,
      schema.decodeAt σ u x ≠ .error .tooLarge := by
    intro u hu
    obtain rfl | rfl := hothers hu
    · cases u with
      | list item => exact Schema.decodeAt_list_ne_tooLarge
      | map item => exact Schema.decodeAt_map_ne_tooLarge
      | record r => exact decodeAt_ne_tooLarge rfl x
      | _ => cases ht
    · exact decodeAt_ne_tooLarge rfl x
  rw [Schema.decodeAt_union_eq_ok_iff hopen hnull (hlarge _)] at h
  obtain ⟨u, hu, huv⟩ := Schema.exists_of_chosen? h
  have hread := ih u (Schema.mem_others_iff.1 hu).1 v huv
  refine Schema.decodeAt_union_of_unique hopen hnull (hlarge _) hu hread fun u' hu' w hw => ?_
  -- Lists and objects are data of one alternative, and scalars of the other one.
  have hsame : u' = u := by
    obtain rfl | rfl := hothers hu <;> obtain rfl | rfl := hothers hu'
    · rfl
    · obtain ⟨raw, hraw, -⟩ := Schema.decodeAt_unknown_eq_ok_iff.1 hw
      exact absurd hraw (ne_scalar_of_isParted ht huv raw)
    · obtain ⟨raw, hraw, -⟩ := Schema.decodeAt_unknown_eq_ok_iff.1 huv
      exact absurd hraw (ne_scalar_of_isParted ht hw raw)
    · rfl
  rw [hsame] at hw
  exact Except.ok.inj (hw.symm.trans hread)

theorem union_stripped {ts : List DataType} (hts : isUnionKept ts = true)
    (ih : ∀ t ∈ ts, ∀ v, schema.decodeAt withProposed t x = .ok v →
      schema.decodeAt withoutProposed t x = .ok (stripped v))
    (h : schema.decodeAt withProposed (.union ts) x = .ok v) :
    schema.decodeAt withoutProposed (.union ts) x = .ok (stripped v) := by
  by_cases hnull : x = .null ∧ Ty.null ∈ ts
  · rw [hnull.1, Schema.decodeAt_union_null hnull.2] at h ⊢
    cases h
    rw [stripped_scalar]
  · cases hopen : Schema.openEnumeration? (Schema.others ts) with
    | some e =>
      have hothers := Schema.eq_of_openEnumeration? hopen
      rw [Schema.decodeAt_union_open hothers hnull] at h ⊢
      rw [stripped_of_readOpen h]
      exact ((Schema.concur_readOpen (agree_v3_16.member e) x).1 v).1 h
    | none =>
      rw [isUnionKept, List.all_eq_true] at hts
      by_cases hall : ∀ t ∈ ts, t.isOver isUntouched = true
      · exact union_stripped_of_isOver hall ih h
      · rw [not_forall₂] at hall
        obtain ⟨t, ht, hover⟩ := hall
        have hlone := hts t ht
        rw [Bool.eq_false_iff.2 hover, Bool.false_or, Bool.and_eq_true, List.all_eq_true] at hlone
        refine union_stripped_of_isParted hlone.1 (fun u hu => ?_) hnull hopen ih h
        obtain ⟨u', hu', hsame⟩ := List.any_eq_true.1 (hlone.2 u hu)
        rw [Ty.eq_of_same hsame]
        simpa using hu'

/-- Data that is read with the proposed parts is read without them as what is left of it. -/
theorem decodeAt_stripped (ht : isKept t = true) (h : schema.decodeAt withProposed t x = .ok v) :
    schema.decodeAt withoutProposed t x = .ok (stripped v) := by
  induction x using Json.partsInduction generalizing t v with
  | step x ih =>
    have ihRecord {r : RecordName} {v : Datum} (hr : isKept (.record r) = true)
        (h : schema.decodeAt withProposed (.record r) x = .ok v) :
        schema.decodeAt withoutProposed (.record r) x = .ok (stripped v) :=
      record_stripped (Bool.not_eq_true' _ ▸ hr) (fun part hpart t v ht hv => ih part hpart ht hv) h
    have hsame {t : DataType} {v : Datum} (hover : t.isOver isUntouched = true)
        (h : schema.decodeAt withProposed t x = .ok v) (hv : stripped v = v) :
        schema.decodeAt withoutProposed t x = .ok (stripped v) :=
      hv.symm ▸ ((agree_v3_16.concur hover x).1 v).1 h
    induction t using Ty.induction generalizing v with
    | any =>
      rw [Schema.decodeAt_any, Except.ok.injEq] at h ⊢
      rw [← h, stripped_ofJson]
    | null =>
      obtain ⟨-, rfl⟩ := Schema.decodeAt_null_eq_ok_iff.1 h
      exact hsame rfl h (stripped_scalar _)
    | str =>
      obtain ⟨s, -, rfl⟩ := Schema.decodeAt_str_eq_ok_iff.1 h
      exact hsame rfl h (stripped_scalar _)
    | int =>
      obtain ⟨n, -, rfl⟩ := Schema.decodeAt_int_eq_ok_iff.1 h
      exact hsame rfl h (stripped_scalar _)
    | bool =>
      obtain ⟨b, -, rfl⟩ := Schema.decodeAt_bool_eq_ok_iff.1 h
      exact hsame rfl h (stripped_scalar _)
    | float =>
      obtain ⟨y, rfl⟩ := Schema.exists_float_of_decodeAt h
      exact hsame rfl h (stripped_scalar _)
    | listOfAny =>
      rw [Schema.decodeAt_listOfAny, Schema.decodeAt_list_eq_ok_iff] at h ⊢
      obtain ⟨items, values, rfl, rfl, hvalues⟩ := h
      refine ⟨items, values.map stripped, rfl, stripped_list values, ?_⟩
      exact List.forall₂_map_right_iff.2 (Entries.forall₂_imp_of_mem hvalues
        fun d hd w _ hw => ih d hd rfl hw)
    | unknown =>
      obtain ⟨raw, -, -, rfl⟩ := Schema.decodeAt_unknown_eq_ok_iff.1 h
      exact hsame rfl h (stripped_unknown raw)
    | literal text =>
      obtain ⟨-, rfl⟩ := Schema.decodeAt_literal_eq_ok_iff.1 h
      exact hsame rfl h (stripped_scalar _)
    | enumeration e =>
      cases hflags : (schema.enumeration e).isFlags with
      | true =>
        obtain ⟨n, -, rfl⟩ := (Schema.decodeAt_flags_eq_ok_iff hflags).1 h
        exact hsame rfl h (stripped_scalar _)
      | false =>
        obtain ⟨raw, m, -, -, -, rfl⟩ := (Schema.decodeAt_enumeration_eq_ok_iff hflags).1 h
        exact hsame rfl h (stripped_member e m)
    | record r => exact ihRecord ht h
    | list item =>
      rw [Schema.decodeAt_list_eq_ok_iff] at h ⊢
      obtain ⟨items, values, rfl, rfl, hvalues⟩ := h
      refine ⟨items, values.map stripped, rfl, stripped_list values, ?_⟩
      exact List.forall₂_map_right_iff.2 (Entries.forall₂_imp_of_mem hvalues
        fun d hd w _ hw => ih d hd (Ty.every_of_every_list ht) hw)
    | map item =>
      rw [Schema.decodeAt_map_eq_ok_iff] at h ⊢
      obtain ⟨entries, values, rfl, rfl, hvalues⟩ := h
      refine ⟨entries, _, rfl, stripped_map values, ?_⟩
      exact List.forall₂_map_right_iff.2 (Entries.forall₂_imp_of_mem hvalues
        fun entry hentry value _ hread => ⟨hread.1,
          ih entry.2 (List.mem_map_of_mem hentry) (Ty.every_of_every_map ht) hread.2⟩)
    | union ts iht =>
      refine union_stripped (Ty.of_every ht) (fun t htmem v hv => ?_) h
      exact iht t htmem (Ty.every_of_every_union ht t htmem) hv
    | packed r =>
      obtain rfl : r = .semanticHighlightingToken := of_decide_eq_true ht
      refine hsame rfl h ?_
      obtain ⟨-, rfl⟩ | ⟨text, tokens, -, -, rfl⟩ := Schema.decodeAt_packed_eq_ok_iff.1 h
      · exact stripped_scalar _
      · rw [stripped_list, List.map_map]
        exact congrArg Value.list (List.map_congr_left fun token _ => stripped_tokenValue token)
    | recordOrFlag r label =>
      obtain rfl : r = .completionItemTagSupport := of_decide_eq_true ht
      rw [Schema.decodeAt_recordOrFlag_eq_ok_iff] at h ⊢
      obtain ⟨hx, rfl⟩ | ⟨hx, rfl⟩ | ⟨entries, hx, hrecord⟩ := h
      · exact .inl ⟨hx, stripped_scalar _⟩
      · exact .inr (.inl ⟨hx, stripped_ofTrue⟩)
      · exact .inr (.inr ⟨entries, hx, ihRecord rfl hrecord⟩)

/-! ## References -/

theorem isUnionKept_singleton (hflat : t.isUnion = false) (ht : isKeptAt t = true) :
    isUnionKept [t] = true := by
  have hparted (h : isParted t = true) : isUnionKept [t] = true := by
    simp [isUnionKept, h, Ty.same_self]
  cases t with
  | record r => exact hparted rfl
  | list item => exact hparted rfl
  | map item => exact hparted rfl
  | union ts => cases hflat
  | packed r =>
    obtain rfl : r = .semanticHighlightingToken := of_decide_eq_true ht
    rfl
  | recordOrFlag r label =>
    obtain rfl : r = .completionItemTagSupport := of_decide_eq_true ht
    rfl
  | _ => rfl

/-- Null and raw values besides do not change which lists and objects a union takes. -/
theorem isUnionKept_added {ts : List DataType} {u : DataType} (hu : IsAdded u)
    (hts : isUnionKept ts = true) : isUnionKept (Ty.distinct (ts ++ [u])) = true := by
  rw [isUnionKept, List.all_eq_true] at hts ⊢
  have hmem {w : DataType} (hw : w ∈ Ty.distinct (ts ++ [u])) : w ∈ ts ∨ w = u := by
    simpa using (Ty.distinct_sublist _).subset hw
  intro t ht
  rcases hmem ht with ht | rfl
  · have hkept := hts t ht
    rw [Bool.or_eq_true, Bool.and_eq_true, List.all_eq_true] at hkept ⊢
    refine hkept.imp_right fun h => ⟨h.1, fun w hw => ?_⟩
    rcases hmem hw with hw | rfl
    · exact h.2 w hw
    · obtain rfl | rfl := hu
      · exact List.any_eq_true.2 ⟨.null, by simp, rfl⟩
      · exact List.any_eq_true.2 ⟨.unknown, by simp, rfl⟩
  · obtain rfl | rfl := hu <;> rfl

theorem all_withheldNames (r : RecordName) :
    (!withheldRecords.contains r || withheldNames.contains (schema.record r).name) = true := by
  cases r <;> rfl

theorem all_named_isKept : ((TypeRef.primitives ++ namedTypes).all fun named =>
    withheldNames.contains named.1 || isKept named.2) = true := by
  rfl

theorem isKept_of_ofName {text : String} (htext : text ∉ withheldNames)
    (h : TypeRef.ofName text = .ok t) : isKept t = true := by
  have hcontains : withheldNames.contains text = false := by simpa using htext
  rw [TypeRef.ofName] at h
  split at h
  · rename_i t' hlookup
    cases h
    have hnamed := List.all_eq_true.1 all_named_isKept _ (Entries.mem_of_lookup hlookup)
    rwa [hcontains, Bool.false_or] at hnamed
  · obtain ⟨name, hname, rfl⟩ := map_eq_ok_iff.1 h
    cases name with
    | enumeration e => rfl
    | record r =>
      have hr := all_withheldNames r
      have htext : (schema.record r).name = text := text_of_findType hname
      rwa [htext, hcontains, Bool.or_false] at hr

theorem isKept_of_resolve {type : TypeRef} (hbase : type.base ∉ withheldNames)
    (h : type.resolve = .ok t) : isKept t = true :=
  every_of_resolve (fun _ hflat ht => isUnionKept_singleton hflat ht) (fun _ _ => isUnionKept_added)
    (fun _ => rfl) (fun _ => rfl) rfl rfl (fun _ h => isKept_of_ofName hbase h) h

/-- As version 3.13, data is read as the same values with the proposed parts and without them. As
version 3.16, what is read with the proposed parts is read without them too, as a value that lacks
just the fields that are withheld; types made up from records that are withheld are left aside. -/
theorem decode_proposed {type : TypeRef} (h : type.resolve = .ok t) (x : Json) :
    (∀ v, schema.decode true (some .v3_13) t x = .ok v ↔
        schema.decode false (some .v3_13) t x = .ok v) ∧
      (type.base ∉ withheldNames → ∀ v, schema.decode true (some .v3_16) t x = .ok v →
        schema.decode false (some .v3_16) t x = .ok (stripped v)) := by
  constructor
  · intro v
    have hover : t.isOver (fun _ => true) = true :=
      Ty.every_of_forall (fun u => by cases u <;> rfl) t
    rw [Schema.decode_eq_ok_iff, Schema.decode_eq_ok_iff]
    exact and_congr (iff_of_true nofun nofun) ((agree_v3_13.concur hover x).1 v)
  · intro hbase v hv
    rw [Schema.decode_eq_ok_iff] at hv ⊢
    exact ⟨nofun, decodeAt_stripped (isKept_of_resolve hbase h) hv.2⟩

/-- The properties of an action in a request that may be left out. -/
theorem decode_proposed_showMessageRequestParams :
    (TypeRef.optional (.named "ShowMessageRequestParams")).resolve =
        .ok (Ty.orNull (.record .showMessageRequestParams)) ∧
      (TypeRef.optional (.named "ShowMessageRequestParams")).base ∉ withheldNames ∧
      schema.decode false (some .v3_16) (Ty.orNull (.record .showMessageRequestParams))
          (.obj [("type", .int 3), ("message", .str "Reload?"),
            ("actions", .arr [.obj [("title", .str "Retry"), ("attempt", .int 2)]])]) =
        .ok (.record .showMessageRequestParams [.member .messageType (.number "INFO" 3),
          .str "Reload?", .list [.record .messageActionItem [.str "Retry", .null]]]) := by
  have hresolve : (TypeRef.optional (.named "ShowMessageRequestParams")).resolve =
      .ok (Ty.orNull (.record .showMessageRequestParams)) := rfl
  have hbase : (TypeRef.optional (.named "ShowMessageRequestParams")).base ∉ withheldNames := by
    decide
  have hread : schema.decode true (some .v3_16) (Ty.orNull (.record .showMessageRequestParams))
      (.obj [("type", .int 3), ("message", .str "Reload?"),
        ("actions", .arr [.obj [("title", .str "Retry"), ("attempt", .int 2)]])]) =
    .ok (.record .showMessageRequestParams [.member .messageType (.number "INFO" 3),
      .str "Reload?", .list [.record .messageActionItem [.str "Retry",
        .map [("attempt", .int 2)]]]]) := rfl
  exact ⟨hresolve, hbase, (decode_proposed hresolve _).2 hbase _ hread⟩

end LspWire.Protocol
