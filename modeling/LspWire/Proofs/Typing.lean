import LspWire.Proofs.Checks
import LspWire.Proofs.Regular
import LspWire.Proofs.Tokens

/-!
# Well-typed values

`Schema.HasType` says which values a type has: every field of a record holds a value of the type of
the field and passes its checks, a raw value of an open enumeration has the kind of its members, and
free-form parts are plain data. Decoding as a regular type gives values of this type.
-/

namespace LspWire

variable {R E : Type}

namespace Schema

/-- The values of a type. -/
inductive HasType (S : Schema R E) : Ty R E → Value R E → Prop where
  | any (x : Json) : HasType S .any (.ofJson x)
  | null : HasType S .null .null
  | str (s : String) : HasType S .str (.str s)
  | int (n : Int) : HasType S .int (.int n)
  | bool (b : Bool) : HasType S .bool (.bool b)
  | float (y : Binary64) : HasType S .float (.float y)
  | listOfAny (items : List Json) : HasType S .listOfAny (.list (items.map .ofJson))
  /-- A raw value of an unknown enumeration is a whole number or a text. -/
  | unknown {raw : Scalar} (h : raw.kind = .int ∨ raw.kind = .str) :
    HasType S .unknown (.unknown raw)
  | literal (text : String) : HasType S (.literal text) (.str text)
  | member {e : E} {m : Member} (hflags : (S.enumeration e).isFlags = false)
    (hm : m ∈ (S.enumeration e).members) : HasType S (.enumeration e) (.member e m)
  /-- A sum of flags is a plain integer. -/
  | flags {e : E} (hflags : (S.enumeration e).isFlags = true) (n : Int) :
    HasType S (.enumeration e) (.int n)
  | record {r : R} {values : List (Value R E)}
    (hlength : values.length = (S.record r).fields.length)
    (hfields : ∀ p ∈ (S.record r).fields.zip values, HasType S p.1.ty p.2)
    (hchecks : S.checkFields true r values = .ok ()) : HasType S (.record r) (.record r values)
  | list {item : Ty R E} {items : List (Value R E)} (h : ∀ v ∈ items, HasType S item v) :
    HasType S (.list item) (.list items)
  | map {item : Ty R E} {entries : List (String × Value R E)}
    (h : ∀ entry ∈ entries, HasType S item entry.2) : HasType S (.map item) (.map entries)
  /-- A raw value beside members has the kind of the members. -/
  | union {ts : List (Ty R E)} {t : Ty R E} {v : Value R E} (ht : t ∈ ts) (hv : HasType S t v)
    (hraw : ∀ e raw, Ty.enumeration e ∈ ts → v = .unknown raw →
      raw.kind = (S.enumeration e).kind) : HasType S (.union ts) v
  | noTokens (r : R) : HasType S (.packed r) .null
  | tokens {r : R} {items : List (Value R E)} (h : ∀ v ∈ items, HasType S (.record r) v) :
    HasType S (.packed r) (.list items)
  | noRecord (r : R) (label : String) : HasType S (.recordOrFlag r label) .null
  | recordOfFlag {r : R} {v : Value R E} (label : String) (h : HasType S (.record r) v) :
    HasType S (.recordOrFlag r label) v

/-- The values of a record type are records of typed fields that pass their checks. -/
theorem HasType.exists_values {S : Schema R E} {r : R} {v : Value R E}
    (h : S.HasType (.record r) v) :
    ∃ values, v = .record r values ∧ values.length = (S.record r).fields.length ∧
      (∀ p ∈ (S.record r).fields.zip values, S.HasType p.1.ty p.2) ∧
      S.checkFields true r values = .ok () := by
  cases h with
  | record hlength hfields hchecks => exact ⟨_, rfl, hlength, hfields, hchecks⟩

theorem HasType.exists_str {S : Schema R E} {v : Value R E} (h : S.HasType .str v) :
    ∃ s, v = .str s := by
  cases h with
  | str s => exact ⟨s, rfl⟩

theorem HasType.exists_int {S : Schema R E} {v : Value R E} (h : S.HasType .int v) :
    ∃ n, v = .int n := by
  cases h with
  | int n => exact ⟨n, rfl⟩

theorem HasType.null_or_map {S : Schema R E} {item : Ty R E} {v : Value R E}
    (h : S.HasType (.union [.map item, .null]) v) : v = .null ∨ ∃ entries, v = .map entries := by
  cases h with
  | union ht hv hraw =>
    rcases List.mem_cons.1 ht with rfl | ht
    · cases hv with
      | map h => exact .inr ⟨_, rfl⟩
    · rw [List.mem_singleton.1 ht] at hv
      cases hv with
      | null => exact .inl rfl

theorem HasType.isUnknown {S : Schema R E} {t : Ty R E} {raw : Scalar}
    (h : S.HasType t (.unknown raw)) (hportable : t.isPortable = true)
    (hunion : t.isUnion = false) : t.isUnknown = true := by
  generalize hv : Value.unknown raw = v at h
  cases h with
  | unknown => rfl
  | any x => cases x <;> cases hv
  | union => cases hunion
  | recordOfFlag => cases hportable
  | _ => cases hv

end Schema

namespace Protocol

variable {σ : Surface}

/-! ## Types of fields -/

/-- Whether a type is an enumeration of flags. -/
def isFlags : DataType → Bool
  | .enumeration e => (schema.enumeration e).isFlags
  | _ => false

/-- Whether a type is regular and holds no sums of flags. -/
def isFieldType (t : DataType) : Bool := schema.isRegular t && t.every fun u => !isFlags u

/-- Whether a field has a regular type without sums of flags, or one of the two wire forms of their
own. -/
def hasFieldType (f : Field RecordName EnumName) : Bool :=
  match f.ty with
  | .packed r => r = .semanticHighlightingToken
  | .recordOrFlag r _ => r = .completionItemTagSupport
  | t => isFieldType t

theorem all_hasFieldType (r : RecordName) :
    (schema.record r).fields.all hasFieldType = true := by
  cases r <;> rfl

/-- Whether null is a value of a type that is no union. -/
def isNullable : DataType → Bool
  | .any | .null | .packed _ | .recordOrFlag .. => true
  | _ => false

/-- Whether null is a value of a type. -/
def takesNull : DataType → Bool
  | .union ts => ts.any isNullable
  | t => isNullable t

/-- Whether what a field holds when it is left out is a value of its type. -/
def hasTypedDefault (f : Field RecordName EnumName) : Bool :=
  match f.default, f.ty with
  | .required, _ => true
  | .null, t => takesNull t
  | .text _, .str => true
  | .text s, .literal text => s = text
  | .blank r, .record r' =>
    r = r' && (schema.record r).fields.all fun g => g.isOmittable && g.checks.isEmpty
  | _, _ => false

theorem all_hasTypedDefault (r : RecordName) :
    (schema.record r).fields.all hasTypedDefault = true := by
  cases r <;> rfl

theorem hasType_of_isNullable {t : DataType} (h : isNullable t = true) :
    schema.HasType t .null := by
  cases t with
  | any => exact .any .null
  | null => exact .null
  | packed r => exact .noTokens r
  | recordOrFlag r label => exact .noRecord r label
  | _ => cases h

theorem hasType_null {t : DataType} (h : takesNull t = true) : schema.HasType t .null := by
  cases t with
  | union ts =>
    obtain ⟨t, ht, hnull⟩ := List.any_eq_true.1 h
    exact .union ht (hasType_of_isNullable hnull) nofun
  | _ => exact hasType_of_isNullable h

theorem takesNull_of_omittable {r : RecordName} {f : Field RecordName EnumName}
    (hf : f ∈ (schema.record r).fields) (h : f.isOmittable = true) :
    f.default = .null ∧ takesNull f.ty = true := by
  have hdefault := of_all_fields (all_hasTypedDefault r) hf
  rw [Field.isOmittable] at h
  split at h
  · rename_i hd
    rw [hasTypedDefault, hd] at hdefault
    exact ⟨hd, hdefault⟩
  · cases h

theorem blank_eq {r : RecordName}
    (h : ((schema.record r).fields.all fun f => f.isOmittable && f.checks.isEmpty) = true) :
    schema.blank r = .record r ((schema.record r).fields.map fun _ => .null) := by
  rw [Schema.blank]
  refine congrArg (Value.record r) (List.map_congr_left fun f hf => ?_)
  have hcondition := List.all_eq_true.1 h f hf
  rw [Bool.and_eq_true] at hcondition
  rw [(takesNull_of_omittable hf hcondition.1).1]

/-- The record with all fields left out is a value of its type if no field is required or checked. -/
theorem hasType_blank {r : RecordName}
    (h : ((schema.record r).fields.all fun f => f.isOmittable && f.checks.isEmpty) = true) :
    schema.HasType (.record r) (schema.blank r) := by
  have hfield {f : Field RecordName EnumName} (hf : f ∈ (schema.record r).fields) :
      takesNull f.ty = true ∧ f.checks = [] := by
    have hcondition := List.all_eq_true.1 h f hf
    rw [Bool.and_eq_true, List.isEmpty_iff] at hcondition
    exact ⟨(takesNull_of_omittable hf hcondition.1).2, hcondition.2⟩
  rw [blank_eq h]
  refine .record (List.length_map _) (fun p hp => ?_)
    (Schema.checkFields_eq_ok_iff.2 fun p hp => Schema.checkField_eq_ok_iff.2 ⟨fun _ _ => rfl, ?_⟩)
  · obtain ⟨hf, hv⟩ := List.of_mem_zip hp
    obtain ⟨-, -, hnull⟩ := List.mem_map.1 hv
    rw [← hnull]
    exact hasType_null (hfield hf).1
  · rw [(hfield (List.of_mem_zip hp).1).2]
    exact List.forall_mem_nil _

/-- What a field holds when it is left out: null, a text, or the record with all fields left out. -/
inductive HoldsDefault (f : Field RecordName EnumName) : Datum → Prop where
  | null (hdefault : f.default = .null) (hty : takesNull f.ty = true) : HoldsDefault f .null
  | text {s : String} (hdefault : f.default = .text s) (hty : f.ty = .str ∨ f.ty = .literal s) :
    HoldsDefault f (.str s)
  | blank {r : RecordName} (hdefault : f.default = .blank r) (hty : f.ty = .record r)
    (h : ((schema.record r).fields.all fun g => g.isOmittable && g.checks.isEmpty) = true) :
    HoldsDefault f (schema.blank r)

theorem holdsDefault {r : RecordName} {f : Field RecordName EnumName} {v : Datum}
    (hf : f ∈ (schema.record r).fields) (h : schema.defaultValue? f.default = some v) :
    HoldsDefault f v := by
  have htyped := of_all_fields (all_hasTypedDefault r) hf
  rw [hasTypedDefault] at htyped
  split at htyped
  · rename_i hd
    rw [hd] at h
    cases h
  · rename_i hd
    rw [hd] at h
    cases h
    exact .null hd htyped
  · rename_i s hd hty
    rw [hd] at h
    cases h
    exact .text hd (.inl hty)
  · rename_i s text hd hty
    rw [hd] at h
    cases h
    exact .text hd (.inr (of_decide_eq_true htyped ▸ hty))
  · rename_i r' r'' hd hty
    rw [hd] at h
    cases h
    rw [Bool.and_eq_true, decide_eq_true_iff] at htyped
    exact .blank hd (htyped.1 ▸ hty) htyped.2
  · cases htyped

theorem hasType_of_default {r : RecordName} {f : Field RecordName EnumName} {v : Datum}
    (hf : f ∈ (schema.record r).fields) (h : schema.defaultValue? f.default = some v) :
    schema.HasType f.ty v := by
  cases holdsDefault hf h with
  | null _ hty => exact hasType_null hty
  | text _ hty =>
    rcases hty with hty | hty
    · rw [hty]
      exact .str _
    · rw [hty]
      exact .literal _
  | blank _ hty hblank =>
    rw [hty]
    exact hasType_blank hblank

theorem ne_int_of_default {r : RecordName} {f : Field RecordName EnumName} {v : Datum}
    (hf : f ∈ (schema.record r).fields) (h : schema.defaultValue? f.default = some v) :
    f.ty ≠ .int := by
  intro hty
  cases holdsDefault hf h with
  | null _ hnull =>
    rw [hty] at hnull
    cases hnull
  | text _ htext =>
    rw [hty] at htext
    rcases htext with htext | htext <;> cases htext
  | blank _ hrecord =>
    rw [hty] at hrecord
    cases hrecord

/-! ## Wire forms of their own -/

theorem fields_semanticHighlightingToken :
    (schema.record .semanticHighlightingToken).fields = [
      .required "character" .int [.unsigned 32], .required "length" .int [.unsigned 16],
      .required "scope" .int [.unsigned 16]] :=
  rfl

theorem checkField_unsigned {n bits : Nat} (h : n < 2 ^ bits) (record field : String) :
    schema.checkField true record (.required field .int [.unsigned bits]) (.int n) = .ok () := by
  refine Schema.checkField_eq_ok_iff.2 ⟨fun _ _ => rfl, fun c hc => ?_⟩
  rw [List.mem_singleton.1 hc]
  exact Schema.run_unsigned_eq_ok_iff.2 ⟨n, rfl, h⟩

theorem hasType_tokenValue {t : Token} (h : t.Fits) :
    schema.HasType (.record .semanticHighlightingToken)
      (Schema.tokenValue .semanticHighlightingToken t) := by
  refine .record rfl ?_ (Schema.checkFields_eq_ok_iff.2 ?_)
  · simp only [fields_semanticHighlightingToken, List.zip_cons_cons, List.zip_nil_right,
      List.forall_mem_cons]
    exact ⟨.int _, .int _, .int _, List.forall_mem_nil _⟩
  · simp only [fields_semanticHighlightingToken, List.zip_cons_cons, List.zip_nil_right,
      List.forall_mem_cons]
    exact ⟨checkField_unsigned h.1 _ _, checkField_unsigned h.2.1 _ _,
      checkField_unsigned h.2.2 _ _, List.forall_mem_nil _⟩

theorem exists_nat_of_checkField {n : Int} {bits : Nat} {record field : String}
    (h : schema.checkField true record (.required field .int [.unsigned bits]) (.int n) = .ok ()) :
    ∃ m : Nat, n = m ∧ m < 2 ^ bits :=
  Schema.run_unsigned_eq_ok_iff.1 ((Schema.checkField_eq_ok_iff.1 h).2 _ List.mem_cons_self)

/-- Records of highlighting are tokens whose numbers fit. -/
theorem exists_token_of_hasType {v : Datum}
    (h : schema.HasType (.record .semanticHighlightingToken) v) :
    ∃ t : Token, t.Fits ∧ v = Schema.tokenValue .semanticHighlightingToken t := by
  obtain ⟨values, rfl, hlength, hfields, hchecks⟩ := h.exists_values
  rw [Schema.checkFields_eq_ok_iff] at hchecks
  rw [fields_semanticHighlightingToken] at hlength hfields hchecks
  match values, hlength with
  | [a, b, c], _ =>
    simp only [List.zip_cons_cons, List.zip_nil_right, List.forall_mem_cons] at hfields hchecks
    obtain ⟨m, rfl⟩ := hfields.1.exists_int
    obtain ⟨n, rfl⟩ := hfields.2.1.exists_int
    obtain ⟨k, rfl⟩ := hfields.2.2.1.exists_int
    obtain ⟨character, rfl, hcharacter⟩ := exists_nat_of_checkField hchecks.1
    obtain ⟨length, rfl, hlength⟩ := exists_nat_of_checkField hchecks.2.1
    obtain ⟨scope, rfl, hscope⟩ := exists_nat_of_checkField hchecks.2.2.1
    exact ⟨⟨character, length, scope⟩, ⟨hcharacter, hlength, hscope⟩, rfl⟩

theorem tokens_of_hasType {v : Datum} (h : schema.HasType (.packed .semanticHighlightingToken) v) :
    v = .null ∨ ∃ tokens : List Token, (∀ t ∈ tokens, t.Fits) ∧
      v = .list (tokens.map (Schema.tokenValue .semanticHighlightingToken)) := by
  cases h with
  | noTokens => exact .inl rfl
  | tokens h =>
    rename_i items
    refine .inr ?_
    induction items with
    | nil => exact ⟨[], List.forall_mem_nil _, rfl⟩
    | cons v vs ih =>
      rw [List.forall_mem_cons] at h
      obtain ⟨t, ht, rfl⟩ := exists_token_of_hasType h.1
      obtain ⟨ts, hts, hvs⟩ := ih h.2
      refine ⟨t :: ts, List.forall_mem_cons.2 ⟨ht, hts⟩, ?_⟩
      rw [List.map_cons, ← Value.list.inj hvs]

theorem hasType_ofTrue : schema.HasType (.record .completionItemTagSupport)
    (.record .completionItemTagSupport
      ((schema.record .completionItemTagSupport).fields.map fun _ => .list [])) := by
  refine .record rfl (fun p hp => ?_) rfl
  rw [List.mem_singleton.1 hp]
  exact .list (List.forall_mem_nil _)

/-! ## Decoded values -/

/-- What is read as a field has the type of the field if the data that the object shows for it is
read as values of every regular type. -/
theorem hasType_of_fieldRead {r : RecordName} {f : Field RecordName EnumName}
    {entries : List (String × Json)} {v : Datum} (hf : f ∈ (schema.record r).fields)
    (ih : ∀ x, entries.lookup f.name = some x → ∀ (t : DataType) (v : Datum),
      schema.isRegular t = true → schema.decodeAt σ t x = .ok v → schema.HasType t v)
    (h : schema.FieldRead σ entries f v) : schema.HasType f.ty v := by
  rw [Schema.FieldRead] at h
  cases hx : f.shown? σ entries with
  | none =>
    rw [hx] at h
    exact hasType_of_default hf h
  | some x =>
    rw [hx] at h
    change schema.decodeAt σ f.ty x = .ok v at h
    replace ih := ih x (Field.lookup_of_shown? hx)
    have hty := of_all_fields (all_hasFieldType r) hf
    rw [hasFieldType] at hty
    split at hty
    · rename_i r' hpacked
      rw [of_decide_eq_true hty] at hpacked
      rw [hpacked] at h ⊢
      obtain ⟨-, rfl⟩ | ⟨text, tokens, -, htokens, rfl⟩ := Schema.decodeAt_packed_eq_ok_iff.1 h
      · exact .noTokens _
      · refine .tokens fun v hv => ?_
        obtain ⟨t, ht, rfl⟩ := List.mem_map.1 hv
        exact hasType_tokenValue (Token.fits_of_unpack htokens t ht)
    · rename_i r' label hflag
      rw [of_decide_eq_true hty] at hflag
      rw [hflag] at h ⊢
      obtain ⟨-, rfl⟩ | ⟨-, rfl⟩ | ⟨-, -, hrecord⟩ :=
        Schema.decodeAt_recordOrFlag_eq_ok_iff.1 h
      · exact .noRecord _ _
      · exact .recordOfFlag _ hasType_ofTrue
      · exact .recordOfFlag _ (ih _ v rfl hrecord)
    · rw [isFieldType, Bool.and_eq_true] at hty
      exact ih f.ty v hty.1 h

theorem hasType_of_record {r : RecordName} {x : Json} {v : Datum}
    (ih : ∀ part ∈ x.parts, ∀ (t : DataType) (v : Datum), schema.isRegular t = true →
      schema.decodeAt σ t part = .ok v → schema.HasType t v)
    (h : schema.decodeAt σ (.record r) x = .ok v) : schema.HasType (.record r) v := by
  cases hspread : (schema.record r).isSpread with
  | true =>
    rw [isSpread_record, beq_iff_eq] at hspread
    subst hspread
    rw [Schema.decodeAt_spread_eq_ok_iff form_messageActionItem] at h
    obtain ⟨entries, d, title, restValue, rfl, rfl, hd, htitle, hrest, -, hchecks⟩ := h
    have hpart {entry : String × Json} (hentry : entry ∈ entries) :
        entry.2 ∈ (Json.obj entries).parts := List.mem_map_of_mem hentry
    refine .record rfl ?_ (Schema.checkFields_enabled hchecks)
    simp only [fields_messageActionItem, List.zip_cons_cons, List.zip_nil_right,
      List.forall_mem_cons]
    refine ⟨ih d (hpart (Entries.mem_of_lookup hd)) .str title rfl htitle, ?_,
      List.forall_mem_nil _⟩
    rw [Schema.RestRead] at hrest
    split at hrest
    · rw [hrest]
      exact hasType_null rfl
    · obtain ⟨values, hvalues, rfl⟩ := hrest
      refine .union List.mem_cons_self (.map fun entry hentry => ?_) fun _ _ _ h => by cases h
      obtain ⟨d, hd, -, hread⟩ := Entries.exists_left_of_forall₂ hvalues hentry
      exact ih d.2 (hpart (List.mem_of_mem_filter hd)) _ entry.2 rfl hread
  | false =>
    rw [Schema.decodeAt_record_eq_ok_iff hspread (nodup_names r)] at h
    obtain ⟨-, entries, values, rfl, rfl, -, hfields, hchecks⟩ := h
    refine .record hfields.length_eq.symm (fun p hp => ?_) (Schema.checkFields_enabled hchecks)
    have hread := List.forall₂_zip hfields hp
    refine hasType_of_fieldRead (List.of_mem_zip hp).1 (fun d hd => ih d ?_) hread
    exact List.mem_map.2 ⟨_, Entries.mem_of_lookup hd, rfl⟩

theorem decide_rawKind (e : EnumName) :
    decide ((schema.enumeration e).kind = .int ∨ (schema.enumeration e).kind = .str) = true := by
  cases e <;> rfl

theorem rawKind_enumeration (e : EnumName) :
    (schema.enumeration e).kind = .int ∨ (schema.enumeration e).kind = .str :=
  of_decide_eq_true (decide_rawKind e)

theorem hasType_openValue {e : EnumName} {raw : Scalar} {ts : List DataType}
    (hts : Schema.others ts = [.enumeration e, .unknown])
    (hflags : (schema.enumeration e).isFlags = false)
    (hkind : raw.kind = (schema.enumeration e).kind) :
    schema.HasType (.union ts) (schema.openValue σ e raw) := by
  have hmem {t : DataType} (ht : t ∈ Schema.others ts) : t ∈ ts := (Schema.mem_others_iff.1 ht).1
  rw [Schema.openValue]
  cases hm : schema.admittedMember? σ e raw with
  | some m =>
    have hraw := Schema.raw_of_withRaw? (Schema.admittedMember?_eq_some_iff.1 hm).1
    exact .union (hmem (by simp [hts])) (.member hflags hraw.1) fun _ _ _ h => by cases h
  | none =>
    refine .union (hmem (by simp [hts])) (.unknown ?_) fun e' raw' he' heq => ?_
    · rw [hkind]
      exact rawKind_enumeration e
    · cases heq
      have hothers : Ty.enumeration e' ∈ Schema.others ts := Schema.mem_others_iff.2 ⟨he', fun h => by cases h⟩
      rw [hts] at hothers
      obtain rfl : e' = e := by simpa using hothers
      exact hkind

/-- Decoding as a regular type gives values of the type. -/
theorem hasType_of_decodeAt {t : DataType} {x : Json} {v : Datum}
    (ht : schema.isRegular t = true) (h : schema.decodeAt σ t x = .ok v) :
    schema.HasType t v := by
  induction x using Json.partsInduction generalizing t v with
  | step x ih =>
    induction t using Ty.induction generalizing v with
    | any =>
      rw [Schema.decodeAt_any] at h
      cases h
      exact .any x
    | null =>
      obtain ⟨-, rfl⟩ := Schema.decodeAt_null_eq_ok_iff.1 h
      exact .null
    | str =>
      obtain ⟨s, -, rfl⟩ := Schema.decodeAt_str_eq_ok_iff.1 h
      exact .str s
    | int =>
      obtain ⟨n, -, rfl⟩ := Schema.decodeAt_int_eq_ok_iff.1 h
      exact .int n
    | bool =>
      obtain ⟨b, -, rfl⟩ := Schema.decodeAt_bool_eq_ok_iff.1 h
      exact .bool b
    | float => cases ht
    | listOfAny =>
      rw [Schema.decodeAt_listOfAny, Schema.decodeAt_list_eq_ok_iff] at h
      obtain ⟨items, values, rfl, rfl, hvalues⟩ := h
      simp only [Schema.decodeAt_any, Except.ok.injEq] at hvalues
      rw [← List.forall₂_map_left_iff, List.forall₂_eq_eq_eq] at hvalues
      rw [← hvalues]
      exact .listOfAny items
    | unknown =>
      obtain ⟨raw, -, hkind, rfl⟩ := Schema.decodeAt_unknown_eq_ok_iff.1 h
      exact .unknown hkind
    | literal text =>
      obtain ⟨-, rfl⟩ := Schema.decodeAt_literal_eq_ok_iff.1 h
      exact .literal text
    | enumeration e =>
      cases hflags : (schema.enumeration e).isFlags with
      | true =>
        obtain ⟨n, -, rfl⟩ := (Schema.decodeAt_flags_eq_ok_iff hflags).1 h
        exact .flags hflags n
      | false =>
        obtain ⟨raw, m, -, -, hm, rfl⟩ := (Schema.decodeAt_enumeration_eq_ok_iff hflags).1 h
        exact .member hflags
          (Schema.raw_of_withRaw? (Schema.admittedMember?_eq_some_iff.1 hm).1).1
    | record r => exact hasType_of_record (fun part hpart t v ht hv => ih part hpart ht hv) h
    | list item =>
      obtain ⟨items, values, rfl, rfl, hvalues⟩ := Schema.decodeAt_list_eq_ok_iff.1 h
      refine .list fun v hv => ?_
      obtain ⟨d, hd, hread⟩ := Entries.exists_left_of_forall₂ hvalues hv
      exact ih d hd (Ty.every_of_every_list ht) hread
    | map item =>
      obtain ⟨entries, values, rfl, rfl, hvalues⟩ := Schema.decodeAt_map_eq_ok_iff.1 h
      refine .map fun entry hentry => ?_
      obtain ⟨d, hd, -, hread⟩ := Entries.exists_left_of_forall₂ hvalues hentry
      exact ih d.2 (List.mem_map_of_mem hd) (Ty.every_of_every_map ht) hread
    | union ts iht =>
      by_cases hnull : x = .null ∧ Ty.null ∈ ts
      · rw [hnull.1, Schema.decodeAt_union_null hnull.2, Except.ok.injEq] at h
        rw [← h]
        exact .union hnull.2 .null nofun
      · cases hopen : Schema.openEnumeration? (Schema.others ts) with
        | some e =>
          have hts := Schema.eq_of_openEnumeration? hopen
          have hflags := Schema.isFlags_of_open ht hopen
          rw [Schema.decodeAt_union_open hts hnull, Schema.readOpen_eq_ok_iff hflags] at h
          obtain ⟨raw, -, hkind, rfl⟩ := h
          exact hasType_openValue hts hflags hkind
        | none =>
          have hraw := Schema.keepsRawApart_of_isRegular ht
          rw [Schema.keepsRawApart, hopen] at hraw
          rw [decodeAt_union_eq_ok_iff ht hopen hnull] at h
          obtain ⟨t, htmem, hread⟩ := Schema.exists_of_chosen? h
          have hmem := (Schema.mem_others_iff.1 htmem).1
          obtain ⟨hregular, hflat⟩ := Schema.isRegular_of_mem ht hmem
          have htyped := iht t hmem hregular hread
          refine .union hmem htyped fun e raw he hv => ?_
          -- Bare raw values and an enumeration do not stand beside each other.
          rw [hv] at htyped
          have hunknown := htyped.isUnknown (Schema.isPortable_of_isRegular hregular) hflat
          have hboth : (ts.any (·.isUnknown) && ts.any (·.isEnumeration)) = true := by
            rw [Bool.and_eq_true, List.any_eq_true, List.any_eq_true]
            exact ⟨⟨t, hmem, hunknown⟩, ⟨_, he, rfl⟩⟩
          rw [hboth] at hraw
          cases hraw
    | packed r => cases ht
    | recordOrFlag r label => cases ht

end Protocol

end LspWire
