import LspWire.Proofs.Cells

/-!
# Alternatives of unions

Two alternatives of a union may take the same data only if they take both lists or both objects. For
lists of records and for records the declarations say what then happens: the earlier record refuses
what the later one writes, or it leaves a key of it unaccounted for, or its fields are among those of
the later one. In all unions of the protocol but one, two records of the last kind have the same
fields.
-/

namespace LspWire.Protocol

variable {σ : Surface}

/-! ## Conditions on declarations -/

/-- Whether lists are data of a type that is no union. -/
def takesLists : DataType → Bool
  | .any | .listOfAny | .list _ => true
  | _ => false

/-- Whether objects are data of a type that is no union. -/
def takesObjects : DataType → Bool
  | .any | .map _ | .record _ => true
  | _ => false

/-- Whether no data is read as the first type and written by a value of the second one: fixed texts
that differ, and a text beside a record that may be null. -/
def clashes : DataType → DataType → Bool
  | .literal a, .literal b => a ≠ b
  | .str, .union [.record _, .null] => true
  | _, _ => false

/-- Whether no object is read without a field. -/
def isDemanded (f : Field RecordName EnumName) : Bool :=
  match f.default with
  | .required => true
  | .text _ => f.isLiteral
  | _ => false

/-- Whether a record demands a field that another one does not write or writes differently. -/
def refuses (a b : RecordName) : Bool :=
  (schema.record a).fields.any fun f => isDemanded f &&
    (schema.record b).fields.all fun g => g.name ≠ f.name || clashes f.ty g.ty

/-- Whether a record leaves a key unaccounted for that another one always writes. -/
def overlooks (a b : RecordName) : Bool :=
  (schema.record b).fields.any fun g => !g.isOmittable &&
    (schema.record a).fields.all fun f => f.name ≠ g.name

/-- Whether two fields have the same type but for null: both are required or null unless they are
set. -/
def haveSameType (f g : Field RecordName EnumName) : Bool :=
  match f.default, g.default with
  | .required, .required => f.ty.same g.ty && !takesNull f.ty
  | .required, .null => f.ty.orNull.same g.ty && !takesNull f.ty
  | .null, .required => g.ty.orNull.same f.ty && !takesNull g.ty
  | .null, .null => f.ty.same g.ty
  | _, _ => false

/-- Whether two fields of every version have the same name and the same type but for null. -/
def areCounterparts (f g : Field RecordName EnumName) : Bool :=
  f.name = g.name && f.tag.isNone && g.tag.isNone && haveSameType f g

/-- Whether every field of a record is unchecked and has a counterpart among the fields of another
record. -/
def isWithin (a b : RecordName) : Bool :=
  (schema.record a).fields.all fun f => f.checks.isEmpty &&
    (schema.record b).fields.any fun g => areCounterparts f g

/-- Whether two records have the same fields. -/
def areAligned (a b : RecordName) : Bool := isWithin a b && isWithin b a

/-- Whether an alternative of a union and a later one do not get into each other's way, but for
records that may stand for each other. -/
def isSeparated (merges : RecordName → RecordName → Bool) : DataType → DataType → Bool
  | .record a, .record b =>
    isPlain a && isPlain b && (refuses a b || overlooks a b || merges a b)
  | .list (.record a), .list (.record b) => isPlain a && isPlain b && refuses a b
  | u, t => !(takesLists u && takesLists t) && !(takesObjects u && takesObjects t)

/-- Whether the alternatives of a union are separated. -/
def hasSeparatedAlternatives (merges : RecordName → RecordName → Bool) : DataType → Bool
  | .union ts =>
    decide ((Schema.others ts).Pairwise fun u t => isSeparated merges u t = true)
  | _ => true

/-- Whether all unions in a type are separated. -/
def isSettled (merges : RecordName → RecordName → Bool) (t : DataType) : Bool :=
  t.every (hasSeparatedAlternatives merges)

theorem all_isSettled_isWithin (r : RecordName) :
    ((schema.record r).fields.all fun f => isSettled isWithin f.ty) = true := by
  cases r <;> rfl

/-- The one type of a field with two records of which the first one has fewer fields. -/
def notebookSync : DataType :=
  .union [.record .notebookDocumentSyncOptions, .record .notebookDocumentSyncRegistrationOptions,
    .null]

/-- Whether a field is the one for the synchronization of notebooks that a server announces. -/
def isNotebookSync (r : RecordName) (f : Field RecordName EnumName) : Bool :=
  r = .serverCapabilities && f.name = "notebookDocumentSync"

/-- Whether records that may stand for each other have the same fields, in a type of a field, or the
type is the one where they have not. -/
def hasAlignedType (r : RecordName) (f : Field RecordName EnumName) : Bool :=
  if isNotebookSync r f then f.ty.same notebookSync else isSettled areAligned f.ty

theorem all_hasAlignedType (r : RecordName) :
    (schema.record r).fields.all (hasAlignedType r) = true := by
  cases r <;> rfl

/-! ## Lists and objects -/

theorem takesLists_of_hasType {t : DataType} {items : List Json} {v : Datum}
    (ht : schema.isRegular t = true) (hunion : t.isUnion = false) (h : schema.HasType t v)
    (hwire : v.wire schema = .arr items) : takesLists t = true := by
  cases h with
  | any => rfl
  | listOfAny => rfl
  | list => rfl
  | union => cases hunion
  | tokens => cases ht
  | recordOfFlag => cases ht
  | map => simp at hwire
  | record => simp [Value.wire_record] at hwire
  | _ => simp at hwire

theorem takesObjects_of_hasType {t : DataType} {entries : List (String × Json)} {v : Datum}
    (ht : schema.isRegular t = true) (hunion : t.isUnion = false) (h : schema.HasType t v)
    (hwire : v.wire schema = .obj entries) : takesObjects t = true := by
  cases h with
  | any => rfl
  | map => rfl
  | record => rfl
  | union => cases hunion
  | tokens => cases ht
  | recordOfFlag => cases ht
  | listOfAny => simp at hwire
  | list => simp at hwire
  | _ => simp at hwire

theorem takesLists_of_decodeAt {t : DataType} {items : List Json} {v : Datum}
    (ht : schema.isRegular t = true) (hunion : t.isUnion = false)
    (h : schema.decodeAt σ t (.arr items) = .ok v) : takesLists t = true := by
  have htyped := hasType_of_decodeAt ht h
  cases reads_of_decodeAt ht h with
  | list item hitem hvalues => exact takesLists_of_hasType ht hunion htyped (Value.wire_list _)

theorem takesObjects_of_decodeAt {t : DataType} {entries : List (String × Json)} {v : Datum}
    (ht : schema.isRegular t = true) (hunion : t.isUnion = false)
    (h : schema.decodeAt σ t (.obj entries) = .ok v) : takesObjects t = true := by
  have htyped := hasType_of_decodeAt ht h
  cases reads_of_decodeAt ht h with
  | map item hitem hvalues => exact takesObjects_of_hasType ht hunion htyped (Value.wire_map _)
  | record hrecord => exact takesObjects_of_hasType ht hunion htyped (Value.wire_record _ _)

/-- Of two separated alternatives that take objects, both are records of fields. -/
theorem exists_plain_of_takesObjects {merges : RecordName → RecordName → Bool} {u t : DataType}
    (h : isSeparated merges u t = true) (hu : takesObjects u = true) (ht : takesObjects t = true) :
    ∃ a b, u = .record a ∧ t = .record b ∧ isPlain a = true ∧ isPlain b = true := by
  unfold isSeparated at h
  split at h
  · rw [Bool.and_eq_true, Bool.and_eq_true] at h
    exact ⟨_, _, rfl, rfl, h.1⟩
  · cases hu
  · rw [Bool.and_eq_true, hu, ht] at h
    cases h.2

theorem isOmittable_of_isLiteral {r : RecordName} {f : Field RecordName EnumName}
    (hf : f ∈ (schema.record r).fields) (h : f.isLiteral = true) : f.isOmittable = false := by
  by_contra homittable
  have hnull := (takesNull_of_omittable hf (Bool.not_eq_false _ ▸ homittable)).2
  rw [Field.isLiteral] at h
  split at h
  · rename_i hty
    rw [hty] at hnull
    cases hnull
  · cases h

theorem isSpread_of_isPlain {r : RecordName} (h : isPlain r = true) :
    (schema.record r).isSpread = false := by
  rw [isPlain] at h
  split at h
  · rename_i hform
    rw [RecordDecl.isSpread, hform]
  · cases h

/-- A value of a type that clashes with another one is not written as data of that type. -/
theorem decodeAt_ne_ok_of_clashes {f g : Field RecordName EnumName} {v y : Datum}
    (h : clashes f.ty g.ty = true) (hv : schema.HasType g.ty v) :
    schema.decodeAt σ f.ty (⟨g, v, v.wire schema⟩ : Cell RecordName EnumName).json ≠ .ok y := by
  unfold clashes at h
  split at h
  · rename_i a b hf hg
    rw [hg] at hv
    cases hv
    rw [Cell.json, hf, hg]
    intro hread
    obtain ⟨htext, -⟩ := Schema.decodeAt_literal_eq_ok_iff.1 hread
    rw [Value.wire_scalar, Json.scalar.injEq, Scalar.str.injEq] at htext
    exact of_decide_eq_true h htext.symm
  · rename_i r hf hg
    rw [Cell.json, hf, hg]
    intro hread
    obtain ⟨s, htext, -⟩ := Schema.decodeAt_str_eq_ok_iff.1 hread
    dsimp only at htext
    rw [hg] at hv
    cases hv with
    | union ht hv hraw =>
      rcases List.mem_cons.1 ht with rfl | ht
      · obtain ⟨values, rfl, -⟩ := hv.exists_values
        rw [Value.wire_record] at htext
        cases htext
      · rw [List.mem_singleton.1 ht] at hv
        cases hv
        rw [Value.wire_scalar] at htext
        cases htext
  · cases h

theorem isSome_of_isDemanded {r : RecordName} {f : Field RecordName EnumName}
    {entries : List (String × Json)} {v : Datum} (hf : f ∈ (schema.record r).fields)
    (h : isDemanded f = true)
    (hliteral : ∀ f ∈ (schema.record r).fields, f.isLiteral = true →
      (entries.lookup f.name).isSome)
    (hread : schema.FieldRead σ entries f v) : (f.shown? σ entries).isSome := by
  rw [Schema.FieldRead] at hread
  cases hshown : f.shown? σ entries with
  | some x => rfl
  | none =>
    rw [hshown] at hread
    rw [isDemanded] at h
    split at h
    · rename_i hdefault
      rw [hdefault] at hread
      cases hread
    · rename_i s hdefault
      have hvisible := isVisible_of_not_omittable hf (by rw [Field.isOmittable, hdefault]) σ
      rw [← hshown, Field.shown?, if_pos hvisible]
      exact hliteral f hf h
    · cases h

/-- What a record writes is not read as one that refuses it. -/
theorem decodeAt_ne_ok_of_refuses {a b : RecordName} {v y : Datum} (ha : isPlain a = true)
    (hb : isPlain b = true) (h : refuses a b = true) (hv : schema.HasType (.record b) v) :
    schema.decodeAt σ (.record a) (v.wire schema) ≠ .ok y := by
  obtain ⟨f, hf, hrefuses⟩ := List.any_eq_true.1 h
  rw [Bool.and_eq_true, List.all_eq_true] at hrefuses
  obtain ⟨values, rfl, hlength, hfields, -⟩ := hv.exists_values
  rw [Value.wire_record]
  intro hread
  rw [Schema.decodeAt_record_eq_ok_iff (isSpread_of_isPlain ha) (nodup_names a)] at hread
  obtain ⟨-, entries, ys, heq, -, hliteral, hys, -⟩ := hread
  cases heq
  obtain ⟨yf, -, hyf⟩ := Entries.exists_right_of_forall₂ hys hf
  have hpresent := isSome_of_isDemanded hf hrefuses.1 hliteral hyf
  obtain ⟨x, hx⟩ := Option.isSome_iff_exists.1 hpresent
  -- The demanded field is found, so the other record writes it, with data that clashes.
  obtain ⟨c, hc, -, heq⟩ := Schema.exists_field_of_wireRecord (isSpread_of_isPlain hb)
    (Entries.mem_of_lookup (Field.lookup_of_shown? hx))
  obtain ⟨p, hp, rfl⟩ := List.mem_map.1 hc
  obtain ⟨hname, rfl⟩ := Prod.mk.inj heq
  have hclash : clashes f.ty p.1.ty = true := by
    simpa [hname] using hrefuses.2 p.1 (List.of_mem_zip hp).1
  rw [Schema.FieldRead, hx] at hyf
  exact decodeAt_ne_ok_of_clashes hclash (hfields p hp) hyf

theorem accounts_wire_record {a b : RecordName} {values : List Datum} (hb : isPlain b = true) :
    schema.accounts (.record a) ((Value.record b values : Datum).wire schema) =
      ((schema.record b).fields.zip values).all fun p => p.1.isOmittable && p.2.isNull ||
        (schema.record a).fields.any (·.name = p.1.name) := by
  have hspread := isSpread_of_isPlain hb
  rw [isPlain] at hb
  split at hb
  · rename_i hform
    rw [Value.wire_record, Schema.wireRecord_of_not_spread hspread, Schema.accounts, List.all_map,
      Bool.eq_iff_iff, List.all_eq_true, List.all_eq_true]
    simp only [hform, Form.mem_written_plain, Bool.or_eq_true]
    constructor
    · intro h p hp
      cases hunset : p.1.isOmittable && p.2.isNull with
      | true => exact .inl rfl
      | false => exact .inr (h _ ⟨List.mem_map_of_mem hp, hunset⟩)
    · rintro h c ⟨hc, hset⟩
      obtain ⟨p, hp, rfl⟩ := List.mem_map.1 hc
      refine (h p hp).resolve_left fun hunset => ?_
      rw [Cell.isUnset, hunset] at hset
      cases hset
  · cases hb

/-- What a record writes is not accounted for by one that overlooks it. -/
theorem accounts_eq_false_of_overlooks {a b : RecordName} {v : Datum} (hb : isPlain b = true)
    (h : overlooks a b = true) (hv : schema.HasType (.record b) v) :
    schema.accounts (.record a) (v.wire schema) = false := by
  obtain ⟨g, hg, hoverlooks⟩ := List.any_eq_true.1 h
  rw [Bool.and_eq_true, Bool.not_eq_true', List.all_eq_true] at hoverlooks
  obtain ⟨values, rfl, hlength, -⟩ := hv.exists_values
  obtain ⟨v, hp⟩ := Entries.exists_mem_zip_left hlength.symm hg
  rw [accounts_wire_record hb, List.all_eq_false]
  refine ⟨_, hp, ?_⟩
  rw [Bool.not_eq_true, Bool.or_eq_false_iff, hoverlooks.1, List.any_eq_false]
  refine ⟨rfl, fun f hf => ?_⟩
  have hname : ¬f.name = g.name := of_decide_eq_true (hoverlooks.2 f hf)
  simp only [hname, decide_false, Bool.false_eq_true, not_false_eq_true]

/-- A later alternative whose value an earlier one captures writes a scalar or an empty list, or the
two are records that may stand for each other. -/
theorem cases_of_captured {merges : RecordName → RecordName → Bool} {u t : DataType} {v y : Datum}
    (hu : schema.isRegular u = true) (huUnion : u.isUnion = false)
    (ht : schema.isRegular t = true) (htUnion : t.isUnion = false)
    (h : isSeparated merges u t = true) (hv : schema.HasType t v)
    (hy : schema.captured? σ (v.wire schema) u = some y) :
    (∃ s, v.wire schema = .scalar s) ∨ (v.wire schema = .arr [] ∧ y = .list []) ∨
      ∃ a b, u = .record a ∧ t = .record b ∧ isPlain a = true ∧ isPlain b = true ∧
        merges a b = true ∧ overlooks a b = false := by
  obtain ⟨haccounts, hread⟩ := Schema.captured?_eq_some_iff.1 hy
  unfold isSeparated at h
  split at h
  · rename_i a b
    rw [Bool.and_eq_true, Bool.and_eq_true, Bool.or_eq_true, Bool.or_eq_true] at h
    have hoverlooks : overlooks a b = false := by
      refine Bool.eq_false_iff.2 fun hoverlooks => ?_
      rw [accounts_eq_false_of_overlooks h.1.2 hoverlooks hv] at haccounts
      cases haccounts
    obtain ⟨⟨ha, hb⟩, (hrefuses | hoverlooks') | hmerges⟩ := h
    · exact absurd hread (decodeAt_ne_ok_of_refuses ha hb hrefuses hv)
    · rw [hoverlooks] at hoverlooks'
      cases hoverlooks'
    · exact .inr (.inr ⟨a, b, rfl, rfl, ha, hb, hmerges, hoverlooks⟩)
  · rename_i a b
    rw [Bool.and_eq_true, Bool.and_eq_true] at h
    obtain ⟨⟨ha, hb⟩, hrefuses⟩ := h
    cases hv with
    | list hitems =>
      rename_i items
      rw [Value.wire_list] at hread ⊢
      cases items with
      | nil =>
        obtain ⟨items', values, heq, rfl, hvalues⟩ := Schema.decodeAt_list_eq_ok_iff.1 hread
        cases heq
        cases hvalues
        exact .inr (.inl ⟨rfl, rfl⟩)
      | cons w ws =>
        obtain ⟨items', values, heq, rfl, hvalues⟩ := Schema.decodeAt_list_eq_ok_iff.1 hread
        cases heq
        cases hvalues with
        | cons hw hws =>
          exact absurd hw
            (decodeAt_ne_ok_of_refuses ha hb hrefuses (hitems w List.mem_cons_self))
  · rw [Bool.and_eq_true, Bool.not_eq_true', Bool.not_eq_true'] at h
    cases hw : v.wire schema with
    | scalar s => exact .inl ⟨s, rfl⟩
    | arr items =>
      rw [hw] at hread
      have hboth := h.1
      rw [takesLists_of_decodeAt hu huUnion hread, takesLists_of_hasType ht htUnion hv hw] at hboth
      cases hboth
    | obj entries =>
      rw [hw] at hread
      have hboth := h.2
      rw [takesObjects_of_decodeAt hu huUnion hread,
        takesObjects_of_hasType ht htUnion hv hw] at hboth
      cases hboth

end LspWire.Protocol
