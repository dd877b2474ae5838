import LspWire.Proofs.Reading.Choice
import LspWire.Proofs.References

/-!
# Decoded values belong to the surface

`Value.Available` says that a value holds nothing that is newer than the version of a surface, and
nothing proposed unless the proposed parts are enabled: no record, no field that is set, and no
member of an enumeration. Decoding gives no other values, also where a wire form of its own builds a
record and where the properties of an action stand beside its title.
-/

namespace LspWire

variable {R E : Type}

/-- Values whose records, set fields and members belong to a surface. -/
inductive Value.Available (S : Schema R E) (σ : Surface) : Value R E → Prop where
  | scalar (s : Scalar) : Available S σ (.scalar s)
  | list {items : List (Value R E)} (h : ∀ v ∈ items, Available S σ v) :
    Available S σ (.list items)
  | map {entries : List (String × Value R E)} (h : ∀ entry ∈ entries, Available S σ entry.2) :
    Available S σ (.map entries)
  | member {e : E} {m : Member} (h : EnumDecl.admits σ (S.enumeration e) m = true) :
    Available S σ (.member e m)
  | flags {e : E} (bits : Int)
    (h : ∀ m ∈ (S.enumeration e).members, EnumDecl.admits σ (S.enumeration e) m = true) :
    Available S σ (.flags e bits)
  | unknown (raw : Scalar) : Available S σ (.unknown raw)
  | record {r : R} {values : List (Value R E)} (htag : σ.admits (S.record r).tag = true)
    (hset : ∀ p ∈ (S.record r).fields.zip values, p.2.isNull = false → p.1.isVisible σ = true)
    (hparts : ∀ v ∈ values, Available S σ v) : Available S σ (.record r values)

namespace Value.Available

variable {S : Schema R E} {σ : Surface}

theorem ofJson (x : Json) : Available S σ (.ofJson x) := by
  induction x using Json.induction with
  | scalar s => exact .scalar s
  | arr items ih =>
    rw [Value.ofJson, ofItems_eq_map]
    refine .list fun v hv => ?_
    obtain ⟨x, hx, rfl⟩ := List.mem_map.1 hv
    exact ih x hx
  | obj entries ih =>
    rw [Value.ofJson, ofEntries_eq_map]
    refine .map fun entry hentry => ?_
    obtain ⟨entry', hentry', rfl⟩ := List.mem_map.1 hentry
    exact ih entry' hentry'

theorem of_forall₂ {r : R} {values : List (Value R E)} (htag : σ.admits (S.record r).tag = true)
    (h : List.Forall₂ (fun f v => (v.isNull = false → f.isVisible σ = true) ∧ Available S σ v)
      (S.record r).fields values) : Available S σ (.record r values) := by
  rw [List.forall₂_iff_zip] at h
  refine .record htag (fun p hp => (h.2 hp).1) fun v hv => ?_
  obtain ⟨f, hf⟩ := Entries.exists_mem_zip h.1 hv
  exact (h.2 hf).2

end Value.Available

namespace Protocol

variable {σ : Surface}

theorem available_of_default {r : RecordName} {f : Field RecordName EnumName} {v : Datum}
    (hf : f ∈ (schema.record r).fields) (h : schema.defaultValue? f.default = some v) :
    v.Available schema σ := by
  cases hd : f.default with
  | required => simp [hd, Schema.defaultValue?] at h
  | null =>
    rw [hd] at h
    cases h
    exact .scalar .null
  | text s =>
    rw [hd] at h
    cases h
    exact .scalar (.str s)
  | blank r' =>
    have hstable := of_all_fields (all_hasStableDefault r) hf
    rw [hasStableDefault, hd, Option.isNone_iff_eq_none] at hstable
    rw [hd] at h
    cases h
    refine .of_forall₂ (by rw [hstable, Surface.admits_none]) ?_
    rw [List.forall₂_map_right_iff, List.forall₂_same]
    intro g hg
    cases hg' : g.default with
    | text s =>
      have halways : g.isOmittable = false := by rw [Field.isOmittable, hg']
      exact ⟨fun _ => isVisible_of_not_omittable hg halways σ, .scalar (.str s)⟩
    | _ => exact ⟨nofun, .scalar .null⟩

/-- A field without its entry is null or belongs to every version. -/
theorem isVisible_of_default {r : RecordName} {f : Field RecordName EnumName} {v : Datum}
    (hf : f ∈ (schema.record r).fields) (h : schema.defaultValue? f.default = some v)
    (hv : v.isNull = false) : f.isVisible σ = true := by
  cases hd : f.default with
  | null =>
    rw [hd] at h
    cases h
    cases hv
  | _ => exact isVisible_of_not_omittable hf (by rw [Field.isOmittable, hd]) σ

/-- Records of a wire form of their own are made from numbers and lists. -/
theorem available_of_untagged {r : RecordName} {values : List Datum}
    (htag : σ.admits (schema.record r).tag = true)
    (hfields : (schema.record r).fields.all (·.tag.isNone) = true)
    (hvalues : ∀ v ∈ values, v.Available schema σ) :
    (Value.record r values : Datum).Available schema σ := by
  refine .record htag (fun p hp _ => ?_) hvalues
  have hnone := List.all_eq_true.1 hfields p.1 (List.of_mem_zip hp).1
  rw [Option.isNone_iff_eq_none] at hnone
  rw [Field.isVisible, hnone, Surface.admits_none]

theorem available_readMember {e : EnumName} {layer : Layer (Readable RecordName EnumName)}
    {v : Datum} (h : schema.readMember σ e layer = .ok v) : v.Available schema σ := by
  obtain ⟨hflags, bits, rfl⟩ | ⟨m, rfl, hm⟩ := Schema.readMember_cases h
  · have hstable := hasStableFlags_enumeration e
    rw [hasStableFlags, hflags, Bool.not_true, Bool.false_or, Bool.and_eq_true,
      Option.isNone_iff_eq_none, List.all_eq_true] at hstable
    refine .flags bits fun m hm => ?_
    rw [EnumDecl.admits, hstable.1, Option.isNone_iff_eq_none.1 (hstable.2 m hm),
      Surface.admits_none, Bool.and_self]
  · exact .member hm

theorem available_of_fieldRead {r : RecordName} {f : Field RecordName EnumName}
    {entries : List (String × Json)} {v : Datum} (hf : f ∈ (schema.record r).fields)
    (ih : ∀ x, entries.lookup f.name = some x → ∀ (t : DataType) (v : Datum),
      t.isPortable = true → schema.decodeAt σ t x = .ok v → v.Available schema σ)
    (h : schema.FieldRead σ entries f v) :
    (v.isNull = false → f.isVisible σ = true) ∧ v.Available schema σ := by
  rw [Schema.FieldRead, Field.shown?] at h
  by_cases hvisible : f.isVisible σ = true
  · rw [if_pos hvisible] at h
    refine ⟨fun _ => hvisible, ?_⟩
    cases hx : entries.lookup f.name with
    | none =>
      rw [hx] at h
      exact available_of_default hf h
    | some x =>
      rw [hx] at h
      change schema.decodeAt σ f.ty x = .ok v at h
      replace ih := ih x hx
      have hcodec := of_all_fields (all_hasStableCodec r) hf
      rw [hasStableCodec] at hcodec
      split at hcodec
      · rename_i r' hty
        rw [hty, Schema.decodeAt_packed_eq_ok_iff] at h
        rw [Bool.and_eq_true, Option.isNone_iff_eq_none] at hcodec
        obtain ⟨-, rfl⟩ | ⟨text, tokens, -, -, rfl⟩ := h
        · exact .scalar .null
        · refine .list fun v hv => ?_
          obtain ⟨token, -, rfl⟩ := List.mem_map.1 hv
          refine available_of_untagged (by rw [hcodec.1, Surface.admits_none]) hcodec.2 ?_
          simp [Value.Available.scalar]
      · rename_i r' label hty
        rw [hty, Schema.decodeAt_recordOrFlag_eq_ok_iff] at h
        rw [Bool.and_eq_true, decide_eq_true_iff] at hcodec
        obtain ⟨-, rfl⟩ | ⟨-, rfl⟩ | ⟨-, -, hrecord⟩ := h
        · exact .scalar .null
        · refine available_of_untagged (by rw [hcodec.1]; exact hvisible) hcodec.2 fun v hv => ?_
          obtain ⟨-, -, rfl⟩ := List.mem_map.1 hv
          exact .list (List.forall_mem_nil _)
        · exact ih (.record r') v rfl hrecord
      · exact ih f.ty v hcodec h
  · rw [if_neg hvisible] at h
    exact ⟨isVisible_of_default hf h, available_of_default hf h⟩

theorem available_of_record {r : RecordName} {x : Json} {v : Datum}
    (ih : ∀ part ∈ x.parts, ∀ (t : DataType) (v : Datum), t.isPortable = true →
      schema.decodeAt σ t part = .ok v → v.Available schema σ)
    (h : schema.decodeAt σ (.record r) x = .ok v) : v.Available schema σ := by
  cases hform : (schema.record r).form with
  | spread key rest restTag item =>
    rw [Schema.decodeAt_spread_eq_ok_iff hform] at h
    obtain ⟨entries, d, title, restValue, rfl, rfl, hd, htitle, hrest, -, -⟩ := h
    obtain ⟨htag, htitleVisible, htitleTy, hitem⟩ := spread_declaration hform
    have hpart {entry : String × Json} (hentry : entry ∈ entries) :
        entry.2 ∈ (Json.obj entries).parts := List.mem_map_of_mem hentry
    have htitleAvailable := ih d (hpart (Entries.mem_of_lookup hd)) key.ty title htitleTy htitle
    refine .of_forall₂ (by rw [htag, Surface.admits_none]) ?_
    rw [RecordDecl.fields, hform]
    refine .cons ⟨fun _ => htitleVisible σ, htitleAvailable⟩ (.cons ?_ .nil)
    rw [Schema.RestRead] at hrest
    split at hrest
    · rw [hrest]
      exact ⟨(fun h => by cases h), .scalar _⟩
    · rename_i hvisible
      obtain ⟨values, hvalues, rfl⟩ := hrest
      rw [Bool.or_eq_true, not_or, Bool.not_eq_true', Bool.not_eq_false] at hvisible
      refine ⟨fun _ => hvisible.2, .map fun entry hentry => ?_⟩
      obtain ⟨d, hd, -, hread⟩ := Entries.exists_left_of_forall₂ hvalues hentry
      exact ih d.2 (hpart (List.mem_of_mem_filter hd)) item entry.2 hitem hread
  | _ =>
    have hspread : (schema.record r).isSpread = false := by rw [RecordDecl.isSpread, hform]
    rw [Schema.decodeAt_record_eq_ok_iff hspread (nodup_names r)] at h
    obtain ⟨htag, entries, values, rfl, rfl, -, hfields, -⟩ := h
    refine .of_forall₂ htag (Entries.forall₂_imp_of_mem hfields fun f hf v _ hread => ?_)
    refine available_of_fieldRead hf (fun d hd => ih d ?_) hread
    exact List.mem_map.2 ⟨_, Entries.mem_of_lookup hd, rfl⟩

/-- Decoding gives values of the surface only. -/
theorem available_of_decodeAt {t : DataType} {x : Json} {v : Datum} (ht : t.isPortable = true)
    (h : schema.decodeAt σ t x = .ok v) : v.Available schema σ := by
  induction x using Json.partsInduction generalizing t v with
  | step x ih =>
    induction t using Ty.induction generalizing v with
    | any =>
      rw [Schema.decodeAt_any] at h
      cases h
      exact .ofJson x
    | null =>
      obtain ⟨-, rfl⟩ := Schema.decodeAt_null_eq_ok_iff.1 h
      exact .scalar _
    | str =>
      obtain ⟨s, -, rfl⟩ := Schema.decodeAt_str_eq_ok_iff.1 h
      exact .scalar _
    | int =>
      obtain ⟨n, -, rfl⟩ := Schema.decodeAt_int_eq_ok_iff.1 h
      exact .scalar _
    | bool =>
      obtain ⟨b, -, rfl⟩ := Schema.decodeAt_bool_eq_ok_iff.1 h
      exact .scalar _
    | float =>
      obtain ⟨y, rfl⟩ := Schema.exists_float_of_decodeAt h
      exact .scalar _
    | listOfAny =>
      rw [Schema.decodeAt_listOfAny, Schema.decodeAt_list_eq_ok_iff] at h
      obtain ⟨items, values, rfl, rfl, hvalues⟩ := h
      refine .list fun v hv => ?_
      obtain ⟨d, hd, hread⟩ := Entries.exists_left_of_forall₂ hvalues hv
      exact ih d hd rfl hread
    | unknown =>
      obtain ⟨raw, -, -, rfl⟩ := Schema.decodeAt_unknown_eq_ok_iff.1 h
      exact .unknown raw
    | literal text =>
      obtain ⟨-, rfl⟩ := Schema.decodeAt_literal_eq_ok_iff.1 h
      exact .scalar _
    | enumeration e =>
      cases hflags : (schema.enumeration e).isFlags with
      | true =>
        obtain ⟨n, -, rfl⟩ := (Schema.decodeAt_flags_eq_ok_iff hflags).1 h
        exact .scalar _
      | false =>
        obtain ⟨raw, m, -, -, hm, rfl⟩ := (Schema.decodeAt_enumeration_eq_ok_iff hflags).1 h
        exact .member (Schema.admittedMember?_eq_some_iff.1 hm).2
    | record r => exact available_of_record (fun part hpart t v ht hv => ih part hpart ht hv) h
    | list item =>
      obtain ⟨items, values, rfl, rfl, hvalues⟩ := Schema.decodeAt_list_eq_ok_iff.1 h
      refine .list fun v hv => ?_
      obtain ⟨d, hd, hread⟩ := Entries.exists_left_of_forall₂ hvalues hv
      exact ih d hd (Ty.every_of_every_list ht) hread
    | map item =>
      obtain ⟨entries, values, rfl, rfl, hvalues⟩ := Schema.decodeAt_map_eq_ok_iff.1 h
      refine .map fun entry hentry => ?_
      obtain ⟨d, hd, -, hread⟩ := Entries.exists_left_of_forall₂ hvalues hentry
      exact ih d.2 (List.mem_map_of_mem hd) (Ty.every_of_every_map ht) hread
    | union ts iht =>
      obtain rfl | ⟨t, htmem, hread⟩ | ⟨e, hopen⟩ := Schema.cases_of_decodeAt_union h
      · exact .scalar _
      · exact iht t htmem (Ty.every_of_every_union ht t htmem) hread
      · obtain hmember | ⟨raw, rfl⟩ := Schema.readOpen_cases hopen
        · exact available_readMember hmember
        · exact .unknown raw
    | packed r => cases ht
    | recordOrFlag r label => cases ht

/-- Decoding as a version lets in nothing that the version does not cover and, unless the proposed
parts are enabled, nothing proposed. -/
theorem available_of_decode {type : TypeRef} {enabled : Bool} {version? : Option SpecVersion}
    {t : DataType} {x : Json} {v : Datum} (ht : type.resolve = .ok t)
    (h : schema.decode enabled version? t x = .ok v) :
    v.Available schema ⟨version?.getD (Surface.defaultVersion enabled), enabled⟩ :=
  available_of_decodeAt (isPortable_of_resolve ht) (Schema.decode_eq_ok_iff.1 h).2

theorem available_messageActionItem :
    (TypeRef.named "MessageActionItem").resolve = .ok (.record .messageActionItem) ∧
      schema.decode false none (.record .messageActionItem)
          (.obj [("title", .str "Retry"), ("attempt", .int 2)]) =
        .ok (.record .messageActionItem [.str "Retry", .null]) ∧
      (Value.record .messageActionItem [.str "Retry", .null] : Datum).Available schema
        ⟨.v3_16, false⟩ := by
  have hresolve : (TypeRef.named "MessageActionItem").resolve = .ok (.record .messageActionItem) :=
    rfl
  have hread : schema.decode false none (.record .messageActionItem)
      (.obj [("title", .str "Retry"), ("attempt", .int 2)]) =
    .ok (.record .messageActionItem [.str "Retry", .null]) := rfl
  exact ⟨hresolve, hread, available_of_decode hresolve hread⟩

end Protocol

end LspWire
