import LspWire.Proofs.Writing

/-!
# Shapes of data and values

Reading as a regular type keeps the shape of data: scalars are written as they were read, lists give
lists and objects give maps or records. So null gives null and nothing else does, and only some types
share lists or objects with each other.
-/

namespace LspWire.Protocol

variable {σ : Surface}

/-- A reading as a regular union is null for null, a value of an open enumeration, or the reading as
an alternative. -/
theorem cases_of_regular_union {ts : List DataType} {x : Json} {v : Datum}
    (hts : schema.isRegular (.union ts) = true)
    (h : schema.decodeAt σ (.union ts) x = .ok v) :
    (x = .null ∧ v = .null) ∨
      (∃ e raw, Schema.others ts = [.enumeration e, .unknown] ∧ x = .scalar raw ∧
        raw.kind = (schema.enumeration e).kind ∧ v = schema.openValue σ e raw) ∨
      ∃ t ∈ ts, schema.decodeAt σ t x = .ok v := by
  by_cases hnull : x = .null ∧ Ty.null ∈ ts
  · rw [hnull.1, Schema.decodeAt_union_null hnull.2, Except.ok.injEq] at h
    exact .inl ⟨hnull.1, h.symm⟩
  · cases hopen : Schema.openEnumeration? (Schema.others ts) with
    | some e =>
      have hothers := Schema.eq_of_openEnumeration? hopen
      rw [Schema.decodeAt_union_open hothers hnull,
        Schema.readOpen_eq_ok_iff (Schema.isFlags_of_open hts hopen)] at h
      obtain ⟨raw, hx, hkind, hv⟩ := h
      exact .inr (.inl ⟨e, raw, hothers, hx, hkind, hv⟩)
    | none =>
      rw [decodeAt_union_eq_ok_iff hts hopen hnull] at h
      obtain ⟨t, ht, hread⟩ := Schema.exists_of_chosen? h
      exact .inr (.inr ⟨t, (Schema.mem_others_iff.1 ht).1, hread⟩)

theorem wire_openValue (e : EnumName) (raw : Scalar) :
    (schema.openValue σ e raw).wire schema = .scalar raw := by
  rw [Schema.openValue]
  cases hm : schema.admittedMember? σ e raw with
  | none => exact Value.wire_unknown raw
  | some m =>
    rw [Value.wire_member, (Schema.raw_of_withRaw? (Schema.admittedMember?_eq_some_iff.1 hm).1).2]

/-- What data is read as, without regard to the type that asks for it: a scalar that is written as it
was read, a list of items, a map of entries, or a record. -/
inductive Reads (σ : Surface) : Json → Datum → Prop where
  | scalar {s : Scalar} {v : Datum} (h : v.wire schema = .scalar s) : Reads σ (.scalar s) v
  | list {items : List Json} {values : List Datum} (item : DataType)
    (hitem : schema.isRegular item = true)
    (h : List.Forall₂ (fun x v => schema.decodeAt σ item x = .ok v) items values) :
    Reads σ (.arr items) (.list values)
  | map {entries : List (String × Json)} {values : List (String × Datum)} (item : DataType)
    (hitem : schema.isRegular item = true) (h : schema.EntriesRead σ item entries values) :
    Reads σ (.obj entries) (.map values)
  | record {r : RecordName} {entries : List (String × Json)} {values : List Datum}
    (h : schema.decodeAt σ (.record r) (.obj entries) = .ok (.record r values)) :
    Reads σ (.obj entries) (.record r values)

theorem reads_any (x : Json) : Reads σ x (.ofJson x) := by
  cases x with
  | scalar s => exact .scalar (Value.wire_ofJson _)
  | arr items =>
    rw [Value.ofJson, Value.ofItems_eq_map]
    refine .list .any rfl ?_
    rw [List.forall₂_map_right_iff, List.forall₂_same]
    exact fun x _ => Schema.decodeAt_any x
  | obj entries =>
    rw [Value.ofJson, Value.ofEntries_eq_map]
    refine .map .any rfl ?_
    rw [Schema.EntriesRead, List.forall₂_map_right_iff, List.forall₂_same]
    exact fun entry _ => ⟨rfl, Schema.decodeAt_any entry.2⟩

theorem reads_of_decodeAt {t : DataType} {x : Json} {v : Datum}
    (ht : schema.isRegular t = true) (h : schema.decodeAt σ t x = .ok v) : Reads σ x v := by
  induction t using Ty.induction generalizing v with
  | any =>
    rw [Schema.decodeAt_any] at h
    cases h
    exact reads_any x
  | null =>
    obtain ⟨rfl, rfl⟩ := Schema.decodeAt_null_eq_ok_iff.1 h
    exact .scalar (Value.wire_scalar _)
  | str =>
    obtain ⟨s, rfl, rfl⟩ := Schema.decodeAt_str_eq_ok_iff.1 h
    exact .scalar (Value.wire_scalar _)
  | int =>
    obtain ⟨n, rfl, rfl⟩ := Schema.decodeAt_int_eq_ok_iff.1 h
    exact .scalar (Value.wire_scalar _)
  | bool =>
    obtain ⟨b, rfl, rfl⟩ := Schema.decodeAt_bool_eq_ok_iff.1 h
    exact .scalar (Value.wire_scalar _)
  | float => cases ht
  | listOfAny =>
    rw [Schema.decodeAt_listOfAny, Schema.decodeAt_list_eq_ok_iff] at h
    obtain ⟨items, values, rfl, rfl, hvalues⟩ := h
    exact .list .any rfl hvalues
  | unknown =>
    obtain ⟨raw, rfl, -, rfl⟩ := Schema.decodeAt_unknown_eq_ok_iff.1 h
    exact .scalar (Value.wire_unknown raw)
  | literal text =>
    obtain ⟨rfl, rfl⟩ := Schema.decodeAt_literal_eq_ok_iff.1 h
    exact .scalar (Value.wire_scalar _)
  | enumeration e =>
    cases hflags : (schema.enumeration e).isFlags with
    | true =>
      obtain ⟨n, rfl, rfl⟩ := (Schema.decodeAt_flags_eq_ok_iff hflags).1 h
      exact .scalar (Value.wire_scalar _)
    | false =>
      obtain ⟨raw, m, rfl, -, hm, rfl⟩ := (Schema.decodeAt_enumeration_eq_ok_iff hflags).1 h
      refine .scalar ?_
      rw [Value.wire_member,
        (Schema.raw_of_withRaw? (Schema.admittedMember?_eq_some_iff.1 hm).1).2]
  | record r =>
    obtain ⟨entries, values, rfl, rfl⟩ := exists_of_decodeAt_record h
    exact .record h
  | list item =>
    obtain ⟨items, values, rfl, rfl, hvalues⟩ := Schema.decodeAt_list_eq_ok_iff.1 h
    exact .list item (Ty.every_of_every_list ht) hvalues
  | map item =>
    obtain ⟨entries, values, rfl, rfl, hvalues⟩ := Schema.decodeAt_map_eq_ok_iff.1 h
    exact .map item (Ty.every_of_every_map ht) hvalues
  | union ts iht =>
    obtain ⟨rfl, rfl⟩ | ⟨e, raw, -, rfl, -, rfl⟩ | ⟨t, htmem, hread⟩ :=
      cases_of_regular_union ht h
    · exact .scalar (Value.wire_scalar _)
    · exact .scalar (wire_openValue e raw)
    · exact iht t htmem (Schema.isRegular_of_mem ht htmem).1 hread
  | packed r => cases ht
  | recordOrFlag r label => cases ht

theorem wire_of_decodeAt_scalar {t : DataType} {s : Scalar} {v : Datum}
    (ht : schema.isRegular t = true) (h : schema.decodeAt σ t (.scalar s) = .ok v) :
    v.wire schema = .scalar s := by
  cases reads_of_decodeAt ht h with
  | scalar hwire => exact hwire

/-- Null is read from null only. -/
theorem eq_null_of_decodeAt {t : DataType} {x : Json} (ht : schema.isRegular t = true)
    (h : schema.decodeAt σ t x = .ok .null) : x = .null := by
  cases reads_of_decodeAt ht h with
  | scalar hwire => rw [← hwire, Value.wire_scalar]

end LspWire.Protocol
