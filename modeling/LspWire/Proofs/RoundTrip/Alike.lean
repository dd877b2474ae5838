import LspWire.Proofs.Alternatives

/-!
# Values that come back alike

A value comes back alike if the data that it is written as is read as its type, and what is read is
written as the same data. It need not be the same value: a union may choose another alternative than
the one of the value. Lists, maps and unions come back alike if what stands in them does.
-/

namespace LspWire.Protocol

variable {σ : Surface} {t : DataType} {v : Datum}

/-- Types of fields and of what stands in them: regular types and the two wire forms of their own. -/
def isCarried : DataType → Bool
  | .packed r => r = .semanticHighlightingToken
  | .recordOrFlag r _ => r = .completionItemTagSupport
  | t => schema.isRegular t

/-- What a value is written as in a field of a type. -/
def wireAs (t : DataType) (v : Datum) : Json :=
  match t with
  | .packed _ => Cell.packedData v
  | _ => v.wire schema

/-- A value is written as data that is read as its type, and what is read is written as the same
data. -/
def ComesAlike (σ : Surface) (t : DataType) (v : Datum) : Prop :=
  ∃ y, schema.decodeAt σ t (wireAs t v) = .ok y ∧ (wireAs t y).Same (wireAs t v) ∧
    y.isNull = v.isNull

theorem isCarried_of_isRegular (h : schema.isRegular t = true) : isCarried t = true := by
  cases t <;> first | exact h | cases h

theorem isCarried_of_mem {r : RecordName} {f : Field RecordName EnumName}
    (hf : f ∈ (schema.record r).fields) : isCarried f.ty = true := by
  have hty := of_all_fields (all_hasFieldType r) hf
  rw [hasFieldType] at hty
  split at hty
  · rename_i hty'
    rw [hty']
    exact hty
  · rename_i hty'
    rw [hty']
    exact hty
  · rw [isFieldType, Bool.and_eq_true] at hty
    exact isCarried_of_isRegular hty.1

theorem wireAs_of_isRegular (h : schema.isRegular t = true) (v : Datum) :
    wireAs t v = v.wire schema := by
  cases t <;> first | rfl | cases h

theorem wireAs_null (t : DataType) : wireAs t .null = .null := by
  cases t <;> rfl

theorem json_cell (f : Field RecordName EnumName) (v : Datum) :
    (⟨f, v, v.wire schema⟩ : Cell RecordName EnumName).json = wireAs f.ty v := by
  unfold Cell.json wireAs
  cases f.ty <;> rfl

theorem comesAlike_self (h : schema.decodeAt σ t (wireAs t v) = .ok v) : ComesAlike σ t v :=
  ⟨v, h, .refl _, rfl⟩

/-- For regular types only the data that is written counts. -/
theorem comesAlike_iff (ht : schema.isRegular t = true) (hv : schema.HasType t v) :
    ComesAlike σ t v ↔ ∃ y, schema.decodeAt σ t (v.wire schema) = .ok y ∧
      (y.wire schema).Same (v.wire schema) := by
  simp only [ComesAlike, wireAs_of_isRegular ht]
  constructor
  · rintro ⟨y, hread, hsame, -⟩
    exact ⟨y, hread, hsame⟩
  · rintro ⟨y, hread, hsame⟩
    refine ⟨y, hread, hsame, ?_⟩
    rw [Bool.eq_iff_iff, ← isNull_wire_iff ht hv, ← isNull_wire_iff ht (hasType_of_decodeAt ht hread)]
    exact hsame.null_iff

/-! ## Lists and maps -/

theorem comesAlike_list {item : DataType} {items : List Datum}
    (hitem : schema.isRegular item = true) (htyped : ∀ v ∈ items, schema.HasType item v)
    (h : ∀ v ∈ items, ComesAlike σ item v) : ComesAlike σ (.list item) (.list items) := by
  have hregular : schema.isRegular (.list item) = true := by
    rw [Schema.isRegular, Ty.every_list]
    exact hitem
  rw [comesAlike_iff hregular (.list htyped), Value.wire_list]
  obtain ⟨ys, hys⟩ := Entries.exists_forall₂ fun v hv =>
    (comesAlike_iff hitem (htyped v hv)).1 (h v hv)
  refine ⟨.list ys, Schema.decodeAt_list_eq_ok_iff.2 ⟨_, ys, rfl, rfl, ?_⟩, ?_⟩
  · rw [List.forall₂_map_left_iff]
    exact hys.imp fun v y hy => hy.1
  · rw [Value.wire_list]
    refine .of_forall₂ ?_
    rw [List.forall₂_map_left_iff, List.forall₂_map_right_iff]
    exact hys.flip.imp fun y v hy => hy.2

theorem exists_entriesRead {item : DataType} {entries : List (String × Datum)}
    (hitem : schema.isRegular item = true)
    (htyped : ∀ entry ∈ entries, schema.HasType item entry.2)
    (h : ∀ entry ∈ entries, ComesAlike σ item entry.2) :
    ∃ ys, schema.EntriesRead σ item (entries.map fun entry => (entry.1, entry.2.wire schema)) ys ∧
      List.Forall₂ (fun x y => x.1 = y.1 ∧ x.2.Same y.2)
        (ys.map fun entry => (entry.1, entry.2.wire schema))
        (entries.map fun entry => (entry.1, entry.2.wire schema)) := by
  have hentry : ∀ entry ∈ entries, ∃ y : String × Datum, entry.1 = y.1 ∧
      schema.decodeAt σ item (entry.2.wire schema) = .ok y.2 ∧
      (y.2.wire schema).Same (entry.2.wire schema) := by
    intro entry hentry
    obtain ⟨y, hread, hsame⟩ :=
      (comesAlike_iff hitem (htyped entry hentry)).1 (h entry hentry)
    exact ⟨(entry.1, y), rfl, hread, hsame⟩
  obtain ⟨ys, hys⟩ := Entries.exists_forall₂ hentry
  refine ⟨ys, ?_, ?_⟩
  · rw [Schema.EntriesRead, List.forall₂_map_left_iff]
    exact hys.imp fun entry y hy => ⟨hy.1, hy.2.1⟩
  · rw [List.forall₂_map_left_iff, List.forall₂_map_right_iff]
    exact List.Forall₂.flip (hys.imp fun entry y hy => ⟨hy.1.symm, hy.2.2⟩)

theorem comesAlike_map {item : DataType} {entries : List (String × Datum)}
    (hitem : schema.isRegular item = true)
    (htyped : ∀ entry ∈ entries, schema.HasType item entry.2)
    (h : ∀ entry ∈ entries, ComesAlike σ item entry.2) :
    ComesAlike σ (.map item) (.map entries) := by
  have hregular : schema.isRegular (.map item) = true := by
    rw [Schema.isRegular, Ty.every_map]
    exact hitem
  rw [comesAlike_iff hregular (.map htyped), Value.wire_map]
  obtain ⟨ys, hys⟩ := exists_entriesRead hitem htyped h
  refine ⟨.map ys, Schema.decodeAt_map_eq_ok_iff.2 ⟨_, ys, rfl, rfl, hys.1⟩, ?_⟩
  rw [Value.wire_map]
  exact .of_entries hys.2

/-! ## Unions -/

theorem exists_raw_of_hasType {ts : List DataType} {e : EnumName}
    (hothers : Schema.others ts = [.enumeration e, .unknown])
    (hflags : (schema.enumeration e).isFlags = false) (ht : t ∈ Schema.others ts)
    (hv : schema.HasType t v)
    (hraw : ∀ e raw, Ty.enumeration e ∈ ts → v = .unknown raw →
      raw.kind = (schema.enumeration e).kind) :
    ∃ raw, v.wire schema = .scalar raw ∧ raw.kind = (schema.enumeration e).kind := by
  have he : Ty.enumeration e ∈ ts :=
    (Schema.mem_others_iff.1 (hothers ▸ List.mem_cons_self)).1
  rw [hothers] at ht
  rcases List.mem_cons.1 ht with rfl | ht
  · cases hv with
    | member _ hm => exact ⟨_, Value.wire_member _ _, kind_of_mem hm⟩
    | flags hflags' =>
      rw [hflags] at hflags'
      cases hflags'
  · rw [List.mem_singleton.1 ht] at hv
    cases hv with
    | unknown => exact ⟨_, Value.wire_unknown _, hraw e _ he rfl⟩

/-- What an earlier alternative reads instead of the one of a value is written as the same data. -/
theorem same_wire_of_captured {u : DataType} {y z : Datum}
    (hu : schema.isRegular u = true)
    (hcaptured : schema.captured? σ (v.wire schema) u = some y)
    (hwhy : Captured isWithin u t (v.wire schema) y)
    (hread : schema.decodeAt σ t (v.wire schema) = .ok z)
    (hsame : (z.wire schema).Same (v.wire schema)) : (y.wire schema).Same (v.wire schema) := by
  obtain ⟨haccounts, hy⟩ := Schema.captured?_eq_some_iff.1 hcaptured
  generalize v.wire schema = x at *
  cases hwhy with
  | scalar s => rw [wire_of_decodeAt_scalar hu hy]
  | noItems => rw [Value.wire_list, List.map_nil]
  | record hu ht ha hb hmerges hoverlooks =>
    subst hu ht
    rw [Schema.decodeAt_record_eq_ok_iff (isSpread_of_isPlain ha) (nodup_names _)] at hy
    rw [Schema.decodeAt_record_eq_ok_iff (isSpread_of_isPlain hb) (nodup_names _)] at hread
    obtain ⟨-, entries, ys, rfl, rfl, -, hys, -⟩ := hy
    obtain ⟨-, entries', zs, heq, rfl, -, hzs, -⟩ := hread
    cases heq
    exact (same_wire_of_isWithin ha hb hmerges hoverlooks haccounts hys hzs).trans hsame

theorem comesAlike_union {ts : List DataType} (hts : schema.isRegular (.union ts) = true)
    (hsettled : isSettled isWithin (.union ts) = true) (ht : t ∈ ts) (hv : schema.HasType t v)
    (hraw : ∀ e raw, Ty.enumeration e ∈ ts → v = .unknown raw →
      raw.kind = (schema.enumeration e).kind)
    (h : ComesAlike σ t v) : ComesAlike σ (.union ts) v := by
  have hregular := (Schema.isRegular_of_mem hts ht).1
  rw [comesAlike_iff hts (.union ht hv hraw)]
  by_cases hnull : v.wire schema = .null ∧ Ty.null ∈ ts
  · rw [hnull.1, Schema.decodeAt_union_null hnull.2]
    exact ⟨.null, rfl, .of_eq (Value.wire_scalar _)⟩
  · have hne : t ≠ .null := by
      rintro rfl
      cases hv
      exact hnull ⟨Value.wire_scalar _, ht⟩
    have hmem : t ∈ Schema.others ts := Schema.mem_others_iff.2 ⟨ht, hne⟩
    cases hopen : Schema.openEnumeration? (Schema.others ts) with
    | some e =>
      have hothers := Schema.eq_of_openEnumeration? hopen
      have hflags := Schema.isFlags_of_open hts hopen
      obtain ⟨raw, hwire, hkind⟩ := exists_raw_of_hasType hothers hflags hmem hv hraw
      refine ⟨schema.openValue σ e raw, ?_, ?_⟩
      · rw [Schema.decodeAt_union_open hothers hnull, Schema.readOpen_eq_ok_iff hflags]
        exact ⟨raw, hwire, hkind, rfl⟩
      · rw [wire_openValue, hwire]
    | none =>
      obtain ⟨z, hread, hsame⟩ := (comesAlike_iff hregular hv).1 h
      have hapart := areApart_others hts hsettled
      obtain ⟨before, after, hsplit⟩ := List.append_of_mem hmem
      rw [hsplit] at hapart
      obtain ⟨y, hchosen, hy⟩ := exists_chosen?_wire hapart hv hread
      refine ⟨y, (decodeAt_union_eq_ok_iff hts hopen hnull).2 (hsplit ▸ hchosen), ?_⟩
      obtain rfl | ⟨u, hu, hcaptured, hwhy⟩ := hy
      · exact hsame
      · have hu' := hapart.regular u (List.mem_append_left _ hu)
        exact same_wire_of_captured hu' hcaptured hwhy hread hsame

end LspWire.Protocol
