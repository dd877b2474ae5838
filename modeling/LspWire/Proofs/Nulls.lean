import LspWire.Proofs.Shapes

/-!
# Null in data and values

Null is written for null alone, and it is read as null alone. So a type without null as a value
refuses null, and beside null it reads the same data as the type with null as a further alternative.
-/

namespace LspWire

variable {R E : Type}

namespace Schema

variable {S : Schema R E} {σ : Surface}

/-- Beside null, a union reads by its other alternatives alone. -/
theorem decodeAt_union_congr {ts us : List (Ty R E)} {x : Json} (hx : x ≠ .null)
    (h : others ts = others us) :
    S.decodeAt σ (.union ts) x = S.decodeAt σ (.union us) x := by
  have hskips (ts : List (Ty R E)) : ¬(x = .null ∧ Ty.null ∈ ts) := fun h => hx h.1
  rw [decodeAt_union, decodeAt_union, readUnion, readUnion, filter_readings, filter_readings, h]
  refine (if_neg ?_).trans (if_neg ?_).symm
  · exact h ▸ skips_iff.not.2 (hskips ts)
  · exact skips_iff.not.2 (hskips us)

end Schema

namespace Protocol

variable {σ : Surface}

theorem kind_ne_null {raw : Scalar} (h : raw.kind = .int ∨ raw.kind = .str) : raw ≠ .null := by
  rintro rfl
  obtain h | h := h <;> cases h

theorem eq_null_of_wire {t : DataType} {v : Datum} (ht : t.isPortable = true)
    (hv : schema.HasType t v) (h : v.wire schema = .null) : v = .null := by
  induction hv with
  | any x =>
    rw [Value.wire_ofJson] at h
    rw [h]
    rfl
  | null => rfl
  | unknown hkind =>
    rw [Value.wire_unknown, Json.scalar.injEq] at h
    exact absurd h (kind_ne_null hkind)
  | @member e m hflags hm =>
    rw [Value.wire_member, Json.scalar.injEq] at h
    exact absurd h (kind_ne_null (kind_of_mem hm ▸ rawKind_enumeration e))
  | record => simp [Value.wire_record] at h
  | union hmem hv hraw ih => exact ih (Ty.every_of_every_union ht _ hmem) h
  | tokens => cases ht
  | noTokens => rfl
  | noRecord => rfl
  | recordOfFlag => cases ht
  | _ => simp at h

theorem isNull_wire_iff {t : DataType} {v : Datum} (ht : schema.isRegular t = true)
    (hv : schema.HasType t v) : v.wire schema = .null ↔ v.isNull = true := by
  rw [Value.isNull_iff]
  refine ⟨eq_null_of_wire (Schema.isPortable_of_isRegular ht) hv, ?_⟩
  rintro rfl
  exact Value.wire_scalar _

theorem isNullable_of_hasType {t : DataType} (hunion : t.isUnion = false)
    (h : schema.HasType t .null) : isNullable t = true := by
  generalize hv : (Value.null : Datum) = v at h
  cases h with
  | any => rfl
  | null => rfl
  | noTokens => rfl
  | noRecord => rfl
  | recordOfFlag => rfl
  | union => cases hunion
  | _ => cases hv

theorem takesNull_of_hasType {t : DataType} (ht : schema.isRegular t = true)
    (h : schema.HasType t .null) : takesNull t = true := by
  cases t with
  | union ts =>
    generalize hnull : (Value.null : Datum) = v at h
    cases h with
    | union hmem hv hraw =>
      rw [← hnull] at hv
      have hflat := (Schema.isRegular_of_mem ht hmem).2
      exact List.any_eq_true.2 ⟨_, hmem, isNullable_of_hasType hflat hv⟩
  | _ => exact isNullable_of_hasType rfl h

/-- Null is read as null. -/
theorem eq_null_of_decodeAt_null {t : DataType} {v : Datum} (ht : schema.isRegular t = true)
    (h : schema.decodeAt σ t .null = .ok v) : v = .null :=
  eq_null_of_wire (Schema.isPortable_of_isRegular ht) (hasType_of_decodeAt ht h)
    (wire_of_decodeAt_scalar ht h)

theorem decodeAt_null_ne_ok {t : DataType} {v : Datum} (ht : schema.isRegular t = true)
    (hnull : takesNull t = false) : schema.decodeAt σ t .null ≠ .ok v := by
  intro h
  have htyped := hasType_of_decodeAt ht h
  rw [eq_null_of_decodeAt_null ht h] at htyped
  rw [takesNull_of_hasType ht htyped] at hnull
  cases hnull

theorem decodeAt_orNull_null (t : DataType) :
    schema.decodeAt σ t.orNull .null = .ok .null := by
  cases t with
  | union ts => exact Schema.decodeAt_union_null (List.mem_append_right _ List.mem_cons_self)
  | _ => exact Schema.decodeAt_union_null (List.mem_cons_of_mem _ List.mem_cons_self)

/-- Beside null, null as a further alternative changes nothing. -/
theorem decodeAt_orNull {t : DataType} {x : Json} (hx : x ≠ .null) (hnull : takesNull t = false) :
    schema.decodeAt σ t.orNull x = schema.decodeAt σ t x := by
  have hothers (ts : List DataType) : Schema.others (ts ++ [.null]) = Schema.others ts := by
    rw [Schema.others, List.filter_append]
    exact List.append_nil _
  cases t with
  | union ts => exact Schema.decodeAt_union_congr hx (hothers ts)
  | null => cases hnull
  | _ => exact Schema.decodeAt_union_singleton rfl fun h => hx h.1

end Protocol

end LspWire
