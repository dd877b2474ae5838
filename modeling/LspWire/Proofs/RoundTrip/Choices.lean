import LspWire.Proofs.RoundTrip.Returned

/-!
# Alternatives that are chosen again

A union that has read an object or a list chooses the same alternative for what the value is written
as. An earlier one could only capture it if its fields are aligned with those of the chosen record;
but then it would have read the data in the first place.
-/

namespace LspWire.Protocol

variable {σ : Surface} {t : DataType} {d : Json} {x y : Datum}

/-- What has been read from a scalar is written as this scalar, and comes back. -/
theorem decodeAt_wire_of_scalar {s : Scalar} (ht : schema.isRegular t = true)
    (h : schema.decodeAt σ t (.scalar s) = .ok x) :
    schema.decodeAt σ t (x.wire schema) = .ok (returned x) := by
  have hwire := wire_of_decodeAt_scalar ht h
  rw [returned_of_wire_scalar hwire, hwire]
  exact h

theorem wire_ne_scalar (ht : schema.isRegular t = true) (h : schema.decodeAt σ t d = .ok x)
    (hd : ∀ s, d ≠ .scalar s) (s : Scalar) : x.wire schema ≠ .scalar s := by
  cases reads_of_decodeAt ht h with
  | scalar hwire => exact absurd rfl (hd _)
  | list => simp
  | map => simp
  | record => simp [Value.wire_record]

/-- A record that captures what an aligned one is written as has read the data, and it accounts for
the same keys. -/
theorem captured?_of_areAligned {a b : RecordName} (ha : isPlain a = true) (hb : isPlain b = true)
    (haligned : areAligned a b = true) (h : schema.decodeAt σ (.record b) d = .ok x)
    (hcaptured : schema.captured? σ (x.wire schema) (.record a) = some y) :
    ∃ v, schema.reading? σ d (.record a) = some v ∧
      (schema.accounts (.record b) d = true → schema.captured? σ d (.record a) = some v) := by
  rw [areAligned, Bool.and_eq_true] at haligned
  rw [Schema.decodeAt_record_eq_ok_iff (isSpread_of_isPlain hb) (nodup_names b)] at h
  obtain ⟨-, entries, ws, rfl, rfl, -, hws, -⟩ := h
  obtain ⟨-, hread⟩ := Schema.captured?_eq_some_iff.1 hcaptured
  rw [Value.wire_record,
    Schema.decodeAt_record_eq_ok_iff (isSpread_of_isPlain ha) (nodup_names a)] at hread
  obtain ⟨hadmits, entries', ys, heq, -, -, hys, -⟩ := hread
  cases heq
  obtain ⟨vs, hvs⟩ := exists_fieldsRead hb haligned.1 hws hys
  have hreading := decodeAt_of_fieldsRead ha haligned.1 hadmits hvs
  exact ⟨.record a vs, Schema.reading?_eq_some_iff.2 hreading, fun haccounts =>
    Schema.captured?_eq_some_iff.2 ⟨accounts_of_isWithin haligned.2 haccounts, hreading⟩⟩

/-- The alternative that a union has chosen for data is chosen again. -/
theorem chosen?_wire {ts : List DataType} (hapart : AreApart areAligned ts)
    (hd : ∀ s, d ≠ .scalar s) (h : schema.chosen? σ d ts = some x)
    (ih : ∀ t ∈ ts, schema.decodeAt σ t d = .ok x →
      schema.decodeAt σ t (x.wire schema) = .ok (returned x)) :
    schema.chosen? σ (x.wire schema) ts = some (returned x) := by
  obtain ⟨before, t, after, rfl, hread, hbefore, hfirst⟩ := Schema.split_of_chosen? h
  have hmem : t ∈ before ++ t :: after := List.mem_append_right _ List.mem_cons_self
  have htyped := hasType_of_decodeAt (hapart.regular t hmem) hread
  have hwire := wire_ne_scalar (hapart.regular t hmem) hread hd
  obtain ⟨y, hchosen, rfl | ⟨u, hu, hcaptured, hwhy⟩⟩ :=
    exists_chosen?_wire hapart htyped (ih t hmem hread)
  · exact hchosen
  · generalize hx : x.wire schema = w at *
    cases hwhy with
    | scalar s => exact absurd rfl (hwire s)
    | noItems =>
      cases reads_of_decodeAt (hapart.regular t hmem) hread with
      | scalar => exact absurd rfl (hd _)
      | list item hitem hvalues =>
        rw [Value.wire_list, Json.arr.injEq, List.map_eq_nil_iff] at hx
        rw [hx]
        exact hchosen.trans (congrArg some (returned_list []).symm)
      | map => simp at hx
      | record => simp [Value.wire_record] at hx
    | record hu' ht ha hb haligned hoverlooks =>
      -- The earlier record would have been chosen for the data already.
      subst hu' ht hx
      obtain ⟨v, hreading, hagain⟩ := captured?_of_areAligned ha hb haligned hread hcaptured
      rcases hfirst with haccounts | hnone
      · rw [hbefore _ hu] at hagain
        cases hagain haccounts
      · rw [hnone _ hu] at hreading
        cases hreading

/-- A union reads what it has read once more, if its alternatives do. -/
theorem decodeAt_union_wire {ts : List DataType} (hts : schema.isRegular (.union ts) = true)
    (hsettled : isSettled areAligned (.union ts) = true) (hd : ∀ s, d ≠ .scalar s)
    (h : schema.decodeAt σ (.union ts) d = .ok x)
    (ih : ∀ t ∈ ts, schema.decodeAt σ t d = .ok x →
      schema.decodeAt σ t (x.wire schema) = .ok (returned x)) :
    schema.decodeAt σ (.union ts) (x.wire schema) = .ok (returned x) := by
  have hwire := wire_ne_scalar hts h hd
  have hnull : ¬(d = .null ∧ Ty.null ∈ ts) := fun hnull => hd _ hnull.1
  have hnull' : ¬(x.wire schema = .null ∧ Ty.null ∈ ts) := fun hnull => hwire _ hnull.1
  cases hopen : Schema.openEnumeration? (Schema.others ts) with
  | some e =>
    -- An open enumeration reads nothing but scalars.
    have hothers := Schema.eq_of_openEnumeration? hopen
    rw [Schema.decodeAt_union_open hothers hnull,
      Schema.readOpen_eq_ok_iff (Schema.isFlags_of_open hts hopen)] at h
    obtain ⟨raw, hd', -⟩ := h
    exact absurd hd' (hd raw)
  | none =>
    rw [decodeAt_union_eq_ok_iff hts hopen hnull] at h
    rw [decodeAt_union_eq_ok_iff hts hopen hnull']
    refine chosen?_wire (areApart_others hts hsettled) hd h fun t ht hread => ?_
    exact ih t (Schema.mem_others_iff.1 ht).1 hread

end LspWire.Protocol
