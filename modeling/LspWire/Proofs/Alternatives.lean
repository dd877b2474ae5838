import LspWire.Proofs.Alignment

/-!
# Written values as data of unions

A value of an alternative is written as data that the alternative accounts for. So the union reads
the data as this alternative, unless an earlier one captures it: a scalar, an empty list, or a record
that may stand for the one that was written.
-/

namespace LspWire.Protocol

variable {σ : Surface} {merges : RecordName → RecordName → Bool}

/-- The alternatives of a union that are not null: regular types that are no unions and are
separated. -/
structure AreApart (merges : RecordName → RecordName → Bool) (ts : List DataType) : Prop where
  regular : ∀ t ∈ ts, schema.isRegular t = true
  flat : ∀ t ∈ ts, t.isUnion = false
  separated : ts.Pairwise fun u t => isSeparated merges u t = true

theorem areApart_others {ts : List DataType} (hregular : schema.isRegular (.union ts) = true)
    (hsettled : isSettled merges (.union ts) = true) : AreApart merges (Schema.others ts) where
  regular _ ht := (Schema.isRegular_of_mem hregular (Schema.mem_others_iff.1 ht).1).1
  flat _ ht := (Schema.isRegular_of_mem hregular (Schema.mem_others_iff.1 ht).1).2
  separated := of_decide_eq_true (Ty.of_every hsettled)

/-- Why an earlier alternative may read what a later one has written. -/
inductive Captured (merges : RecordName → RecordName → Bool) (u t : DataType) :
    Json → Datum → Prop where
  | scalar (s : Scalar) (y : Datum) : Captured merges u t (.scalar s) y
  | noItems : Captured merges u t (.arr []) (.list [])
  | record {a b : RecordName} {x : Json} {y : Datum} (hu : u = .record a) (ht : t = .record b)
    (ha : isPlain a = true) (hb : isPlain b = true) (hmerges : merges a b = true)
    (hoverlooks : overlooks a b = false) : Captured merges u t x y

/-- The type of a value accounts for what the value is written as, unless it is the record whose
other keys are the entries of a map. -/
theorem accounts_wire {t : DataType} {v : Datum} (hv : schema.HasType t v)
    (ht : t ≠ .record .messageActionItem) : schema.accounts t (v.wire schema) = true := by
  cases t with
  | record r =>
    have hspread : (schema.record r).isSpread = false := by
      rw [isSpread_record, beq_eq_false_iff_ne]
      exact fun hr => ht (congrArg Ty.record hr)
    obtain ⟨values, rfl, -⟩ := hv.exists_values
    rw [Value.wire_record, Schema.accounts, List.all_eq_true]
    intro entry hentry
    obtain ⟨c, hc, -, rfl⟩ := Schema.exists_field_of_wireRecord hspread hentry
    obtain ⟨p, hp, rfl⟩ := List.mem_map.1 hc
    exact List.any_eq_true.2 ⟨p.1, (List.of_mem_zip hp).1, decide_eq_true rfl⟩
  | _ => cases v.wire schema <;> rfl

theorem takesObjects_eq_false {u : DataType}
    (h : isSeparated merges u (.record .messageActionItem) = true ∨
      isSeparated merges (.record .messageActionItem) u = true) : takesObjects u = false := by
  refine Bool.eq_false_iff.2 fun hu => ?_
  rcases h with h | h
  · obtain ⟨a, b, -, heq, -, hplain⟩ := exists_plain_of_takesObjects h hu rfl
    cases heq
    cases hplain
  · obtain ⟨a, b, heq, -, hplain, -⟩ := exists_plain_of_takesObjects h rfl hu
    cases heq
    cases hplain

theorem reading?_eq_none {u : DataType} {entries : List (String × Json)}
    (hu : schema.isRegular u = true) (hunion : u.isUnion = false)
    (h : takesObjects u = false) : schema.reading? σ (.obj entries) u = none := by
  rw [Option.eq_none_iff_forall_ne_some]
  intro y hy
  rw [takesObjects_of_decodeAt hu hunion (Schema.reading?_eq_some_iff.1 hy)] at h
  cases h

/-- A union reads what a value of an alternative is written as: as this alternative does, unless an
earlier one captures it. -/
theorem exists_chosen?_wire {before after : List DataType} {t : DataType} {v z : Datum}
    (h : AreApart merges (before ++ t :: after)) (hv : schema.HasType t v)
    (hread : schema.decodeAt σ t (v.wire schema) = .ok z) :
    ∃ y, schema.chosen? σ (v.wire schema) (before ++ t :: after) = some y ∧
      (y = z ∨ ∃ u ∈ before, schema.captured? σ (v.wire schema) u = some y ∧
        Captured merges u t (v.wire schema) y) := by
  have hmem {u : DataType} (hu : u ∈ before ++ after) : u ∈ before ++ t :: after :=
    List.mem_append.2 ((List.mem_append.1 hu).imp_right (List.mem_cons_of_mem t))
  have ht : t ∈ before ++ t :: after := List.mem_append_right _ List.mem_cons_self
  have hbefore {u : DataType} (hu : u ∈ before) : isSeparated merges u t = true :=
    (List.pairwise_append.1 h.separated).2.2 u hu t List.mem_cons_self
  have hafter {u : DataType} (hu : u ∈ after) : isSeparated merges t u = true :=
    (List.pairwise_cons.1 (List.pairwise_append.1 h.separated).2.1).1 u hu
  have halone : schema.accounts t (v.wire schema) = true ∨
      ∀ u ∈ before ++ after, schema.reading? σ (v.wire schema) u = none := by
    by_cases hspread : t = .record .messageActionItem
    · refine .inr fun u hu => ?_
      subst hspread
      obtain ⟨values, rfl, -⟩ := hv.exists_values
      rw [Value.wire_record]
      refine reading?_eq_none (h.regular u (hmem hu)) (h.flat u (hmem hu)) ?_
      exact takesObjects_eq_false ((List.mem_append.1 hu).imp hbefore hafter)
    · exact .inl (accounts_wire hv hspread)
  obtain ⟨y, hy, heq | ⟨u, hu, hcaptured⟩⟩ := Schema.chosen?_append_cons hread halone
  · exact ⟨y, hy, .inl heq⟩
  · refine ⟨y, hy, .inr ⟨u, hu, hcaptured, ?_⟩⟩
    have hu' := List.mem_append_left (t :: after) hu
    obtain ⟨s, hs⟩ | ⟨hnil, rfl⟩ | ⟨a, b, ha, hb, hplain, hplain', hmerges, hoverlooks⟩ :=
      cases_of_captured (h.regular u hu') (h.flat u hu') (h.regular t ht) (h.flat t ht)
        (hbefore hu) hv hcaptured
    · rw [hs]
      exact .scalar s y
    · rw [hnil]
      exact .noItems
    · exact .record ha hb hplain hplain' hmerges hoverlooks

end LspWire.Protocol
