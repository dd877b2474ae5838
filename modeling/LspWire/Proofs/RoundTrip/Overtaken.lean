import LspWire.Proofs.RoundTrip.Altered
import LspWire.Proofs.RoundTrip.Built
import LspWire.Proofs.RoundTrip.Traceable
import Mathlib.Data.List.Pairwise

/-!
# Records that are read as earlier ones

Where two records of a union may stand for each other, the earlier one captures what the later one
is written as just if it has fields for all that is written and the fields that it demands are set.
`Overtaken` lists these cases, so a union brings a value back as its alternative does unless the
value is overtaken.
-/

namespace LspWire.Protocol

variable {σ : Surface} {t : DataType} {ts us : List DataType} {v z : Datum} {a b : RecordName}
  {values : List Datum}

/-! ## Records that stand for each other -/

/-- Whether a record has a field for all that another one writes, and whatever it demands is set. -/
def standsFor (a b : RecordName) (values : List Datum) : Bool :=
  ((schema.record b).fields.zip values).all fun p =>
    ((schema.record a).fields.any (fun f => f.name = p.1.name) ||
        p.1.isOmittable && p.2.isNull) &&
      ((schema.record a).fields.all (fun f => f.name ≠ p.1.name || f.isOmittable) || !p.2.isNull)

theorem isNull_of_fieldRead (hb : isPlain b = true)
    (hv : schema.HasType (.record b) (.record b values))
    (ha : (Value.record b values : Datum).Available schema σ)
    {g : Field RecordName EnumName} (hp : (g, v) ∈ (schema.record b).fields.zip values)
    (htag : g.tag = none)
    (hz : schema.FieldRead σ (schema.wireRecord b (Value.cells schema b values)) g z) :
    z.isNull = v.isNull := by
  obtain ⟨values', heq, hlength, hfields, -⟩ := hv.exists_values
  cases heq
  have hlookup := lookup_wireRecord hb hlength hp
  rw [fieldRead_iff_of_untagged htag, hlookup, json_cell] at hz
  dsimp only at hz
  split at hz
  · rename_i hunset
    rw [Bool.and_eq_true] at hunset
    obtain ⟨x, hx, -⟩ | ⟨-, hdefault⟩ := hz
    · cases hx
    · rw [(takesNull_of_omittable (List.of_mem_zip hp).1 hunset.1).1] at hdefault
      cases hdefault
      exact hunset.2.symm
  · obtain ⟨x, hx, hread⟩ | ⟨hx, -⟩ := hz
    · cases hx
      have hf := (List.of_mem_zip hp).1
      cases ha with
      | record hadmits hset hparts =>
        obtain ⟨y, hy, -, hnull⟩ := comesAlike_of_hasType (hfields _ hp) (isCarried_of_mem hf)
          (of_all_fields (all_isSettled_isWithin b) hf) (hparts _ (List.of_mem_zip hp).2)
        rw [← hnull, Except.ok.inj (hread.symm.trans hy)]
    · cases hx

/-- A record whose fields have counterparts in another one captures what the other one is written
as, just if it stands for the other one. -/
theorem isSome_captured? (ha : isPlain a = true) (hb : isPlain b = true)
    (hwithin : isWithin a b = true) (htag : (schema.record a).tag = (schema.record b).tag)
    (hv : schema.HasType (.record b) (.record b values))
    (havailable : (Value.record b values : Datum).Available schema σ)
    (hread : schema.decodeAt σ (.record b) ((Value.record b values : Datum).wire schema) = .ok z) :
    (schema.captured? σ ((Value.record b values : Datum).wire schema) (.record a)).isSome =
      standsFor a b values := by
  obtain ⟨values', heq, hlength, -⟩ := hv.exists_values
  cases heq
  rw [Schema.decodeAt_record_eq_ok_iff (isSpread_of_isPlain hb) (nodup_names b)] at hread
  obtain ⟨hadmits, entries, zs, heq, -, -, hzs, -⟩ := hread
  rw [Value.wire_record, Json.obj.injEq] at heq
  subst heq
  have hnull {g : Field RecordName EnumName} {v z : Datum}
      (hp : (g, v) ∈ (schema.record b).fields.zip values) (htag : g.tag = none)
      (hz : schema.FieldRead σ (schema.wireRecord b (Value.cells schema b values)) g z) :=
    isNull_of_fieldRead hb hv havailable hp htag hz
  rw [Bool.eq_iff_iff, Option.isSome_iff_exists, standsFor, List.all_eq_true]
  simp only [Schema.captured?_eq_some_iff, accounts_wire_record hb, List.all_eq_true,
    Bool.and_eq_true (_ || _)]
  constructor
  · rintro ⟨y, haccounts, hread⟩ ⟨g, v⟩ hp
    rw [Value.wire_record,
      Schema.decodeAt_record_eq_ok_iff (isSpread_of_isPlain ha) (nodup_names a)] at hread
    obtain ⟨-, entries, ys, heq, -, -, hys, -⟩ := hread
    cases heq
    refine ⟨by rw [Bool.or_comm]; exact haccounts _ hp, ?_⟩
    rw [Bool.or_eq_true, Bool.not_eq_true']
    refine or_iff_not_imp_right.2 fun hv => List.all_eq_true.2 fun f hf => ?_
    rw [Bool.not_eq_false] at hv
    by_contra hdemanded
    simp only [Bool.or_eq_true, decide_eq_true_iff, not_or, not_not, Bool.not_eq_true] at hdemanded
    obtain ⟨hname, halways⟩ := hdemanded
    -- The demanded field reads what the other record has written for null.
    obtain ⟨-, g', hg', hcounterparts⟩ := exists_counterpart hwithin hf
    have hg := (List.of_mem_zip hp).1
    obtain rfl : g' = g :=
      Field.eq_of_name_eq (nodup_names b) hg' hg (hcounterparts.name.symm.trans hname)
    obtain ⟨y, -, hy⟩ := Entries.exists_right_of_forall₂ hys hf
    obtain ⟨z, -, hz⟩ := Entries.exists_right_of_forall₂ hzs hg
    have hdefault : f.default ≠ .null := by
      intro hdefault
      rw [Field.isOmittable, hdefault] at halways
      cases halways
    obtain ⟨hrequired, htakes⟩ := hcounterparts.takesNull_eq_false hdefault
    refine ne_null_of_fieldRead hf hrequired htakes hy ?_
    rw [eq_of_counterparts hf hg hcounterparts hy hz, ← Value.isNull_iff,
      hnull hp hcounterparts.tags.2 hz, hv]
  · intro h
    have hvs : ∃ vs, schema.FieldsRead σ (schema.wireRecord b (Value.cells schema b values))
        (schema.record a).fields vs := by
      refine Entries.exists_forall₂ fun f hf => ?_
      obtain ⟨-, g, hg, hcounterparts⟩ := exists_counterpart hwithin hf
      obtain ⟨v, hp⟩ := Entries.exists_mem_zip_left hlength.symm hg
      obtain ⟨z, -, hz⟩ := Entries.exists_right_of_forall₂ hzs hg
      refine ⟨z, fieldRead_of_counterparts hg hcounterparts hz ?_⟩
      have hset := (h _ hp).2
      rw [Bool.or_eq_true, List.all_eq_true] at hset
      rcases hset with hall | hv
      · have homittable := hall f hf
        rw [Bool.or_eq_true, decide_eq_true_iff] at homittable
        exact .inl (takesNull_of_omittable hf (homittable.resolve_left
          (not_not.2 hcounterparts.name))).1
      · refine .inr fun hz' => ?_
        rw [← hnull hp hcounterparts.tags.2 hz, hz'] at hv
        cases hv
    obtain ⟨vs, hvs⟩ := hvs
    refine ⟨.record a vs, fun p hp => ?_, ?_⟩
    · rw [Bool.or_comm]
      exact (h p hp).1
    · rw [Value.wire_record]
      exact decodeAt_of_fieldsRead ha hwithin (htag ▸ hadmits) hvs

/-! ## The pairs of records -/

end LspWire.Protocol
