import LspWire.Proofs.Orderly
import LspWire.Proofs.RoundTrip.Records

/-!
# Built values round trip

Every well-typed value of a surface is written as data that is read again, on this surface and on
every wider one, and what is read is written as the same data. The induction is on the typing of the
value. What carries it is that a value comes back alike in a field of its type, where the two wire
forms of their own are types like others.
-/

namespace LspWire

variable {R E : Type}

namespace Surface

/-- Whether a surface holds everything that another one holds: its version is not older, and the
proposed parts are enabled if they are for the other one. -/
structure IsWithin (σ τ : Surface) : Prop where
  version : σ.version.le τ.version = true
  proposed : σ.proposed = true → τ.proposed = true

theorem IsWithin.refl (σ : Surface) : σ.IsWithin σ := ⟨Version.le_refl _, id⟩

theorem IsWithin.admits {σ τ : Surface} (h : σ.IsWithin τ) {tag? : Option Tag}
    (hadmits : σ.admits tag? = true) : τ.admits tag? = true := by
  rw [Surface.admits, Bool.and_eq_true, Bool.or_eq_true] at hadmits ⊢
  refine ⟨hadmits.1.imp_left h.proposed, ?_⟩
  cases tag? with
  | none => rfl
  | some tag => exact Version.le_trans hadmits.2 h.version

end Surface

namespace Protocol

variable {σ : Surface} {t : DataType} {v : Datum}

/-! ## Wire forms of their own -/

theorem decodeAt_wire_packed {r : RecordName} (hr : r = .semanticHighlightingToken)
    (hv : schema.HasType (.packed r) v) :
    schema.decodeAt σ (.packed r) (wireAs (.packed r) v) = .ok v := by
  subst hr
  refine Schema.decodeAt_packed_eq_ok_iff.2 ?_
  obtain rfl | ⟨tokens, hfits, rfl⟩ := tokens_of_hasType hv
  · exact .inl ⟨rfl, rfl⟩
  · refine .inr ⟨Token.pack tokens, tokens, ?_, Token.unpack_pack hfits, rfl⟩
    rw [wireAs, Cell.packedData, packed?_tokens]
    rfl

theorem decodeAt_wire_listOfAny (items : List Json) :
    schema.decodeAt σ .listOfAny (wireAs .listOfAny (.list (items.map .ofJson))) =
      .ok (.list (items.map .ofJson)) := by
  have hwire := Value.wire_ofJson (S := schema) (.arr items)
  rw [Value.ofJson, Value.ofItems_eq_map] at hwire
  rw [wireAs_of_isRegular rfl, hwire, Schema.decodeAt_listOfAny, Schema.decodeAt_list_eq_ok_iff]
  refine ⟨items, _, rfl, rfl, ?_⟩
  rw [List.forall₂_map_right_iff, List.forall₂_same]
  exact fun x _ => Schema.decodeAt_any x

/-- A record that older clients replace by a flag comes back as a record. -/
theorem comesAlike_recordOrFlag {r : RecordName} {label : String}
    (hv : schema.HasType (.record r) v) (h : ComesAlike σ (.record r) v) :
    ComesAlike σ (.recordOrFlag r label) v := by
  obtain ⟨values, rfl, -⟩ := hv.exists_values
  obtain ⟨y, hread, hsame, hnull⟩ := h
  refine ⟨y, Schema.decodeAt_recordOrFlag_eq_ok_iff.2 (.inr (.inr ?_)), hsame, hnull⟩
  exact ⟨_, Value.wire_record r values, hread⟩

/-- A record comes back alike if its fields do. -/
theorem comesAlike_of_fields {r : RecordName} {values : List Datum}
    (hv : schema.HasType (.record r) (.record r values))
    (ha : (Value.record r values : Datum).Available schema σ)
    (h : ∀ p ∈ (schema.record r).fields.zip values, ComesAlike σ p.1.ty p.2) :
    ComesAlike σ (.record r) (.record r values) := by
  by_cases hplain : isPlain r = true
  · rw [isPlain] at hplain
    split at hplain
    · rename_i fields hform
      exact comesAlike_plain hform hv ha h
    · cases hplain
  · rw [isPlain_record, Bool.not_eq_true', Bool.not_eq_false, Bool.or_eq_true, beq_iff_eq,
      beq_iff_eq] at hplain
    rcases hplain with rfl | rfl
    · exact comesAlike_messageActionItem hv ha h
    · exact comesAlike_responseMessage hv ha h

/-! ## All values -/

/-- Well-typed values of a surface come back alike. -/
theorem comesAlike_of_hasType (hv : schema.HasType t v) (ht : isCarried t = true)
    (hsettled : isSettled isWithin t = true) (ha : v.Available schema σ) : ComesAlike σ t v := by
  induction hv with
  | any x =>
    refine comesAlike_self ?_
    rw [wireAs_of_isRegular rfl, Value.wire_ofJson, Schema.decodeAt_any]
  | null => exact comesAlike_self (Schema.decodeAt_null_eq_ok_iff.2 ⟨rfl, rfl⟩)
  | str s => exact comesAlike_self (Schema.decodeAt_str_eq_ok_iff.2 ⟨s, rfl, rfl⟩)
  | int n => exact comesAlike_self (Schema.decodeAt_int_eq_ok_iff.2 ⟨n, rfl, rfl⟩)
  | bool b => exact comesAlike_self (Schema.decodeAt_bool_eq_ok_iff.2 ⟨b, rfl, rfl⟩)
  | float y => cases ht
  | listOfAny items => exact comesAlike_self (decodeAt_wire_listOfAny items)
  | unknown hkind => exact comesAlike_self (Schema.decodeAt_unknown_eq_ok_iff.2 ⟨_, rfl, hkind, rfl⟩)
  | literal text => exact comesAlike_self (Schema.decodeAt_literal_eq_ok_iff.2 ⟨rfl, rfl⟩)
  | member hflags hm =>
    cases ha with
    | member hadmits => exact comesAlike_self (decodeAt_member hflags hm hadmits)
  | flags hflags n =>
    exact comesAlike_self ((Schema.decodeAt_flags_eq_ok_iff hflags).2 ⟨n, rfl, rfl⟩)
  | @record r values hlength hfields hchecks ih =>
    refine comesAlike_of_fields (.record hlength hfields hchecks) ha fun p hp => ?_
    obtain ⟨hf, hv⟩ := List.of_mem_zip hp
    cases ha with
    | record hadmits hset hparts =>
      exact ih p hp (isCarried_of_mem hf) (of_all_fields (all_isSettled_isWithin r) hf)
        (hparts p.2 hv)
  | @list item items h ih =>
    have hitem : schema.isRegular item = true := Ty.every_of_every_list ht
    cases ha with
    | list hparts =>
      exact comesAlike_list hitem h fun v hv => ih v hv (isCarried_of_isRegular hitem)
        (Ty.every_of_every_list hsettled) (hparts v hv)
  | @map item entries h ih =>
    have hitem : schema.isRegular item = true := Ty.every_of_every_map ht
    cases ha with
    | map hparts =>
      exact comesAlike_map hitem h fun entry hentry =>
        ih entry hentry (isCarried_of_isRegular hitem) (Ty.every_of_every_map hsettled)
          (hparts entry hentry)
  | union hmem hv hraw ih =>
    have hregular := (Schema.isRegular_of_mem ht hmem).1
    exact comesAlike_union ht hsettled hmem hv hraw
      (ih (isCarried_of_isRegular hregular) (Ty.every_of_every_union hsettled _ hmem) ha)
  | noTokens r => exact comesAlike_self (decodeAt_wire_packed (of_decide_eq_true ht) (.noTokens r))
  | tokens h => exact comesAlike_self (decodeAt_wire_packed (of_decide_eq_true ht) (.tokens h))
  | noRecord r label =>
    exact comesAlike_self (Schema.decodeAt_recordOrFlag_eq_ok_iff.2 (.inl ⟨.inl rfl, rfl⟩))
  | recordOfFlag label h ih => exact comesAlike_recordOrFlag h (ih rfl rfl ha)

end Protocol

end LspWire
