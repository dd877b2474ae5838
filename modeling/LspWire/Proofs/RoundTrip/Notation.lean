import LspWire.Proofs.Notation.Accepted
import LspWire.Proofs.RoundTrip.Normalized

/-!
# Notation of written data

What data with a notation is decoded as is written as data with a notation: scalars are written as
they were, a map keeps its keys, and a record writes every name once. The induction is on the data.
-/

namespace LspWire

/-! ## Objects -/

namespace Json

variable {entries others : List (String × Json)}

theorem hasNotation_obj_nil : (obj []).HasNotation := .obj List.nodup_nil (List.forall_mem_nil _)

theorem hasNotation_str (s : String) : (str s).HasNotation := .scalar trivial

theorem hasNotation_null : Json.null.HasNotation := .scalar trivial

theorem HasNotation.of_mem_parts {x part : Json} (h : x.HasNotation) (hpart : part ∈ x.parts) :
    part.HasNotation := by
  cases h with
  | scalar => cases hpart
  | arr h => exact h part hpart
  | obj hkeys h =>
    obtain ⟨entry, hentry, rfl⟩ := List.mem_map.1 hpart
    exact h entry hentry

theorem HasNotation.of_lookup (h : (Json.obj entries).HasNotation) {key : String} {x : Json}
    (hx : entries.lookup key = some x) : x.HasNotation := by
  cases h with
  | obj hkeys h => exact h _ (Entries.mem_of_lookup hx)

theorem HasNotation.sublist (h : (Json.obj entries).HasNotation) (hsub : others.Sublist entries) :
    (Json.obj others).HasNotation := by
  cases h with
  | obj hkeys h =>
    exact .obj (hkeys.sublist (hsub.map Prod.fst)) fun entry hentry => h entry (hsub.subset hentry)

end Json

namespace Protocol

variable {σ : Surface} {r : RecordName} {f : Field RecordName EnumName} {d : Json} {v : Datum}
  {entries : List (String × Json)}

/-- Whatever data with a notation is decoded as, the value is written as data with one. -/
def KeepsNotation (σ : Surface) (d : Json) : Prop :=
  ∀ (t : DataType) (v : Datum), schema.isRegular t = true → schema.decodeAt σ t d = .ok v →
    d.HasNotation → (v.wire schema).HasNotation

/-! ## Fields -/

theorem hasNotation_default (hf : f ∈ (schema.record r).fields)
    (h : schema.defaultValue? f.default = some v) : (wireAs f.ty v).HasNotation := by
  cases holdsDefault hf h with
  | null hdefault =>
    rw [wireAs_null]
    exact Json.hasNotation_null
  | text hdefault hty =>
    have hregular : schema.isRegular f.ty = true := by
      rcases hty with hty | hty <;> rw [hty] <;> rfl
    rw [wireAs_of_isRegular hregular, Value.str, Value.wire_scalar]
    exact Json.hasNotation_str _
  | blank hdefault hty hblank =>
    rw [hty, wireAs_of_isRegular rfl, wire_blank hblank]
    exact Json.hasNotation_obj_nil

theorem hasNotation_packed {r' : RecordName} (h : schema.decodeAt σ (.packed r') d = .ok v) :
    (wireAs (.packed r') v).HasNotation := by
  obtain ⟨-, rfl⟩ | ⟨text, tokens, -, -, rfl⟩ := Schema.decodeAt_packed_eq_ok_iff.1 h
  · exact Json.hasNotation_null
  · exact Json.hasNotation_str _

theorem hasNotation_recordOrFlag {r' : RecordName} {label : String}
    (hr : r' = .completionItemTagSupport) (ih : KeepsNotation σ d)
    (h : schema.decodeAt σ (.recordOrFlag r' label) d = .ok v) (hd : d.HasNotation) :
    (wireAs (.recordOrFlag r' label) v).HasNotation := by
  obtain ⟨-, rfl⟩ | ⟨-, rfl⟩ | ⟨entries, rfl, hrecord⟩ :=
    Schema.decodeAt_recordOrFlag_eq_ok_iff.1 h
  · exact Json.hasNotation_null
  · subst hr
    have hflag : (Json.obj [("valueSet", .arr [])]).HasNotation :=
      .obj (List.nodup_singleton _) (List.forall_mem_singleton.2 (.arr (List.forall_mem_nil _)))
    exact hflag
  · exact ih _ _ rfl hrecord hd

/-- What stands under the name of a field is read as the field and written with a notation. -/
theorem hasNotation_field (hf : f ∈ (schema.record r).fields)
    (ih : ∀ d, entries.lookup f.name = some d → KeepsNotation σ d)
    (hentries : (Json.obj entries).HasNotation) (h : schema.FieldRead σ entries f v) :
    (wireAs f.ty v).HasNotation := by
  rw [Schema.FieldRead] at h
  cases hx : f.shown? σ entries with
  | none =>
    rw [hx] at h
    exact hasNotation_default hf h
  | some d =>
    rw [hx] at h
    change schema.decodeAt σ f.ty d = .ok v at h
    have hlookup := Field.lookup_of_shown? hx
    have hd := hentries.of_lookup hlookup
    have hty := of_all_fields (all_hasFieldType r) hf
    rw [hasFieldType] at hty
    split at hty
    · rename_i r' hpacked
      rw [hpacked] at h ⊢
      exact hasNotation_packed h
    · rename_i r' label hflag
      rw [hflag] at h ⊢
      exact hasNotation_recordOrFlag (of_decide_eq_true hty) (ih d hlookup) h hd
    · rw [isFieldType, Bool.and_eq_true] at hty
      rw [wireAs_of_isRegular hty.1]
      exact ih d hlookup f.ty v hty.1 h hd

/-! ## Records -/

theorem hasNotation_cells {values : List Datum} (hspread : (schema.record r).isSpread = false)
    (hlength : values.length = (schema.record r).fields.length)
    (h : ∀ p ∈ (schema.record r).fields.zip values, (wireAs p.1.ty p.2).HasNotation) :
    ((Value.record r values : Datum).wire schema).HasNotation := by
  rw [Value.wire_record, Schema.wireRecord_of_not_spread hspread]
  refine .obj ?_ fun entry hentry => ?_
  · rw [List.map_map]
    exact Form.nodup_written (Schema.nodup_names_cells (nodup_names r) hlength)
  · obtain ⟨c, hc, rfl⟩ := List.mem_map.1 hentry
    obtain ⟨p, hp, rfl⟩ := List.mem_map.1 (Form.mem_of_mem_written hc)
    rw [Cell.entry, json_cell]
    exact h p hp

/-- An action writes its title beside some of the other properties. -/
theorem hasNotation_messageActionItem {values : List Datum}
    (h : schema.decodeAt σ (.record .messageActionItem) (.obj entries) =
      .ok (.record .messageActionItem values)) (hentries : (Json.obj entries).HasNotation) :
    ((Value.record .messageActionItem values : Datum).wire schema).HasNotation := by
  rw [Schema.decodeAt_spread_eq_ok_iff form_messageActionItem] at h
  obtain ⟨entries', d, title, rest, heq, heq', -, htitle, hrest, -⟩ := h
  cases heq
  cases heq'
  obtain ⟨text, rfl, rfl⟩ := Schema.decodeAt_str_eq_ok_iff.1 htitle
  rw [Value.wire_record, wireRecord_messageActionItem]
  refine Json.HasNotation.put (hentries.sublist ?_) (Json.hasNotation_str text) "title"
  rw [Schema.RestRead] at hrest
  split at hrest
  · rw [hrest]
    exact List.nil_sublist _
  · obtain ⟨others, hothers, rfl⟩ := hrest
    rw [spreadData_map, map_wire_of_entriesRead (fun d v => wire_of_decodeAt_property) hothers]
    exact List.filter_sublist

theorem hasNotation_record {values : List Datum}
    (h : schema.decodeAt σ (.record r) (.obj entries) = .ok (.record r values))
    (hentries : (Json.obj entries).HasNotation)
    (ih : ∀ part ∈ (Json.obj entries).parts, KeepsNotation σ part) :
    ((Value.record r values : Datum).wire schema).HasNotation := by
  by_cases hspread : r = .messageActionItem
  · subst hspread
    exact hasNotation_messageActionItem h hentries
  · have hform : (schema.record r).isSpread = false := by
      rw [isSpread_record, beq_eq_false_iff_ne]
      exact hspread
    rw [Schema.decodeAt_record_eq_ok_iff hform (nodup_names r)] at h
    obtain ⟨-, entries', values', heq, heq', -, hread, -⟩ := h
    cases heq
    cases heq'
    refine hasNotation_cells hform hread.length_eq.symm fun p hp => ?_
    refine hasNotation_field (List.of_mem_zip hp).1 (fun d hd => ih d ?_) hentries
      (List.forall₂_zip hread hp)
    exact List.mem_map.2 ⟨_, Entries.mem_of_lookup hd, rfl⟩

/-! ## All data -/

theorem keepsNotation (σ : Surface) (d : Json) : KeepsNotation σ d := by
  induction d using Json.partsInduction with
  | step d ih =>
    intro t v ht h hd
    cases reads_of_decodeAt ht h with
    | scalar hwire => rwa [hwire]
    | list item hitem hvalues =>
      rw [Value.wire_list]
      refine .arr fun y hy => ?_
      obtain ⟨v, hv, rfl⟩ := List.mem_map.1 hy
      obtain ⟨x, hx, hread⟩ := Entries.exists_left_of_forall₂ hvalues hv
      exact ih x hx item v hitem hread (hd.of_mem_parts hx)
    | map item hitem hvalues =>
      rw [Value.wire_map]
      refine .obj ?_ fun entry hentry => ?_
      · rw [List.map_map]
        cases hd with
        | obj hkeys => rwa [← hvalues.map_fst] at hkeys
      · obtain ⟨value, hvalue, rfl⟩ := List.mem_map.1 hentry
        obtain ⟨entry, hentry, -, hread⟩ := Entries.exists_left_of_forall₂ hvalues hvalue
        have hpart := List.mem_map_of_mem (f := Prod.snd) hentry
        exact ih entry.2 hpart item value.2 hitem hread (hd.of_mem_parts hpart)
    | record hrecord => exact hasNotation_record hrecord hd ih

end Protocol

end LspWire
