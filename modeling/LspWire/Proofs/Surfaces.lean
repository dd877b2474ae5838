import LspWire.Proofs.Checks
import LspWire.Proofs.Regular

/-!
# Surfaces that agree

Two surfaces agree on some records if they admit the same of them: the records themselves, their
fields, all that the fields are built over, and the members of all enumerations. On such surfaces data
is read alike: as the same value, or not at all, for the same reason or for another one. Unions need
more than that their alternatives take the same data, since an integer that is too large ends the
search for one; `Concur` keeps that apart from other failures.
-/

namespace LspWire

variable {R E : Type}

/-- Whether all records that a type is built over meet a condition. -/
def Ty.isOver (p : R → Bool) (t : Ty R E) : Bool :=
  t.every fun
    | .record r | .packed r | .recordOrFlag r _ => p r
    | _ => true

/-- Whether two readings are of the same value, or both fail, either both with an integer that is too
large or none of them. -/
def Concur {α : Type} (a b : Except Failure α) : Prop :=
  (∀ v, a = .ok v ↔ b = .ok v) ∧ (a = .error .tooLarge ↔ b = .error .tooLarge)

namespace Concur

variable {α : Type} {a b : Except Failure α}

theorem refl (a : Except Failure α) : Concur a a := ⟨fun _ => Iff.rfl, Iff.rfl⟩

theorem of_ne_tooLarge (ha : a ≠ .error .tooLarge) (hb : b ≠ .error .tooLarge)
    (h : ∀ v, a = .ok v ↔ b = .ok v) : Concur a b :=
  ⟨h, iff_of_false ha hb⟩

theorem of_faults (faults faults' : List Fault) :
    Concur (.error (.faults faults) : Except Failure α) (.error (.faults faults')) :=
  ⟨fun _ => iff_of_false nofun nofun, iff_of_false nofun nofun⟩

/-- Readings that concur are the same but for the faults that they report. -/
theorem eq_or_faults (h : Concur a b) :
    a = b ∨ ∃ faults faults', a = .error (.faults faults) ∧ b = .error (.faults faults') := by
  cases a with
  | ok v => exact .inl ((h.1 v).1 rfl).symm
  | error failure =>
    cases failure with
    | tooLarge => exact .inl (h.2.1 rfl).symm
    | faults faults =>
      cases b with
      | ok v => cases (h.1 v).2 rfl
      | error failure' =>
        cases failure' with
        | tooLarge => cases h.2.2 rfl
        | faults faults' => exact .inr ⟨faults, faults', rfl, rfl⟩

end Concur

namespace Schema

variable {S : Schema R E} {σ τ : Surface}

/-- The search through the alternatives of a union does not look at faults. -/
theorem choose_of_concur {layer layer' : Layer (Readable R E)}
    (hcovers : ∀ t, S.coversKeys layer t = S.coversKeys layer' t)
    {readings readings' : List (Ty R E × Except Failure (Value R E))}
    (h : List.Forall₂ (fun a b => a.1 = b.1 ∧ Concur a.2 b.2) readings readings')
    (fallback : Option (Value R E)) :
    S.choose layer fallback readings = S.choose layer' fallback readings' := by
  induction h generalizing fallback with
  | nil => rfl
  | @cons a b _ _ hab _ ih =>
    obtain ⟨t, left⟩ := a
    obtain ⟨u, right⟩ := b
    obtain ⟨htu, hab⟩ := hab
    dsimp only at htu hab
    subst htu
    obtain rfl | ⟨faults, faults', rfl, rfl⟩ := hab.eq_or_faults
    · cases left with
      | ok v =>
        rw [choose, choose, hcovers]
        split
        · rfl
        · exact ih _
      | error failure =>
        cases failure with
        | tooLarge => rfl
        | faults faults => exact ih _
    · exact ih _

theorem concur_readMember {e : E}
    (h : ∀ m ∈ (S.enumeration e).members,
      EnumDecl.admits σ (S.enumeration e) m = EnumDecl.admits τ (S.enumeration e) m) (raw : Scalar) :
    Concur (S.readMember σ e (.scalar raw)) (S.readMember τ e (.scalar raw)) := by
  refine .of_ne_tooLarge readMember_ne_tooLarge readMember_ne_tooLarge fun v => ?_
  unfold readMember
  dsimp only
  split
  · exact Iff.rfl
  · split
    · exact Iff.rfl
    · split
      · exact Iff.rfl
      · rename_i m hm
        rw [bind_eq_ok_iff, bind_eq_ok_iff]
        refine exists_congr fun _ => and_congr_left fun _ => ?_
        rw [available_member_eq_ok_iff, available_member_eq_ok_iff, h m (raw_of_withRaw? hm).1]

theorem concur_readOpen {e : E}
    (h : ∀ m ∈ (S.enumeration e).members,
      EnumDecl.admits σ (S.enumeration e) m = EnumDecl.admits τ (S.enumeration e) m) (x : Json) :
    Concur (S.readOpen σ e (S.layer σ x)) (S.readOpen τ e (S.layer τ x)) := by
  cases x with
  | scalar raw =>
    have hread := concur_readMember h raw
    rw [layer, layer, readOpen, readOpen]
    split
    · exact hread
    · obtain heq | ⟨faults, faults', heq, heq'⟩ := hread.eq_or_faults
      · rw [heq]
        exact .refl _
      · rw [heq, heq']
        exact .refl _
  | arr items =>
    simp only [layer, readOpen, readMember]
    exact .of_faults _ _
  | obj entries =>
    simp only [layer, readOpen, readMember]
    exact .of_faults _ _

/-- A union is read alike if its alternatives are. -/
theorem concur_union {ts : List (Ty R E)} {x : Json}
    (hmember : ∀ e, Ty.enumeration e ∈ ts → ∀ m ∈ (S.enumeration e).members,
      EnumDecl.admits σ (S.enumeration e) m = EnumDecl.admits τ (S.enumeration e) m)
    (h : ∀ t ∈ ts, Concur (S.decodeAt σ t x) (S.decodeAt τ t x)) :
    Concur (S.decodeAt σ (.union ts) x) (S.decodeAt τ (.union ts) x) := by
  by_cases hnull : x = .null ∧ Ty.null ∈ ts
  · rw [hnull.1, decodeAt_union_null hnull.2, decodeAt_union_null hnull.2]
    exact .refl _
  have hmem {t : Ty R E} (ht : t ∈ others ts) : t ∈ ts := (mem_others_iff.1 ht).1
  cases hopen : openEnumeration? (others ts) with
  | some e =>
    have hothers := eq_of_openEnumeration? hopen
    rw [decodeAt_union_open hothers hnull, decodeAt_union_open hothers hnull]
    exact concur_readOpen (hmember e (hmem (by simp [hothers]))) x
  | none =>
    by_cases hone : ∃ t, others ts = [t]
    · obtain ⟨t, ht⟩ := hone
      rw [decodeAt_union_singleton ht hnull, decodeAt_union_singleton ht hnull]
      exact h t (hmem (by simp [ht]))
    · have hmany : ∀ t, others ts ≠ [t] := fun t ht => hone ⟨t, ht⟩
      rw [decodeAt_union_of_many hopen hmany hnull, decodeAt_union_of_many hopen hmany hnull]
      have hchoose : S.choose (S.layer σ x) none
          ((others ts).map fun t => (t, S.readAs σ (S.layer σ x) t)) =
        S.choose (S.layer τ x) none
          ((others ts).map fun t => (t, S.readAs τ (S.layer τ x) t)) := by
        refine choose_of_concur (fun t => by rw [accounts_layer, accounts_layer]) ?_ none
        rw [List.forall₂_map_left_iff, List.forall₂_map_right_iff, List.forall₂_same]
        intro t ht
        rw [← decodeAt_eq_readAs, ← decodeAt_eq_readAs]
        exact ⟨rfl, h t (hmem ht)⟩
      rw [hchoose]
      exact .refl _

end Schema

namespace Protocol

/-! ## Reading on two surfaces -/

/-- Surfaces that admit the same of some records, and the same members of all enumerations. -/
structure Agree (σ τ : Surface) (p : RecordName → Bool) : Prop where
  member : ∀ e, ∀ m ∈ (schema.enumeration e).members,
    EnumDecl.admits σ (schema.enumeration e) m = EnumDecl.admits τ (schema.enumeration e) m
  record : ∀ r, p r = true → σ.admits (schema.record r).tag = τ.admits (schema.record r).tag
  field : ∀ r, p r = true → ∀ f ∈ (schema.record r).fields, f.isVisible σ = f.isVisible τ
  isOver : ∀ r, p r = true → ∀ f ∈ (schema.record r).fields, f.ty.isOver p = true

variable {σ τ : Surface} {p : RecordName → Bool}

theorem Agree.symm (h : Agree σ τ p) : Agree τ σ p where
  member e m hm := (h.member e m hm).symm
  record r hr := (h.record r hr).symm
  field r hr f hf := (h.field r hr f hf).symm
  isOver := h.isOver

theorem Agree.fieldsRead (h : Agree σ τ p) {r : RecordName} (hr : p r = true)
    {entries : List (String × Json)} {values : List Datum}
    (ih : ∀ entry ∈ entries, ∀ (t : DataType) (v : Datum), t.isOver p = true →
      schema.decodeAt σ t entry.2 = .ok v → schema.decodeAt τ t entry.2 = .ok v)
    (hfields : schema.FieldsRead σ entries (schema.record r).fields values) :
    schema.FieldsRead τ entries (schema.record r).fields values := by
  refine Entries.forall₂_imp_of_mem hfields fun f hf v _ hv => ?_
  have hshown : f.shown? τ entries = f.shown? σ entries := by
    rw [Field.shown?, Field.shown?, h.field r hr f hf]
  rw [Schema.FieldRead] at hv ⊢
  rw [hshown]
  cases hx : f.shown? σ entries with
  | none =>
    rw [hx] at hv
    exact hv
  | some x =>
    rw [hx] at hv
    exact ih _ (Entries.mem_of_lookup (Field.lookup_of_shown? hx)) f.ty v (h.isOver r hr f hf) hv

theorem Agree.decodeAt_record (h : Agree σ τ p) {r : RecordName} (hr : p r = true) {x : Json}
    {v : Datum}
    (ih : ∀ part ∈ x.parts, ∀ (t : DataType) (v : Datum), t.isOver p = true →
      schema.decodeAt σ t part = .ok v → schema.decodeAt τ t part = .ok v)
    (hv : schema.decodeAt σ (.record r) x = .ok v) : schema.decodeAt τ (.record r) x = .ok v := by
  cases hspread : (schema.record r).isSpread with
  | true =>
    rw [isSpread_record, beq_iff_eq] at hspread
    subst hspread
    have hfields := h.isOver _ hr
    have hvisible := h.field _ hr
    simp only [fields_messageActionItem, List.forall_mem_cons] at hfields hvisible
    rw [Schema.decodeAt_spread_eq_ok_iff form_messageActionItem] at hv ⊢
    obtain ⟨entries, d, title, restValue, rfl, rfl, hd, htitle, hrest, -, -⟩ := hv
    have hentry {entry : String × Json} (hentry : entry ∈ entries) :
        entry.2 ∈ (Json.obj entries).parts := List.mem_map_of_mem hentry
    have hadmits : σ.admits (some (.since 16 true)) = τ.admits (some (.since 16 true)) :=
      hvisible.2.1
    have hitem : messageActionItemProperty.isOver p = true := rfl
    have hrest' : schema.RestRead τ (some (.since 16 true)) messageActionItemProperty
        (Schema.otherEntries (.required "title" .str : Field RecordName EnumName) entries)
        restValue := by
      rw [Schema.RestRead, ← hadmits]
      rw [Schema.RestRead] at hrest
      split at hrest
      · rw [if_pos (by assumption)]
        exact hrest
      · rw [if_neg (by assumption)]
        obtain ⟨values, hvalues, rfl⟩ := hrest
        refine ⟨values, Entries.forall₂_imp_of_mem hvalues fun entry he value _ hread => ?_, rfl⟩
        exact ⟨hread.1, ih _ (hentry (List.mem_of_mem_filter he)) _ _ hitem hread.2⟩
    refine ⟨entries, d, title, restValue, rfl, rfl, hd,
      ih d (hentry (Entries.mem_of_lookup hd)) .str title rfl htitle, hrest', ?_, ?_⟩
    · exact Schema.gate_of_admits (Surface.admits_none τ)
    · exact checkFields_messageActionItem (Schema.admits_of_restRead hrest')
  | false =>
    rw [Schema.decodeAt_record_eq_ok_iff hspread (nodup_names r)] at hv ⊢
    obtain ⟨htag, entries, values, rfl, rfl, hliterals, hfields, hchecks⟩ := hv
    have hread := h.fieldsRead hr (fun entry hentry => ih _ (List.mem_map_of_mem hentry)) hfields
    refine ⟨h.record r hr ▸ htag, entries, values, rfl, rfl, hliterals, hread, ?_⟩
    refine checkFields_of_fieldsRead hread (List.forall₂_iff_zip.2 ⟨hfields.length_eq, ?_⟩)
    exact fun hp _ => Schema.checkFields_eq_ok_iff.1 (Schema.checkFields_enabled hchecks) _ hp

theorem of_ok_iff {t : DataType} {x : Json} (ht : t.isFloatless = true)
    (h : ∀ v, schema.decodeAt σ t x = .ok v ↔ schema.decodeAt τ t x = .ok v) :
    Concur (schema.decodeAt σ t x) (schema.decodeAt τ t x) :=
  .of_ne_tooLarge (decodeAt_ne_tooLarge ht x) (decodeAt_ne_tooLarge ht x) h

/-- On surfaces that agree on some records, data is read alike as every type over them. -/
theorem Agree.concur (h : Agree σ τ p) {t : DataType} (ht : t.isOver p = true) (x : Json) :
    Concur (schema.decodeAt σ t x) (schema.decodeAt τ t x) := by
  induction x using Json.partsInduction generalizing t with
  | step x ih =>
    have hrecord (r : RecordName) (hr : p r = true) (v : Datum) :
        schema.decodeAt σ (.record r) x = .ok v ↔ schema.decodeAt τ (.record r) x = .ok v :=
      ⟨h.decodeAt_record hr fun part hpart t v ht => ((ih part hpart ht).1 v).1,
        h.symm.decodeAt_record hr fun part hpart t v ht => ((ih part hpart ht).1 v).2⟩
    induction t using Ty.induction with
    | any =>
      rw [Schema.decodeAt_any, Schema.decodeAt_any]
      exact .refl _
    | null => exact of_ok_iff rfl fun v => by simp only [Schema.decodeAt_null_eq_ok_iff]
    | str => exact of_ok_iff rfl fun v => by simp only [Schema.decodeAt_str_eq_ok_iff]
    | int => exact of_ok_iff rfl fun v => by simp only [Schema.decodeAt_int_eq_ok_iff]
    | bool => exact of_ok_iff rfl fun v => by simp only [Schema.decodeAt_bool_eq_ok_iff]
    | float =>
      cases x with
      | scalar s => exact .refl _
      | arr items => exact .of_faults _ _
      | obj entries => exact .of_faults _ _
    | listOfAny =>
      refine of_ok_iff rfl fun v => ?_
      simp only [Schema.decodeAt_listOfAny, Schema.decodeAt_list_eq_ok_iff, Schema.decodeAt_any]
    | unknown => exact of_ok_iff rfl fun v => by simp only [Schema.decodeAt_unknown_eq_ok_iff]
    | literal text => exact of_ok_iff rfl fun v => by simp only [Schema.decodeAt_literal_eq_ok_iff]
    | enumeration e =>
      refine of_ok_iff rfl fun v => ?_
      cases hflags : (schema.enumeration e).isFlags with
      | true => simp only [Schema.decodeAt_flags_eq_ok_iff hflags]
      | false =>
        simp only [Schema.decodeAt_enumeration_eq_ok_iff hflags,
          Schema.admittedMember?_eq_some_iff]
        refine exists₂_congr fun raw m => and_congr_right fun _ => and_congr_right fun _ =>
          and_congr_left fun _ => and_congr_right fun hm => ?_
        rw [h.member e m (Schema.raw_of_withRaw? hm).1]
    | record r => exact of_ok_iff rfl (hrecord r ht)
    | list item =>
      refine .of_ne_tooLarge Schema.decodeAt_list_ne_tooLarge Schema.decodeAt_list_ne_tooLarge fun v => ?_
      simp only [Schema.decodeAt_list_eq_ok_iff]
      refine exists₂_congr fun items values => and_congr_right fun hx => and_congr_right fun _ => ?_
      subst hx
      exact Entries.forall₂_congr_of_mem fun d hd =>
        (ih d hd (Ty.every_of_every_list ht)).1
    | map item =>
      refine .of_ne_tooLarge Schema.decodeAt_map_ne_tooLarge Schema.decodeAt_map_ne_tooLarge fun v => ?_
      simp only [Schema.decodeAt_map_eq_ok_iff]
      refine exists₂_congr fun entries values => and_congr_right fun hx => and_congr_right fun _ => ?_
      subst hx
      exact Entries.forall₂_congr_of_mem fun entry hentry value => and_congr_right fun _ =>
        (ih entry.2 (List.mem_map_of_mem hentry) (Ty.every_of_every_map ht)).1 value.2
    | union ts iht =>
      refine Schema.concur_union (fun e _ => h.member e) fun t hmem => ?_
      exact iht t hmem (Ty.every_of_every_union ht t hmem)
    | packed r => exact of_ok_iff rfl fun v => by simp only [Schema.decodeAt_packed_eq_ok_iff]
    | recordOrFlag r label =>
      refine of_ok_iff rfl fun v => ?_
      simp only [Schema.decodeAt_recordOrFlag_eq_ok_iff, hrecord r ht v]

end Protocol

end LspWire
