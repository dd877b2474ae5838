import LspWire.Proofs.Checks
import LspWire.Proofs.Regular

/-!
# How decoding fails

Data that is not read has a fault at least, and every fault is about the data. A constructor may
refuse a proposed part as well, but none does so while data is read: records outside the surface are
refused before their fields are looked at, fields outside it count as absent, and enumeration members
outside it are no members. So a refusal of `decode` is always one of the version asked for.
-/

namespace LspWire

variable {R E : Type}

/-- The causes of a failure, in order. -/
def Failure.causes : Failure → List Cause
  | .tooLarge => [.tooLarge]
  | .faults list => list.map (·.cause)

/-- A failure that is about the data: there is a cause, and a constructor's refusal of a proposed
part is none. -/
structure Failure.IsOfData (failure : Failure) : Prop where
  nonempty : failure.causes ≠ []
  ungated : ∀ what, Cause.proposed what ∉ failure.causes

/-- Results that are values or failures about the data. -/
def FailsByData {α : Type} (result : Except Failure α) : Prop :=
  ∀ failure, result = .error failure → failure.IsOfData

namespace Failure.IsOfData

theorem tooLarge : Failure.tooLarge.IsOfData := by
  constructor
  · nofun
  · intro what hmem
    cases List.mem_singleton.1 hmem

theorem here {cause : Cause} (h : ∀ what, cause ≠ .proposed what) :
    (Failure.here cause).IsOfData := by
  constructor
  · nofun
  · intro what hmem
    exact h what (List.mem_singleton.1 hmem).symm

theorem under (step : PathStep) {failure : Failure} (h : failure.IsOfData) :
    (Failure.faults (failure.under step)).IsOfData := by
  have hcauses : (Failure.faults (failure.under step)).causes = failure.causes := by
    cases failure with
    | tooLarge => rfl
    | faults list => simp [causes, Failure.under, Fault.under, Function.comp_def]
  constructor
  · rw [hcauses]
    exact h.nonempty
  · rw [hcauses]
    exact h.ungated

theorem missing {α : Type} {place : α → List PathStep} {absent : List α} (h : absent ≠ []) :
    (Failure.faults (absent.map fun x => ⟨place x, .missing⟩)).IsOfData := by
  constructor
  · simpa [causes] using h
  · intro what hmem
    simp [causes] at hmem

theorem append {first more : List Fault} (hfirst : (Failure.faults first).IsOfData)
    (hmore : (Failure.faults more).IsOfData) : (Failure.faults (first ++ more)).IsOfData := by
  have hcauses : (Failure.faults (first ++ more)).causes =
      (Failure.faults first).causes ++ (Failure.faults more).causes := List.map_append
  constructor
  · rw [hcauses]
    exact List.append_ne_nil_of_left_ne_nil hfirst.nonempty _
  · intro what hmem
    rw [hcauses, List.mem_append] at hmem
    rcases hmem with hmem | hmem
    · exact hfirst.ungated what hmem
    · exact hmore.ungated what hmem

theorem collect {α : Type} {results : List (Except (List Fault) α)}
    (h : ∀ faults, .error faults ∈ results → (Failure.faults faults).IsOfData)
    {faults : List Fault} (hfaults : LspWire.collect results = .error faults) :
    (Failure.faults faults).IsOfData := by
  induction results generalizing faults with
  | nil => cases hfaults
  | cons result results ih =>
    have ih {faults : List Fault} (hfaults : LspWire.collect results = .error faults) :=
      ih (fun l hl => h l (List.mem_cons_of_mem _ hl)) hfaults
    cases result with
    | ok v =>
      rw [LspWire.collect] at hfaults
      cases hrest : LspWire.collect results with
      | ok vs =>
        rw [hrest] at hfaults
        cases hfaults
      | error more =>
        rw [hrest] at hfaults
        cases hfaults
        exact ih hrest
    | error own =>
      rw [LspWire.collect] at hfaults
      cases hrest : LspWire.collect results with
      | ok vs =>
        rw [hrest] at hfaults
        cases hfaults
        exact h _ List.mem_cons_self
      | error more =>
        rw [hrest] at hfaults
        cases hfaults
        exact (h _ List.mem_cons_self).append (ih hrest)

end Failure.IsOfData

/-! ## Results -/

namespace FailsByData

variable {α β : Type}

theorem ok (v : α) : FailsByData (.ok v : Except Failure α) := nofun

theorem here {cause : Cause} (h : ∀ what, cause ≠ .proposed what) :
    FailsByData (.error (.here cause) : Except Failure α) := by
  intro failure hfailure
  cases hfailure
  exact .here h

theorem bind {x : Except Failure α} {f : α → Except Failure β} (hx : FailsByData x)
    (hf : ∀ v, x = .ok v → FailsByData (f v)) : FailsByData (x >>= f) := by
  cases x with
  | ok v => exact hf v rfl
  | error failure =>
    intro failure' h
    cases h
    exact hx failure rfl

theorem map {x : Except Failure α} (f : α → β) (hx : FailsByData x) : FailsByData (x.map f) := by
  cases x with
  | ok v => exact .ok (f v)
  | error failure =>
    intro failure' h
    cases h
    exact hx failure rfl

theorem of_mapError {x : Except Failure α} (hx : FailsByData x) {step : PathStep}
    {faults : List Fault} (h : x.mapError (Failure.under step) = .error faults) :
    (Failure.faults faults).IsOfData := by
  cases x with
  | ok v => cases h
  | error failure =>
    cases h
    exact (hx failure rfl).under step

end FailsByData

namespace Schema

variable {S : Schema R E} {σ : Surface}

theorem failsByData_available {name : String} {isProposed isCovered : Bool}
    {introducedIn : Option String} :
    FailsByData (available σ name isProposed isCovered introducedIn) := by
  unfold available
  split
  · exact .here (by simp)
  · split
    · exact .ok ()
    · exact .here (by simp)

theorem failsByData_readMember (e : E) (layer : Layer (Readable R E)) :
    FailsByData (S.readMember σ e layer) := by
  unfold readMember
  dsimp only
  split
  · split
    · exact .here (by simp)
    · split
      · exact .ok _
      · split
        · exact .here (by simp)
        · exact failsByData_available.bind fun _ _ => .ok _
  · exact .here (by simp)

theorem failsByData_readEnumeration (e : E) (layer : Layer (Readable R E)) :
    FailsByData (S.readEnumeration σ e layer) := by
  unfold readEnumeration
  split
  · split
    · exact .ok _
    · exact .here (by simp)
  · exact failsByData_readMember e layer

theorem failsByData_readOpen (e : E) (layer : Layer (Readable R E)) :
    FailsByData (S.readOpen σ e layer) := by
  unfold readOpen
  split
  · split
    · exact failsByData_readMember e _
    · split <;> exact .ok _
  · exact failsByData_readMember e _

/-- The search through the alternatives of a union passes over every failure but one. -/
theorem failsByData_choose (layer : Layer (Readable R E)) (fallback : Option (Value R E))
    (readings : List (Ty R E × Except Failure (Value R E))) :
    FailsByData (S.choose layer fallback readings) := by
  induction readings generalizing fallback with
  | nil => exact .ok fallback
  | cons reading readings ih =>
    obtain ⟨t, result⟩ := reading
    cases result with
    | error failure =>
      cases failure with
      | tooLarge =>
        intro failure h
        cases h
        exact .tooLarge
      | faults faults => exact ih fallback
    | ok v =>
      rw [choose]
      split
      · exact .ok _
      · exact ih _

theorem failsByData_readUnion {layer : Layer (Readable R E)}
    {readings : List (Ty R E × Except Failure (Value R E))}
    (h : ∀ reading ∈ readings, FailsByData reading.2) :
    FailsByData (S.readUnion σ layer readings) := by
  unfold readUnion
  dsimp only
  split
  · exact .ok _
  · split
    · rename_i heq
      exact h _ (List.mem_of_mem_filter (heq ▸ List.mem_cons_self))
    · exact failsByData_readOpen _ layer
    · refine (failsByData_choose layer none _).bind fun v? _ => ?_
      cases v? with
      | some v => exact .ok v
      | none => exact .here (by simp)

theorem failsByData_readList {item : Ty R E} {x : Json}
    (h : ∀ part ∈ x.parts, FailsByData (S.decodeAt σ item part)) :
    FailsByData (readList item (S.layer σ x)) := by
  cases x with
  | scalar s => exact .here (by simp)
  | obj entries => exact .here (by simp)
  | arr items =>
    rw [layer, readList]
    split
    · exact .ok _
    · rename_i faults hfaults
      intro failure hfailure
      cases hfailure
      refine .collect (fun faults hmem => ?_) hfaults
      obtain ⟨i, hi, heq⟩ := List.mem_mapIdx.1 hmem
      rw [List.getElem_map] at heq
      exact (h _ (List.getElem_mem _)).of_mapError heq

theorem failsByData_readEntries {item : Ty R E} {entries : List (String × Json)}
    (h : ∀ entry ∈ entries, FailsByData (S.decodeAt σ item entry.2)) :
    FailsByData (readEntries item (entries.map fun entry => (entry.1, S.readable σ entry.2))) := by
  intro failure hfailure
  rw [readEntries, List.map_map] at hfailure
  generalize hcollected : collect (entries.map _) = collected at hfailure
  cases collected with
  | ok values => cases hfailure
  | error faults =>
    cases hfailure
    refine .collect (fun faults hmem => ?_) hcollected
    obtain ⟨entry, hentry, heq⟩ := List.mem_map.1 hmem
    have hread := h entry hentry
    change ((S.decodeAt σ item entry.2).mapError (Failure.under (.key entry.1))).map _ = _ at heq
    cases hx : (S.decodeAt σ item entry.2).mapError (Failure.under (.key entry.1)) with
    | ok v =>
      rw [hx] at heq
      cases heq
    | error faults =>
      rw [hx] at heq
      cases heq
      exact hread.of_mapError hx

theorem failsByData_built {r : R} {values : List (Value R E)}
    (hgate : S.gate σ.proposed r = .ok ())
    (hchecks : ∀ what, S.checkFields σ.proposed r values ≠ .error (.disabled what)) :
    FailsByData (S.built σ r values) := by
  rw [built, hgate]
  cases h : S.checkFields σ.proposed r values with
  | ok _ => exact .ok _
  | error refusal =>
    cases refusal with
    | disabled what => exact absurd h (hchecks what)
    | _ => exact .here (by simp)

theorem failsByData_readFields {r : R} {fields : List (Field R E)}
    (hn : (fields.map (·.name)).Nodup) {entries : List (String × Json)}
    (hparts : ∀ f ∈ fields, ∀ x, entries.lookup f.name = some x →
      FailsByData (S.decodeAt σ f.ty x))
    (hbuilt : ∀ values, S.FieldsRead σ entries fields values → FailsByData (S.built σ r values)) :
    FailsByData
      (S.readFields σ r fields (entries.map fun entry => (entry.1, S.readable σ entry.2))) := by
  rw [readFields_eq]
  split
  · split
    · rename_i values hvalues
      exact hbuilt values ((collect_readField_eq_ok_iff hn).1 hvalues)
    · rename_i faults hfaults
      intro failure hfailure
      cases hfailure
      refine .collect (fun faults hmem => ?_) hfaults
      obtain ⟨f, hf, heq⟩ := List.mem_map.1 hmem
      rw [readField_shownEntries hn hf] at heq
      unfold readShown at heq
      split at heq
      · rename_i x hx
        exact (hparts f hf x (Field.lookup_of_shown? hx)).of_mapError heq
      · split at heq
        · cases heq
        · cases heq
          have hmissing : (Failure.here .missing).IsOfData := .here (by simp)
          exact hmissing.under (.field f.name)
  · rename_i habsent
    intro failure hfailure
    cases hfailure
    exact .missing habsent

end Schema

namespace Protocol

variable {σ : Surface}

/-! ## Gates of constructors -/

/-- A field whose value belongs to the surface is not refused as a proposed part. -/
theorem checkField_ne_disabled {r : RecordName} {record : String}
    {f : Field RecordName EnumName} {v : Datum} (hf : f ∈ (schema.record r).fields)
    (hvisible : v.isNull = false → f.isVisible σ = true) (hv : v.Available schema σ)
    (what : String) : schema.checkField σ.proposed record f v ≠ .error (.disabled what) := by
  intro h
  unfold Schema.checkField at h
  split at h
  · rename_i hgate
    simp only [Bool.and_eq_true, Bool.not_eq_true'] at hgate
    have henabled := Schema.enabled_of_admits (hvisible hgate.1.2) hgate.1.1
    rw [henabled] at hgate
    cases hgate.2
  · obtain ⟨c, hc, hrun⟩ := exists_of_forM_eq_error h
    have hknown := List.all_eq_true.1 (of_all_fields (all_hasKnownChecks r) hf) c hc
    cases c with
    | stable =>
      rw [Schema.run_stable hv] at hrun
      cases hrun
    | unsigned bits =>
      simp only [Check.run] at hrun
      split at hrun
      · cases hrun
      · split at hrun
        · cases hrun
        · split at hrun <;> cases hrun
    | proposed => cases hknown
    | atMost bound => cases hknown

theorem checkFields_ne_disabled {r : RecordName} {entries : List (String × Json)}
    {values : List Datum} (h : schema.FieldsRead σ entries (schema.record r).fields values)
    (what : String) : schema.checkFields σ.proposed r values ≠ .error (.disabled what) := by
  intro hchecks
  obtain ⟨p, hp, hcheck⟩ := exists_of_forM_eq_error hchecks
  have hf := (List.of_mem_zip hp).1
  obtain ⟨hvisible, havailable⟩ := available_of_fieldRead hf
    (fun x _ t v ht hv => available_of_decodeAt ht hv) (List.forall₂_zip h hp)
  exact checkField_ne_disabled hf hvisible havailable what hcheck

theorem failsByData_record {r : RecordName} {x : Json}
    (ih : ∀ part ∈ x.parts, ∀ t : DataType, FailsByData (schema.decodeAt σ t part)) :
    FailsByData (schema.decodeAt σ (.record r) x) := by
  cases hspread : (schema.record r).isSpread with
  | false =>
    rw [Schema.decodeAt_record hspread]
    refine Schema.failsByData_available.bind fun _ havailable => ?_
    have hadmits := (Schema.available_tag_eq_ok_iff ..).1 havailable
    cases x with
    | scalar s => exact .here (by simp)
    | arr items => exact .here (by simp)
    | obj entries =>
      refine Schema.failsByData_readFields (nodup_names r) (fun f _ x hx => ih x ?_ f.ty)
        fun values hvalues => ?_
      · exact List.mem_map.2 ⟨_, Entries.mem_of_lookup hx, rfl⟩
      · exact Schema.failsByData_built (Schema.gate_of_admits hadmits)
          (checkFields_ne_disabled hvalues)
  | true =>
    rw [isSpread_record, beq_iff_eq] at hspread
    subst hspread
    rw [Schema.decodeAt_eq_readAs, Schema.readAs]
    unfold Schema.readRecord
    simp only [form_messageActionItem]
    cases x with
    | scalar s => exact .here (by simp)
    | arr items => exact .here (by simp)
    | obj entries =>
      have hpart {entry : String × Json} (hentry : entry ∈ entries) :
          entry.2 ∈ (Json.obj entries).parts := List.mem_map_of_mem hentry
      have hbuilt {title rest : Datum}
          (h : rest.isNull = false → σ.admits (some (.since 16 true)) = true) :
          FailsByData (schema.built σ .messageActionItem [title, rest]) :=
        Schema.failsByData_built rfl fun what hrefused => by
          rw [checkFields_messageActionItem h] at hrefused
          cases hrefused
      simp only [Schema.layer, Schema.readSpread, Entries.lookup_map_value]
      cases hlookup : entries.lookup (Field.required "title" .str : Field RecordName EnumName).name with
      | none => exact .here (by simp)
      | some d =>
        simp only [Option.map_some, List.filter_map]
        refine FailsByData.bind (ih d (hpart (Entries.mem_of_lookup hlookup)) _) fun title _ => ?_
        split
        · exact hbuilt fun h => by cases h
        · rename_i hextra
          rw [Bool.or_eq_true, not_or, Bool.not_eq_true', Bool.not_eq_false] at hextra
          refine FailsByData.bind (Schema.failsByData_readEntries fun entry hentry => ?_)
            fun rest _ => hbuilt fun _ => hextra.2
          exact ih _ (hpart (List.mem_of_mem_filter hentry)) _

/-- Data that is not read has faults, all of them about the data. -/
theorem failsByData_decodeAt (t : DataType) (x : Json) :
    FailsByData (schema.decodeAt σ t x) := by
  induction x using Json.partsInduction generalizing t with
  | step x ih =>
    induction t using Ty.induction with
    | any =>
      rw [Schema.decodeAt_any]
      exact .ok _
    | null =>
      rw [Schema.decodeAt_eq_readAs, Schema.readAs]
      split
      · exact .ok _
      · exact .here (by simp)
    | str =>
      rw [Schema.decodeAt_eq_readAs]
      unfold Schema.readAs
      split
      · exact .ok _
      · exact .here (by simp)
    | int =>
      rw [Schema.decodeAt_eq_readAs]
      unfold Schema.readAs
      split
      · exact .ok _
      · exact .here (by simp)
    | bool =>
      rw [Schema.decodeAt_eq_readAs]
      unfold Schema.readAs
      split
      · exact .ok _
      · exact .here (by simp)
    | float =>
      rw [Schema.decodeAt_eq_readAs]
      unfold Schema.readAs
      split
      · exact .ok _
      · split
        · exact .ok _
        · intro failure h
          cases h
          exact .tooLarge
      · exact .here (by simp)
    | listOfAny =>
      rw [Schema.decodeAt_eq_readAs, Schema.readAs]
      exact Schema.failsByData_readList fun part hpart => ih part hpart .any
    | unknown =>
      rw [Schema.decodeAt_eq_readAs]
      unfold Schema.readAs
      split
      · exact .ok _
      · exact .ok _
      · exact .here (by simp)
    | literal text =>
      rw [Schema.decodeAt_eq_readAs, Schema.readAs]
      split
      · exact .ok _
      · exact .here (by simp)
    | enumeration e =>
      rw [Schema.decodeAt_eq_readAs, Schema.readAs]
      exact Schema.failsByData_readEnumeration e _
    | record r => exact failsByData_record ih
    | list item =>
      rw [Schema.decodeAt_eq_readAs, Schema.readAs]
      exact Schema.failsByData_readList fun part hpart => ih part hpart item
    | map item =>
      rw [Schema.decodeAt_eq_readAs]
      cases x with
      | scalar s => exact .here (by simp)
      | arr items => exact .here (by simp)
      | obj entries =>
        refine (Schema.failsByData_readEntries fun entry hentry => ?_).map _
        exact ih entry.2 (List.mem_map_of_mem hentry) item
    | union ts iht =>
      rw [Schema.decodeAt_union]
      refine Schema.failsByData_readUnion fun reading hreading => ?_
      obtain ⟨t, hmem, rfl⟩ := List.mem_map.1 hreading
      rw [← Schema.decodeAt_eq_readAs]
      exact iht t hmem
    | packed r =>
      rw [Schema.decodeAt_eq_readAs, Schema.readAs, Schema.readPacked]
      cases Schema.readTokens r (schema.layer σ x) with
      | ok v => exact .ok v
      | error fault => exact .here (by simp)
    | recordOrFlag r label =>
      have hrecord : FailsByData (schema.readRecord σ r (schema.layer σ x)) := by
        rw [← Schema.readAs, ← Schema.decodeAt_eq_readAs]
        exact failsByData_record ih
      rw [Schema.decodeAt_eq_readAs, Schema.readAs]
      unfold Schema.readRecordOrFlag
      split
      · exact .ok _
      · exact .ok _
      · exact .ok _
      · exact hrecord
      · exact .here (by simp)

/-! ## Decoding -/

/-- Data that is not read as a type without numbers with a fraction is a mismatch with the type, and
its errors are listed. -/
theorem exists_mismatch {t : DataType} (ht : t.isFloatless = true) {x : Json} {failure : Failure}
    (h : schema.decodeAt σ t x = .error failure) :
    ∃ faults, failure = .faults faults ∧
      (Mismatch.type (schema.typeName t) faults).errors ≠ [] := by
  cases failure with
  | tooLarge => exact absurd h (decodeAt_ne_tooLarge ht x)
  | faults faults =>
    refine ⟨faults, rfl, ?_⟩
    have hcauses := (failsByData_decodeAt t x _ h).nonempty
    simpa [Failure.causes, Mismatch.errors] using hcauses

theorem decode_of_refused (t : DataType) (x : Json) :
    schema.decode false (some .v3_17) t x = .error (.refused (.disabled "LSP 3.17.0")) :=
  rfl

theorem decode_eq_decodeAt {enabled : Bool} {version? : Option SpecVersion}
    (h : ¬(version? = some .v3_17 ∧ enabled = false)) (t : DataType) (x : Json) :
    schema.decode enabled version? t x =
      match schema.decodeAt ⟨version?.getD (Surface.defaultVersion enabled), enabled⟩ t x with
      | .ok v => .ok v
      | .error .tooLarge => .error .tooLarge
      | .error (.faults faults) => .error (.mismatch (.type (schema.typeName t) faults)) := by
  have hversion : version? = some .v3_17 → enabled = true := fun hversion =>
    Bool.of_not_eq_false fun hdisabled => h ⟨hversion, hdisabled⟩
  have hpasses :
      ((version?.getD (Surface.defaultVersion enabled)).isProposed && !enabled) = false := by
    cases hproposed : (version?.getD (Surface.defaultVersion enabled)).isProposed with
    | false => rfl
    | true =>
      rw [Schema.enabled_of_isProposed hversion hproposed]
      rfl
  unfold Schema.decode
  dsimp only
  rw [hpasses, if_neg Bool.false_ne_true]
  cases schema.decodeAt ⟨version?.getD (Surface.defaultVersion enabled), enabled⟩ t x with
  | ok v => rfl
  | error failure => cases failure <;> rfl

/-- Decoding gives a value, or a mismatch with the type that lists errors, or it refuses the version
asked for. It refuses just the proposed version, while the proposed parts are not enabled. No
constructor refuses a proposed part of any data, whatever type the data is read as on the way. -/
theorem decode_outcomes {t : DataType} (ht : t.isFloatless = true) (enabled : Bool)
    (version? : Option SpecVersion) (x : Json) :
    ((∃ v, schema.decode enabled version? t x = .ok v) ∨
      (∃ m, schema.decode enabled version? t x = .error (.mismatch m) ∧
        m.reason = "cannot decode " ++ schema.typeName t ∧
        m.target? = some (schema.typeName t) ∧ m.errors ≠ []) ∨
      ∃ what, schema.decode enabled version? t x = .error (.refused (.disabled what))) ∧
    ((∃ what, schema.decode enabled version? t x = .error (.refused (.disabled what))) ↔
      version? = some .v3_17 ∧ enabled = false) ∧
    ∀ (σ : Surface) (u : DataType) (y : Json) (failure : Failure),
      schema.decodeAt σ u y = .error failure → ∀ what, Cause.proposed what ∉ failure.causes := by
  refine and_assoc.1 ⟨?_, fun σ u y failure h => (failsByData_decodeAt u y failure h).ungated⟩
  by_cases hrefused : version? = some .v3_17 ∧ enabled = false
  · obtain ⟨rfl, rfl⟩ := hrefused
    have hdecode := decode_of_refused t x
    constructor
    · exact .inr (.inr ⟨_, hdecode⟩)
    · exact iff_of_true ⟨_, hdecode⟩ ⟨rfl, rfl⟩
  · rw [decode_eq_decodeAt hrefused]
    cases hread : schema.decodeAt ⟨version?.getD (Surface.defaultVersion enabled), enabled⟩ t x with
    | ok v =>
      constructor
      · exact .inl ⟨v, rfl⟩
      · exact iff_of_false nofun hrefused
    | error failure =>
      obtain ⟨faults, rfl, herrors⟩ := exists_mismatch ht hread
      constructor
      · exact .inr (.inl ⟨_, rfl, rfl, rfl, herrors⟩)
      · exact iff_of_false nofun hrefused

/-- The field for notebooks is outside the surface, and the one for hovers does not fit. -/
theorem decode_outcomes_serverCapabilities :
    (Ty.record .serverCapabilities : DataType).isFloatless = true ∧
      ∃ m, schema.decode false none (.record .serverCapabilities)
          (.obj [("notebookDocumentSync", .int 1), ("hoverProvider", .int 2)]) =
        .error (.mismatch m) ∧ m.reason = "cannot decode ServerCapabilities" ∧
        m.target? = some "ServerCapabilities" ∧ m.errors ≠ [] := by
  have hfloatless : (Ty.record .serverCapabilities : DataType).isFloatless = true := rfl
  obtain ⟨⟨v, hv⟩ | hmismatch | hrefused, hiff, -⟩ := decode_outcomes hfloatless false none
    (.obj [("notebookDocumentSync", .int 1), ("hoverProvider", .int 2)])
  · cases hv
  · exact ⟨hfloatless, hmismatch⟩
  · cases (hiff.1 hrefused).1

end Protocol

end LspWire
