import LspWire.Proofs.Reading.Enumeration

/-!
# Reading of records

A record is read field by field. What a field holds depends on the entry that the object shows for
it: an entry of a field outside the surface counts as absent, and an absent field takes its default.
The record whose keys are the entries of a map is read in a way of its own.
-/

namespace LspWire

variable {R E : Type}

/-- Whether all keys of the object but one are the entries of a map. -/
def RecordDecl.isSpread (d : RecordDecl R E) : Bool :=
  match d.form with
  | .spread .. => true
  | _ => false

/-- The datum that an object shows for a field on a surface. -/
def Field.shown? (σ : Surface) (entries : List (String × Json)) (f : Field R E) : Option Json :=
  if f.isVisible σ then entries.lookup f.name else none

theorem Field.eq_of_name_eq {fields : List (Field R E)} (hn : (fields.map (·.name)).Nodup)
    {f g : Field R E} (hf : f ∈ fields) (hg : g ∈ fields) (h : f.name = g.name) : f = g :=
  List.inj_on_of_nodup_map hn hf hg h

theorem Field.lookup_of_shown? {σ : Surface} {entries : List (String × Json)} {f : Field R E}
    {x : Json} (h : f.shown? σ entries = some x) : entries.lookup f.name = some x := by
  rw [Field.shown?] at h
  split at h
  · exact h
  · cases h

theorem Field.isVisible_of_shown? {σ : Surface} {entries : List (String × Json)} {f : Field R E}
    {x : Json} (h : f.shown? σ entries = some x) : f.isVisible σ = true := by
  rw [Field.shown?] at h
  split at h
  · assumption
  · cases h

namespace Schema

variable {S : Schema R E} {σ : Surface}

/-- What a field holds after an object has been read. -/
def FieldRead (S : Schema R E) (σ : Surface) (entries : List (String × Json)) (f : Field R E)
    (v : Value R E) : Prop :=
  match f.shown? σ entries with
  | some x => S.decodeAt σ f.ty x = .ok v
  | none => S.defaultValue? f.default = some v

/-- The fields of a record after an object has been read. -/
def FieldsRead (S : Schema R E) (σ : Surface) (entries : List (String × Json))
    (fields : List (Field R E)) (values : List (Value R E)) : Prop :=
  List.Forall₂ (S.FieldRead σ entries) fields values

/-- The fields outside the surface have the names of no other fields. -/
theorem any_hidden {fields : List (Field R E)} (hn : (fields.map (·.name)).Nodup)
    {f : Field R E} (hf : f ∈ fields) :
    ((fields.filter fun g => !g.isVisible σ).any fun g => decide (g.name = f.name)) =
      !f.isVisible σ := by
  rw [Bool.eq_iff_iff, List.any_eq_true]
  constructor
  · rintro ⟨g, hg, hname⟩
    rw [List.mem_filter] at hg
    rw [← Field.eq_of_name_eq hn hg.1 hf (of_decide_eq_true hname)]
    exact hg.2
  · intro h
    exact ⟨f, List.mem_filter.2 ⟨hf, h⟩, decide_eq_true rfl⟩

/-- The entries of an object but those of fields outside the surface. -/
def shownEntries {α : Type} (σ : Surface) (fields : List (Field R E))
    (entries : List (String × α)) : List (String × α) :=
  entries.filter fun entry =>
    !(fields.filter fun g => !g.isVisible σ).any fun g => decide (g.name = entry.1)

theorem lookup_shownEntries {fields : List (Field R E)} (hn : (fields.map (·.name)).Nodup)
    {f : Field R E} (hf : f ∈ fields) (entries : List (String × Json)) :
    (shownEntries σ fields (entries.map fun entry => (entry.1, S.readable σ entry.2))).lookup
        f.name =
      (f.shown? σ entries).map (S.readable σ) := by
  have hlookup := Entries.lookup_filter_key
    (fun key => !(fields.filter fun g => !g.isVisible σ).any fun g => decide (g.name = key))
    (entries.map fun entry => (entry.1, S.readable σ entry.2)) f.name
  rw [any_hidden hn hf, Bool.not_not, Entries.lookup_map_value] at hlookup
  rw [shownEntries, hlookup, Field.shown?]
  split <;> rfl

/-- The reading of a field from the datum that stands for it, if there is one. -/
def readShown (S : Schema R E) (σ : Surface) (f : Field R E) :
    Option Json → Except (List Fault) (Value R E)
  | some x => (S.decodeAt σ f.ty x).mapError (Failure.under (.field f.name))
  | none =>
    match S.defaultValue? f.default with
    | some v => .ok v
    | none => .error [⟨[.field f.name], .missing⟩]

/-- A field is read from the datum that an object shows for it. -/
theorem readField_shownEntries {fields : List (Field R E)} (hn : (fields.map (·.name)).Nodup)
    {f : Field R E} (hf : f ∈ fields) (entries : List (String × Json)) :
    S.readField (shownEntries σ fields
        (entries.map fun entry => (entry.1, S.readable σ entry.2))) f =
      S.readShown σ f (f.shown? σ entries) := by
  rw [readField, lookup_shownEntries hn hf]
  cases f.shown? σ entries <;> rfl

theorem readField_eq_ok_iff {fields : List (Field R E)} (hn : (fields.map (·.name)).Nodup)
    {f : Field R E} (hf : f ∈ fields) {entries : List (String × Json)} {v : Value R E} :
    S.readField (shownEntries σ fields
        (entries.map fun entry => (entry.1, S.readable σ entry.2))) f = .ok v ↔
      S.FieldRead σ entries f v := by
  rw [readField_shownEntries hn hf, FieldRead]
  cases f.shown? σ entries with
  | some x => exact mapError_eq_ok_iff
  | none =>
    rw [readShown]
    cases S.defaultValue? f.default <;> simp

theorem collect_readField_eq_ok_iff {fields : List (Field R E)}
    (hn : (fields.map (·.name)).Nodup) {entries : List (String × Json)}
    {values : List (Value R E)} :
    collect (fields.map (S.readField (shownEntries σ fields
        (entries.map fun entry => (entry.1, S.readable σ entry.2))))) = .ok values ↔
      S.FieldsRead σ entries fields values := by
  rw [collect_map_eq_ok_iff, FieldsRead, List.forall₂_iff_zip, List.forall₂_iff_zip]
  refine and_congr_right fun _ => forall₂_congr fun f v => forall_congr' fun h => ?_
  exact readField_eq_ok_iff hn (List.of_mem_zip h).1

theorem built_eq_ok_iff {r : R} {values : List (Value R E)} {v : Value R E} :
    S.built σ r values = .ok v ↔
      S.gate σ.proposed r = .ok () ∧ S.checkFields σ.proposed r values = .ok () ∧
        v = .record r values := by
  rw [built]
  cases S.gate σ.proposed r <;> cases S.checkFields σ.proposed r values <;> simp [eq_comm]

theorem gate_of_admits {r : R} (h : σ.admits (S.record r).tag = true) :
    S.gate σ.proposed r = .ok () := by
  rw [Surface.admits, Bool.and_eq_true, Bool.or_eq_true] at h
  rw [gate]
  rcases h.1 with hproposed | hstable
  · simp [hproposed]
  · have hstable' : Surface.isProposed (S.record r).tag = false := by simpa using hstable
    simp [hstable']

/-- The fields with a fixed text that an object has no entry for. -/
def absentLiterals {α : Type} (fields : List (Field R E)) (entries : List (String × α)) :
    List (Field R E) :=
  fields.filter fun f => f.isLiteral && (entries.lookup f.name).isNone

theorem absentLiterals_map {α β : Type} (g : α → β) (fields : List (Field R E))
    (entries : List (String × α)) :
    absentLiterals fields (entries.map fun entry => (entry.1, g entry.2)) =
      absentLiterals fields entries := by
  unfold absentLiterals
  simp only [Entries.lookup_map_value, Option.isNone_map]

theorem absentLiterals_eq_nil_iff {fields : List (Field R E)} {entries : List (String × Json)} :
    absentLiterals fields entries = [] ↔
      ∀ f ∈ fields, f.isLiteral = true → (entries.lookup f.name).isSome := by
  rw [absentLiterals, List.filter_eq_nil_iff]
  refine forall₂_congr fun f _ => ?_
  cases f.isLiteral <;> cases entries.lookup f.name <;> simp

/-- The fields of an object are read if no fixed text is absent, and the record is built of them. -/
theorem readFields_eq (r : R) (fields : List (Field R E)) (entries : List (String × Json)) :
    S.readFields σ r fields (entries.map fun entry => (entry.1, S.readable σ entry.2)) =
      if absentLiterals fields entries = [] then
        match collect (fields.map (S.readField (shownEntries σ fields
            (entries.map fun entry => (entry.1, S.readable σ entry.2))))) with
        | .ok values => S.built σ r values
        | .error faults => .error (.faults faults)
      else
        .error (.faults ((absentLiterals fields entries).map fun f =>
          ⟨[.field f.name], .missing⟩)) := by
  rw [← absentLiterals_map (S.readable σ)]
  simp only [← List.isEmpty_iff]
  rfl

theorem readFields_eq_ok_iff {fields : List (Field R E)} (hn : (fields.map (·.name)).Nodup)
    {r : R} {entries : List (String × Json)} {v : Value R E} :
    S.readFields σ r fields (entries.map fun entry => (entry.1, S.readable σ entry.2)) = .ok v ↔
      (∀ f ∈ fields, f.isLiteral = true → (entries.lookup f.name).isSome) ∧
        ∃ values, S.FieldsRead σ entries fields values ∧ S.built σ r values = .ok v := by
  rw [readFields_eq, ← absentLiterals_eq_nil_iff]
  by_cases h : absentLiterals fields entries = []
  · rw [if_pos h, and_iff_right h]
    simp only [← collect_readField_eq_ok_iff hn]
    cases collect (fields.map (S.readField (shownEntries σ fields
      (entries.map fun entry => (entry.1, S.readable σ entry.2))))) <;> simp
  · rw [if_neg h]
    exact iff_of_false nofun fun h' => h h'.1

theorem decodeAt_record {r : R} (hform : (S.record r).isSpread = false) (x : Json) :
    S.decodeAt σ (.record r) x = (do
      available σ (S.record r).name (Surface.isProposed (S.record r).tag)
        (Surface.covers σ.version (S.record r).tag) ((S.record r).tag.map (·.text))
      match S.layer σ x with
      | .map entries => S.readFields σ r (S.record r).fields entries
      | layer => throw (.here (.objectExpected (S.record r).name layer.kind))) := by
  rw [decodeAt_eq_readAs, readAs]
  unfold readRecord
  rw [RecordDecl.isSpread] at hform
  dsimp only
  cases hf : (S.record r).form with
  | spread key rest tag item => simp [hf] at hform
  | plain fields => cases S.layer σ x <;> rfl
  | outcome common result error => cases S.layer σ x <;> rfl

/-- A record that is written as an object of its fields takes the objects whose fields are read,
if the record belongs to the surface and every fixed text is present. -/
theorem decodeAt_record_eq_ok_iff {r : R} (hform : (S.record r).isSpread = false)
    (hn : ((S.record r).fields.map (·.name)).Nodup) {x : Json} {v : Value R E} :
    S.decodeAt σ (.record r) x = .ok v ↔
      σ.admits (S.record r).tag = true ∧ ∃ entries values, x = .obj entries ∧
        v = .record r values ∧
        (∀ f ∈ (S.record r).fields, f.isLiteral = true → (entries.lookup f.name).isSome) ∧
        S.FieldsRead σ entries (S.record r).fields values ∧
        S.checkFields σ.proposed r values = .ok () := by
  rw [decodeAt_record hform, bind_eq_ok_iff]
  constructor
  · rintro ⟨⟨⟩, havailable, hv⟩
    have hadmits := (available_tag_eq_ok_iff ..).1 havailable
    refine ⟨hadmits, ?_⟩
    cases x with
    | scalar s => cases hv
    | arr items => cases hv
    | obj entries =>
      obtain ⟨hliteral, values, hvalues, hbuilt⟩ := (readFields_eq_ok_iff hn).1 hv
      obtain ⟨-, hchecks, rfl⟩ := built_eq_ok_iff.1 hbuilt
      exact ⟨entries, values, rfl, rfl, hliteral, hvalues, hchecks⟩
  · rintro ⟨hadmits, entries, values, rfl, rfl, hliteral, hvalues, hchecks⟩
    refine ⟨(), (available_tag_eq_ok_iff ..).2 hadmits, ?_⟩
    exact (readFields_eq_ok_iff hn).2 ⟨hliteral, values, hvalues,
      built_eq_ok_iff.2 ⟨gate_of_admits hadmits, hchecks, rfl⟩⟩

/-- What the map of a record holds after the entries beside its field have been read. Without such
entries, and outside the surface, it is null. -/
def RestRead (S : Schema R E) (σ : Surface) (restTag : Option Tag) (item : Ty R E)
    (extra : List (String × Json)) (v : Value R E) : Prop :=
  if extra.isEmpty || !σ.admits restTag then v = .null
  else ∃ values, S.EntriesRead σ item extra values ∧ v = .map values

theorem admits_of_restRead {restTag : Option Tag} {item : Ty R E} {extra : List (String × Json)}
    {v : Value R E} (h : S.RestRead σ restTag item extra v) (hv : v.isNull = false) :
    σ.admits restTag = true := by
  rw [RestRead] at h
  split at h
  · rw [h] at hv
    cases hv
  · rename_i hshown
    rw [Bool.or_eq_true, not_or, Bool.not_eq_true', Bool.not_eq_false] at hshown
    exact hshown.2

theorem readRest_eq_ok_iff (r : R) (restTag : Option Tag) (item : Ty R E)
    (extra : List (String × Json)) (title v : Value R E) :
    (if (extra.map fun entry => (entry.1, S.readable σ entry.2)).isEmpty || !σ.admits restTag then
        S.built σ r [title, .null]
      else do
        let rest ← readEntries item (extra.map fun entry => (entry.1, S.readable σ entry.2))
        S.built σ r [title, .map rest]) = .ok v ↔
      ∃ restValue, S.RestRead σ restTag item extra restValue ∧
        S.built σ r [title, restValue] = .ok v := by
  rw [List.isEmpty_map]
  simp only [RestRead]
  by_cases h : (extra.isEmpty || !σ.admits restTag) = true
  · simp only [if_pos h, exists_eq_left]
  · simp only [if_neg h]
    rw [bind_eq_ok_iff]
    simp only [readEntries_eq_ok_iff]
    constructor
    · rintro ⟨values, hvalues, hbuilt⟩
      exact ⟨.map values, ⟨values, hvalues, rfl⟩, hbuilt⟩
    · rintro ⟨restValue, ⟨values, hvalues, rfl⟩, hbuilt⟩
      exact ⟨values, hvalues, hbuilt⟩

/-- The entries of an object beside a field. -/
def otherEntries {α : Type} (key : Field R E) (entries : List (String × α)) : List (String × α) :=
  entries.filter fun (name, _) => name ≠ key.name

/-- A record whose other keys are the entries of a map takes the objects with its field, whether or
not the record belongs to the surface. -/
theorem decodeAt_spread_eq_ok_iff {r : R} {key : Field R E} {rest : String} {restTag : Option Tag}
    {item : Ty R E} (hform : (S.record r).form = .spread key rest restTag item) {x : Json}
    {v : Value R E} :
    S.decodeAt σ (.record r) x = .ok v ↔
      ∃ entries d title restValue, x = .obj entries ∧ v = .record r [title, restValue] ∧
        entries.lookup key.name = some d ∧ S.decodeAt σ key.ty d = .ok title ∧
        S.RestRead σ restTag item (otherEntries key entries) restValue ∧
        S.gate σ.proposed r = .ok () ∧
        S.checkFields σ.proposed r [title, restValue] = .ok () := by
  rw [decodeAt_eq_readAs, readAs]
  unfold readRecord
  simp only [hform]
  cases x with
  | scalar s => simp [layer]
  | arr items => simp [layer]
  | obj entries =>
    simp only [layer, readSpread, Entries.lookup_map_value, Json.obj.injEq]
    cases hlookup : entries.lookup key.name with
    | none =>
      simp only [Option.map_none]
      constructor
      · intro h
        cases h
      · rintro ⟨entries', d, title, restValue, rfl, -, h, -⟩
        rw [hlookup] at h
        cases h
    | some d =>
      simp only [Option.map_some, List.filter_map]
      rw [bind_eq_ok_iff]
      have hrest (title : Value R E) :=
        readRest_eq_ok_iff (S := S) (σ := σ) r restTag item (otherEntries key entries) title v
      constructor
      · rintro ⟨title, htitle, h⟩
        obtain ⟨restValue, hrestRead, hbuilt⟩ := (hrest title).1 h
        obtain ⟨hgate, hchecks, rfl⟩ := built_eq_ok_iff.1 hbuilt
        exact ⟨entries, d, title, restValue, rfl, rfl, hlookup, htitle, hrestRead, hgate, hchecks⟩
      · rintro ⟨entries', d', title, restValue, rfl, rfl, hd, htitle, hrestRead, hgate, hchecks⟩
        rw [hlookup, Option.some.injEq] at hd
        subst hd
        exact ⟨title, htitle,
          (hrest title).2 ⟨restValue, hrestRead, built_eq_ok_iff.2 ⟨hgate, hchecks, rfl⟩⟩⟩

/-! ## Wire forms of their own -/

theorem decodeAt_packed_eq_ok_iff {r : R} {x : Json} {v : Value R E} :
    S.decodeAt σ (.packed r) x = .ok v ↔
      (x = .null ∧ v = .null) ∨
        ∃ text tokens, x = .str text ∧ Token.unpack text = .ok tokens ∧
          v = .list (tokens.map (tokenValue r)) := by
  rw [decodeAt_eq_readAs, readAs, readPacked, mapError_eq_ok_iff]
  cases x with
  | scalar s =>
    cases s with
    | null => simp [layer, readTokens, eq_comm]
    | str text => cases htext : Token.unpack text <;> simp [layer, readTokens, htext, eq_comm]
    | bool b => simp [layer, readTokens]
    | int n => simp [layer, readTokens]
    | float y => simp [layer, readTokens]
  | arr items => simp [layer, readTokens]
  | obj entries => simp [layer, readTokens]

/-- A record that older clients replace by a flag is read from an object. Null and false stand for
none, and true stands for the record of empty lists. -/
theorem decodeAt_recordOrFlag_eq_ok_iff {r : R} {label : String} {x : Json} {v : Value R E} :
    S.decodeAt σ (.recordOrFlag r label) x = .ok v ↔
      ((x = .null ∨ x = .bool false) ∧ v = .null) ∨
        (x = .bool true ∧ v = .record r ((S.record r).fields.map fun _ => .list [])) ∨
        ∃ entries, x = .obj entries ∧ S.decodeAt σ (.record r) x = .ok v := by
  rw [decodeAt_eq_readAs, readAs, decodeAt_eq_readAs, readAs]
  cases x with
  | scalar s =>
    cases s with
    | null => simp [layer, readRecordOrFlag, eq_comm]
    | bool b => cases b <;> simp [layer, readRecordOrFlag, eq_comm]
    | int n => simp [layer, readRecordOrFlag]
    | float y => simp [layer, readRecordOrFlag]
    | str s => simp [layer, readRecordOrFlag]
  | arr items => simp [layer, readRecordOrFlag]
  | obj entries => simp [layer, readRecordOrFlag]

end Schema

end LspWire
