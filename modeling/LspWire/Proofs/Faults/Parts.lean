import LspWire.Proofs.Edits
import LspWire.Proofs.Failures

/-!
# Faults of parts

A datum is opened for reading if it has the kind that its type asks for and nothing forbids the type.
Then it has the faults of its parts, each under the step that leads to the part, and a part that is
missing is a fault of its own. A datum that is not opened has a single fault, at its top. There is
one fault more that a datum may have at its top: numbers of a token that do not fit.
-/

namespace LspWire

variable {R E : Type}

/-! ## Faults of results -/

/-- The faults of a failure, in order. -/
def Failure.all : Failure → List Fault
  | .tooLarge => [.here .tooLarge]
  | .faults list => list

theorem Failure.under_eq_map_all (step : PathStep) (failure : Failure) :
    failure.under step = failure.all.map (Fault.under step) := by
  cases failure <;> rfl

/-- The faults of a result. A value has none. -/
def faultsOf {α : Type} : Except Failure α → List Fault
  | .ok _ => []
  | .error failure => failure.all

/-- The faults of a result that lists them. -/
def listedFaults {α : Type} : Except (List Fault) α → List Fault
  | .ok _ => []
  | .error faults => faults

theorem listedFaults_collect {α : Type} (results : List (Except (List Fault) α)) :
    listedFaults (collect results) = results.flatMap listedFaults := by
  induction results with
  | nil => rfl
  | cons result results ih =>
    rw [List.flatMap_cons, ← ih]
    cases result with
    | ok v =>
      rw [collect]
      cases collect results <;> rfl
    | error faults =>
      rw [collect]
      cases collect results with
      | ok vs => exact (List.append_nil faults).symm
      | error more => rfl

theorem listedFaults_under {α : Type} (step : PathStep) (x : Except Failure α) :
    listedFaults (x.mapError (Failure.under step)) = (faultsOf x).map (Fault.under step) := by
  cases x with
  | ok v => rfl
  | error failure => exact failure.under_eq_map_all step

theorem listedFaults_map {α β : Type} (f : α → β) (x : Except (List Fault) α) :
    listedFaults (x.map f) = listedFaults x := by
  cases x <;> rfl

theorem faultsOf_map {α β : Type} (f : α → β) (x : Except Failure α) :
    faultsOf (x.map f) = faultsOf x := by
  cases x <;> rfl

theorem faultsOf_mapError_faults {α : Type} (x : Except (List Fault) α) :
    faultsOf (x.mapError .faults) = listedFaults x := by
  cases x <;> rfl

theorem map_mapIdx {α β γ : Type} (f : Nat → α → β) (g : β → γ) (xs : List α) :
    (xs.mapIdx f).map g = xs.mapIdx fun i x => g (f i x) :=
  List.ext_getElem (by simp) (by simp)

theorem flatMap_filterMap {α β γ : Type} (f : α → Option β) (g : β → List γ) (xs : List α) :
    (xs.filterMap f).flatMap g = xs.flatMap fun x => ((f x).map g).getD [] := by
  induction xs with
  | nil => rfl
  | cons x xs ih =>
    rw [List.filterMap_cons, List.flatMap_cons, ← ih]
    cases f x <;> rfl

/-! ## Types of parts -/

namespace Ty

mutual

/-- The type that data but null is read as: a union with one alternative besides null leaves no
choice. -/
def core : Ty R E → Ty R E
  | .union ts =>
    match cores ts with
    | [t] => t
    | _ => .union ts
  | t => t

def cores : List (Ty R E) → List (Ty R E)
  | [] => []
  | t :: ts => if t.isNull then cores ts else core t :: cores ts

end

theorem cores_eq_map (ts : List (Ty R E)) : cores ts = (Schema.others ts).map core := by
  induction ts with
  | nil => rfl
  | cons t ts ih =>
    rw [cores, ih, Schema.others, Schema.others, List.filter_cons]
    cases t.isNull <;> rfl

theorem core_union_singleton {ts : List (Ty R E)} {t : Ty R E} (h : Schema.others ts = [t]) :
    core (.union ts) = core t := by
  rw [core, cores_eq_map, h]
  rfl

theorem core_union_of_many {ts : List (Ty R E)} (h : ∀ t, Schema.others ts ≠ [t]) :
    core (.union ts) = .union ts := by
  rw [core, cores_eq_map]
  split
  · rename_i t heq
    obtain ⟨u, hu, -⟩ := List.map_eq_singleton_iff.1 heq
    exact absurd hu (h u)
  · rfl

/-- Where a union stays, it leaves a choice. -/
theorem ne_singleton_of_core {t : Ty R E} {ts : List (Ty R E)} (h : t.core = .union ts) (u : Ty R E) :
    Schema.others ts ≠ [u] := by
  induction t using Ty.induction with
  | union us ih =>
    by_cases hone : ∃ t, Schema.others us = [t]
    · obtain ⟨t, ht⟩ := hone
      have hmem : t ∈ Schema.others us := by simp [ht]
      rw [core_union_singleton ht] at h
      exact ih t (Schema.mem_others_iff.1 hmem).1 h
    · rw [core_union_of_many fun t ht => hone ⟨t, ht⟩] at h
      cases h
      exact fun hu => hone ⟨u, hu⟩
  | _ => cases h

/-- The record that the objects of a type are read as. -/
def recordOf? (t : Ty R E) : Option R :=
  match t.core with
  | .record r | .recordOrFlag r _ => some r
  | _ => none

theorem core_of_recordOf? {t : Ty R E} {r : R} (h : t.recordOf? = some r) :
    t.core = .record r ∨ ∃ label, t.core = .recordOrFlag r label := by
  unfold recordOf? at h
  split at h
  · rename_i hcore
    cases h
    exact .inl hcore
  · rename_i hcore
    cases h
    exact .inr ⟨_, hcore⟩
  · cases h

/-- Whether a type leaves a choice between alternatives besides null. -/
def isChoice (t : Ty R E) : Bool := t.core.isUnion

end Ty

namespace Schema

theorem decodeAt_core {S : Schema R E} {σ : Surface} (t : Ty R E) (x : Json) :
    S.decodeAt σ t x = S.decodeAt σ t.core x ∨ (x = .null ∧ S.decodeAt σ t x = .ok .null) := by
  induction t using Ty.induction with
  | union ts ih =>
    by_cases hnull : x = .null ∧ Ty.null ∈ ts
    · exact .inr ⟨hnull.1, by rw [hnull.1, decodeAt_union_null hnull.2]⟩
    · by_cases hone : ∃ t, others ts = [t]
      · obtain ⟨t, ht⟩ := hone
        have hmem : t ∈ others ts := by simp [ht]
        rw [decodeAt_union_singleton ht hnull, Ty.core_union_singleton ht]
        exact ih t (mem_others_iff.1 hmem).1
      · rw [Ty.core_union_of_many fun t ht => hone ⟨t, ht⟩]
        exact .inl rfl
  | _ => exact .inl rfl

/-- The type of a part of an object that is read as a record. -/
def recordPart? (S : Schema R E) (σ : Surface) (r : R) (step : PathStep) : Option (Ty R E) :=
  match (S.record r).form, step with
  | .spread key _ restTag item, .key k => if k ≠ key.name ∧ σ.admits restTag then some item else none
  | .spread .., _ => none
  | _, .field name =>
    ((S.record r).fields.find? fun f => f.name = name && f.isVisible σ).map (·.ty)
  | _, _ => none

/-- The type that a part of data is read as. No parts are read below a choice. -/
def partType? (S : Schema R E) (σ : Surface) (t : Ty R E) (step : PathStep) : Option (Ty R E) :=
  match t.core, step with
  | .listOfAny, .index _ => some .any
  | .list item, .index _ => some item
  | .map item, .key _ => some item
  | .record r, step | .recordOrFlag r _, step => S.recordPart? σ r step
  | _, _ => none

/-- The type that the data at a place is read as, below data of a type. -/
def typeAt? (S : Schema R E) (σ : Surface) : Ty R E → List PathStep → Option (Ty R E)
  | t, [] => some t
  | t, step :: path => (S.partType? σ t step).bind fun u => typeAt? S σ u path

/-! ## Parts of data -/

/-- The faults of data that is read as a type. -/
def faultsAt (S : Schema R E) (σ : Surface) (t : Ty R E) (x : Json) : List Fault :=
  faultsOf (S.decodeAt σ t x)

/-- A part that is looked at for data: the step to it, the type it is read as, and what stands there,
unless it is missing. -/
structure Part (R E : Type) where
  step : PathStep
  ty : Ty R E
  data? : Option Json

/-- The faults of a part, seen from the whole. -/
def partFaults (S : Schema R E) (σ : Surface) (p : Part R E) : List Fault :=
  match p.data? with
  | some y => (S.faultsAt σ p.ty y).map (Fault.under p.step)
  | none => [⟨[p.step], .missing⟩]

/-- The part for a field, unless the field takes its default. -/
def fieldPart? (S : Schema R E) (σ : Surface) (entries : List (String × Json)) (f : Field R E) :
    Option (Part R E) :=
  match f.shown? σ entries with
  | some y => some ⟨.field f.name, f.ty, some y⟩
  | none =>
    match S.defaultValue? f.default with
    | some _ => none
    | none => some ⟨.field f.name, f.ty, none⟩

/-- The parts of an object of fields. Fixed texts that are missing are looked at before all others. -/
def fieldParts (S : Schema R E) (σ : Surface) (fields : List (Field R E))
    (entries : List (String × Json)) : List (Part R E) :=
  if absentLiterals fields entries = [] then fields.filterMap (S.fieldPart? σ entries)
  else (absentLiterals fields entries).map fun f => ⟨.field f.name, f.ty, none⟩

/-- The parts of an object that is read as a record. -/
def recordParts (S : Schema R E) (σ : Surface) (r : R) (entries : List (String × Json)) :
    List (Part R E) :=
  match (S.record r).form with
  | .spread key _ restTag item =>
    if σ.admits restTag then
      (otherEntries key entries).map fun entry => ⟨.key entry.1, item, some entry.2⟩
    else []
  | _ => S.fieldParts σ (S.record r).fields entries

/-- The parts of data. -/
def parts (S : Schema R E) (σ : Surface) (t : Ty R E) (x : Json) : List (Part R E) :=
  match t.core, x with
  | .listOfAny, .arr items => items.mapIdx fun i y => ⟨.index i, .any, some y⟩
  | .list item, .arr items => items.mapIdx fun i y => ⟨.index i, item, some y⟩
  | .map item, .obj entries => entries.map fun entry => ⟨.key entry.1, item, some entry.2⟩
  | .record r, .obj entries | .recordOrFlag r _, .obj entries => S.recordParts σ r entries
  | _, _ => []

/-- Whether the fields or entries of an object are looked at. -/
def OpensRecord (S : Schema R E) (σ : Surface) (r : R) (entries : List (String × Json)) : Prop :=
  match (S.record r).form with
  | .spread key .. => ∃ d v, entries.lookup key.name = some d ∧ S.decodeAt σ key.ty d = .ok v
  | _ => σ.admits (S.record r).tag = true

/-- Data whose parts are looked at. -/
inductive Opens (S : Schema R E) (σ : Surface) (t : Ty R E) : Json → Prop where
  | listOfAny (ht : t.core = .listOfAny) (items : List Json) : Opens S σ t (.arr items)
  | list {item : Ty R E} (ht : t.core = .list item) (items : List Json) : Opens S σ t (.arr items)
  | map {item : Ty R E} (ht : t.core = .map item) (entries : List (String × Json)) :
    Opens S σ t (.obj entries)
  | record {r : R} {entries : List (String × Json)} (ht : t.recordOf? = some r)
    (h : S.OpensRecord σ r entries) : Opens S σ t (.obj entries)

/-! ## Data that is not opened -/

/-- Results that are values or have a single fault, at the top, which is not that of a missing
part. -/
def FailsAtTop {α : Type} (x : Except Failure α) : Prop :=
  faultsOf x = [] ∨ ∃ cause, cause ≠ .missing ∧ faultsOf x = [.here cause]

namespace FailsAtTop

variable {α β : Type}

theorem ok (v : α) : FailsAtTop (.ok v : Except Failure α) := .inl rfl

theorem here {cause : Cause} (h : cause ≠ .missing) :
    FailsAtTop (.error (.here cause) : Except Failure α) :=
  .inr ⟨cause, h, rfl⟩

theorem tooLarge : FailsAtTop (.error .tooLarge : Except Failure α) := .inr ⟨.tooLarge, nofun, rfl⟩

theorem bind {x : Except Failure α} {f : α → Except Failure β} (hx : FailsAtTop x)
    (hf : ∀ v, x = .ok v → FailsAtTop (f v)) : FailsAtTop (x >>= f) := by
  cases x with
  | ok v => exact hf v rfl
  | error failure => exact hx

end FailsAtTop

variable {S : Schema R E} {σ : Surface}

theorem failsAtTop_available {name : String} {isProposed isCovered : Bool}
    {introducedIn : Option String} :
    FailsAtTop (available σ name isProposed isCovered introducedIn) := by
  unfold available
  split
  · exact .here (by simp)
  · split
    · exact .ok ()
    · exact .here (by simp)

theorem failsAtTop_readMember (e : E) (layer : Layer (Readable R E)) :
    FailsAtTop (S.readMember σ e layer) := by
  unfold readMember
  dsimp only
  split
  · split
    · exact .here (by simp)
    · split
      · exact .ok _
      · split
        · exact .here (by simp)
        · exact failsAtTop_available.bind fun _ _ => .ok _
  · exact .here (by simp)

theorem failsAtTop_readEnumeration (e : E) (layer : Layer (Readable R E)) :
    FailsAtTop (S.readEnumeration σ e layer) := by
  unfold readEnumeration
  split
  · split
    · exact .ok _
    · exact .here (by simp)
  · exact failsAtTop_readMember e layer

theorem failsAtTop_readOpen (e : E) (layer : Layer (Readable R E)) :
    FailsAtTop (S.readOpen σ e layer) := by
  unfold readOpen
  split
  · split
    · exact failsAtTop_readMember e _
    · split <;> exact .ok _
  · exact failsAtTop_readMember e _

theorem failsAtTop_choose (layer : Layer (Readable R E)) (fallback : Option (Value R E))
    (readings : List (Ty R E × Except Failure (Value R E))) :
    FailsAtTop (S.choose layer fallback readings) := by
  induction readings generalizing fallback with
  | nil => exact .ok fallback
  | cons reading readings ih =>
    obtain ⟨t, result⟩ := reading
    cases result with
    | error failure =>
      cases failure with
      | tooLarge => exact .tooLarge
      | faults faults => exact ih fallback
    | ok v =>
      rw [choose]
      split
      · exact .ok _
      · exact ih _

theorem failsAtTop_union {ts : List (Ty R E)} (h : ∀ t, others ts ≠ [t]) (x : Json) :
    FailsAtTop (S.decodeAt σ (.union ts) x) := by
  by_cases hnull : x = .null ∧ Ty.null ∈ ts
  · rw [hnull.1, decodeAt_union_null hnull.2]
    exact .ok _
  · cases hopen : openEnumeration? (others ts) with
    | some e =>
      rw [decodeAt_union_open (eq_of_openEnumeration? hopen) hnull]
      exact failsAtTop_readOpen e _
    | none =>
      rw [decodeAt_union_of_many hopen h hnull]
      refine (failsAtTop_choose _ _ _).bind fun v? _ => ?_
      cases v? with
      | some v => exact .ok v
      | none => exact .here (by simp)

/-- Data that is read as a record is refused at its top, unless its fields are looked at. -/
theorem failsAtTop_record {r : R} (hspread : (S.record r).isSpread = false) {x : Json}
    (h : ∀ entries, x = .obj entries → ¬S.OpensRecord σ r entries) :
    FailsAtTop (S.decodeAt σ (.record r) x) := by
  rw [decodeAt_record hspread]
  refine failsAtTop_available.bind fun _ havailable => ?_
  cases x with
  | scalar s => exact .here (by simp)
  | arr items => exact .here (by simp)
  | obj entries =>
    refine absurd ?_ (h entries rfl)
    have hadmits := (available_tag_eq_ok_iff ..).1 havailable
    rw [RecordDecl.isSpread] at hspread
    rw [OpensRecord]
    split
    · rename_i hform
      rw [hform] at hspread
      cases hspread
    · exact hadmits

/-! ## Data that is opened -/

theorem faultsOf_readList (item : Ty R E) (items : List (Readable R E)) :
    faultsOf (readList item (.list items)) =
      listedFaults (collect (items.mapIdx fun i x =>
        (x.readAs item).mapError (Failure.under (.index i)))) := by
  rw [readList]
  split
  · rename_i values hvalues
    rw [hvalues]
    rfl
  · rename_i faults hfaults
    rw [hfaults]
    rfl

theorem faultsAt_list (item : Ty R E) (items : List Json) :
    S.faultsAt σ (.list item) (.arr items) =
      (items.mapIdx fun i y => (⟨.index i, item, some y⟩ : Part R E)).flatMap (S.partFaults σ) := by
  rw [faultsAt, decodeAt_eq_readAs, readAs, layer, faultsOf_readList, listedFaults_collect,
    List.flatMap_def, List.flatMap_def, mapIdx_map, map_mapIdx, map_mapIdx]
  simp only [listedFaults_under]
  rfl

theorem faultsOf_readEntries (item : Ty R E) (entries : List (String × Json)) :
    faultsOf (readEntries item (entries.map fun entry => (entry.1, S.readable σ entry.2))) =
      (entries.map fun entry => (⟨.key entry.1, item, some entry.2⟩ : Part R E)).flatMap
        (S.partFaults σ) := by
  rw [readEntries, faultsOf_mapError_faults, listedFaults_collect, List.flatMap_map,
    List.flatMap_map, List.flatMap_map]
  simp only [listedFaults_map, listedFaults_under]
  rfl

theorem faultsAt_map (item : Ty R E) (entries : List (String × Json)) :
    S.faultsAt σ (.map item) (.obj entries) =
      (entries.map fun entry => (⟨.key entry.1, item, some entry.2⟩ : Part R E)).flatMap
        (S.partFaults σ) := by
  rw [faultsAt, decodeAt_eq_readAs, layer, readAs, faultsOf_map, faultsOf_readEntries]

theorem parts_listOfAny {t : Ty R E} (ht : t.core = .listOfAny) (items : List Json) :
    S.parts σ t (.arr items) = items.mapIdx fun i y => ⟨.index i, .any, some y⟩ := by
  unfold parts
  rw [ht]

theorem parts_list {t item : Ty R E} (ht : t.core = .list item) (items : List Json) :
    S.parts σ t (.arr items) = items.mapIdx fun i y => ⟨.index i, item, some y⟩ := by
  unfold parts
  rw [ht]

theorem parts_map {t item : Ty R E} (ht : t.core = .map item) (entries : List (String × Json)) :
    S.parts σ t (.obj entries) = entries.map fun entry => ⟨.key entry.1, item, some entry.2⟩ := by
  unfold parts
  rw [ht]

theorem parts_record {t : Ty R E} {r : R} (ht : t.recordOf? = some r)
    (entries : List (String × Json)) :
    S.parts σ t (.obj entries) = S.recordParts σ r entries := by
  obtain hcore | ⟨label, hcore⟩ := Ty.core_of_recordOf? ht
  · unfold parts
    rw [hcore]
  · unfold parts
    rw [hcore]

theorem listedFaults_readShown (entries : List (String × Json)) (f : Field R E) :
    listedFaults (S.readShown σ f (f.shown? σ entries)) =
      ((S.fieldPart? σ entries f).map (S.partFaults σ)).getD [] := by
  rw [fieldPart?]
  cases f.shown? σ entries with
  | some y => exact listedFaults_under _ _
  | none =>
    rw [readShown]
    cases S.defaultValue? f.default <;> rfl

theorem faultsOf_readFields {r : R} {fields : List (Field R E)} (hn : (fields.map (·.name)).Nodup)
    (entries : List (String × Json)) :
    faultsOf (S.readFields σ r fields
        (entries.map fun entry => (entry.1, S.readable σ entry.2))) =
          (S.fieldParts σ fields entries).flatMap (S.partFaults σ) ∨
      (S.fieldParts σ fields entries).flatMap (S.partFaults σ) = [] ∧
        ∃ values, S.FieldsRead σ entries fields values ∧
          faultsOf (S.readFields σ r fields
            (entries.map fun entry => (entry.1, S.readable σ entry.2))) =
              faultsOf (S.built σ r values) := by
  rw [readFields_eq, fieldParts]
  by_cases habsent : absentLiterals fields entries = []
  · rw [if_pos habsent, if_pos habsent]
    have hfaults : listedFaults (collect (fields.map (S.readField (shownEntries σ fields
        (entries.map fun entry => (entry.1, S.readable σ entry.2)))))) =
          (fields.filterMap (S.fieldPart? σ entries)).flatMap (S.partFaults σ) := by
      rw [listedFaults_collect, List.flatMap_map, flatMap_filterMap]
      refine List.flatMap_congr fun f hf => ?_
      rw [readField_shownEntries hn hf, listedFaults_readShown]
    rw [← hfaults]
    cases hcollect : collect (fields.map (S.readField (shownEntries σ fields
      (entries.map fun entry => (entry.1, S.readable σ entry.2))))) with
    | ok values => exact .inr ⟨rfl, values, (collect_readField_eq_ok_iff hn).1 hcollect, rfl⟩
    | error faults => exact .inl rfl
  · rw [if_neg habsent, if_neg habsent, List.flatMap_map]
    exact .inl List.map_eq_flatMap

end Schema

namespace Protocol

variable {σ : Surface}

open Schema

theorem failsAtTop_str (x : Json) : FailsAtTop (schema.decodeAt σ .str x) := by
  rw [decodeAt_eq_readAs]
  unfold readAs
  split
  · exact .ok _
  · exact .here (by simp)

theorem opensRecord_messageActionItem {entries : List (String × Json)} :
    schema.OpensRecord σ .messageActionItem entries ↔
      ∃ d v, entries.lookup "title" = some d ∧ schema.decodeAt σ .str d = .ok v :=
  Iff.rfl

theorem failsAtTop_messageActionItem {x : Json}
    (h : ∀ entries, x = .obj entries → ¬schema.OpensRecord σ .messageActionItem entries) :
    FailsAtTop (schema.decodeAt σ (.record .messageActionItem) x) := by
  rw [decodeAt_eq_readAs, readAs]
  unfold readRecord
  simp only [form_messageActionItem]
  cases x with
  | scalar s => exact .here (by simp)
  | arr items => exact .here (by simp)
  | obj entries =>
    simp only [layer, readSpread, Entries.lookup_map_value]
    cases hlookup : entries.lookup (Field.required "title" .str : Field RecordName EnumName).name with
    | none => exact .here (by simp)
    | some d =>
      refine FailsAtTop.bind (failsAtTop_str d) fun title htitle => ?_
      exact absurd (opensRecord_messageActionItem.2 ⟨d, title, hlookup, htitle⟩) (h entries rfl)

theorem failsAtTop_decodeAt_record {r : RecordName} {x : Json}
    (h : ∀ entries, x = .obj entries → ¬schema.OpensRecord σ r entries) :
    FailsAtTop (schema.decodeAt σ (.record r) x) := by
  cases hspread : (schema.record r).isSpread with
  | false => exact failsAtTop_record hspread h
  | true =>
    rw [isSpread_record, beq_iff_eq] at hspread
    subst hspread
    exact failsAtTop_messageActionItem h

/-- Data whose parts are not looked at has one fault at most, at its top. -/
theorem failsAtTop_decodeAt {t : DataType} {x : Json} (h : ¬schema.Opens σ t x) :
    FailsAtTop (schema.decodeAt σ t x) := by
  obtain hread | ⟨-, hread⟩ := decodeAt_core (S := schema) (σ := σ) t x
  · rw [hread]
    cases ht : t.core with
    | any =>
      rw [decodeAt_any]
      exact .ok _
    | null =>
      rw [decodeAt_eq_readAs, readAs]
      split
      · exact .ok _
      · exact .here (by simp)
    | str => exact failsAtTop_str x
    | int =>
      rw [decodeAt_eq_readAs]
      unfold readAs
      split
      · exact .ok _
      · exact .here (by simp)
    | bool =>
      rw [decodeAt_eq_readAs]
      unfold readAs
      split
      · exact .ok _
      · exact .here (by simp)
    | float =>
      rw [decodeAt_eq_readAs]
      unfold readAs
      split
      · exact .ok _
      · split
        · exact .ok _
        · exact .tooLarge
      · exact .here (by simp)
    | listOfAny =>
      cases x with
      | arr items => exact absurd (.listOfAny ht items) h
      | scalar s => exact .here (by simp)
      | obj entries => exact .here (by simp)
    | unknown =>
      rw [decodeAt_eq_readAs]
      unfold readAs
      split
      · exact .ok _
      · exact .ok _
      · exact .here (by simp)
    | literal text =>
      rw [decodeAt_eq_readAs, readAs]
      split
      · exact .ok _
      · exact .here (by simp)
    | enumeration e =>
      rw [decodeAt_eq_readAs, readAs]
      exact failsAtTop_readEnumeration e _
    | record r =>
      refine failsAtTop_decodeAt_record fun entries hx hopens => h ?_
      rw [hx]
      exact .record (by rw [Ty.recordOf?, ht]) hopens
    | list item =>
      cases x with
      | arr items => exact absurd (.list ht items) h
      | scalar s => exact .here (by simp)
      | obj entries => exact .here (by simp)
    | map item =>
      cases x with
      | obj entries => exact absurd (.map ht entries) h
      | scalar s => exact .here (by simp)
      | arr items => exact .here (by simp)
    | union ts => exact failsAtTop_union (Ty.ne_singleton_of_core ht) x
    | packed r =>
      rw [decodeAt_eq_readAs, readAs, readPacked]
      cases readTokens r (schema.layer σ x) with
      | ok v => exact .ok v
      | error fault => exact .here (by simp)
    | recordOrFlag r label =>
      have hrecord : FailsAtTop (schema.readRecord σ r (schema.layer σ x)) := by
        rw [← readAs, ← decodeAt_eq_readAs]
        refine failsAtTop_decodeAt_record fun entries hx hopens => h ?_
        rw [hx]
        exact .record (by rw [Ty.recordOf?, ht]) hopens
      rw [decodeAt_eq_readAs, readAs]
      unfold readRecordOrFlag
      split
      · exact .ok _
      · exact .ok _
      · exact .ok _
      · exact hrecord
      · exact .here (by simp)
  · rw [hread]
    exact .ok _

/-! ## Records of the protocol -/

/-- Only the numbers of a token have a range. -/
theorem checks_of_ne_token (r : RecordName) :
    (r == .semanticHighlightingToken ||
      (schema.record r).fields.all fun f => f.checks.all (· = .stable)) = true := by
  cases r <;> rfl

theorem checkField_of_stable {f : Field RecordName EnumName} (h : ∀ c ∈ f.checks, c = .stable)
    (record : String) (v : Datum) : schema.checkField true record f v = .ok () := by
  refine checkField_eq_ok_iff.2 ⟨fun _ _ => rfl, fun c hc => ?_⟩
  rw [h c hc]
  cases v <;> simp [Check.run]

theorem faultsOf_built {r : RecordName} {entries : List (String × Json)} {values : List Datum}
    (hadmits : σ.admits (schema.record r).tag = true)
    (h : schema.FieldsRead σ entries (schema.record r).fields values) :
    faultsOf (schema.built σ r values) = [] ∨
      r = .semanticHighlightingToken ∧ faultsOf (schema.built σ r values) = [.here .refused] := by
  rw [built, gate_of_admits hadmits]
  cases hchecks : schema.checkFields σ.proposed r values with
  | ok _ => exact .inl rfl
  | error refusal =>
    have hr : r = .semanticHighlightingToken := by
      by_contra hne
      have hstable := checks_of_ne_token r
      rw [beq_eq_false_iff_ne.2 hne, Bool.false_or, List.all_eq_true] at hstable
      rw [checkFields_of_fieldsRead h (List.forall₂_iff_zip.2 ⟨h.length_eq, fun hp _ => ?_⟩)]
        at hchecks
      · cases hchecks
      · refine checkField_of_stable (fun c hc => ?_) _ _
        have hall := List.all_eq_true.1 (hstable _ (List.of_mem_zip hp).1) c hc
        exact of_decide_eq_true hall
    cases refusal with
    | disabled what => exact absurd hchecks (checkFields_ne_disabled h what)
    | _ => exact .inr ⟨hr, rfl⟩

theorem recordParts_messageActionItem (entries : List (String × Json)) :
    schema.recordParts σ .messageActionItem entries =
      if σ.admits (some (.since 16 true)) then
        (otherEntries (Field.required "title" .str : Field RecordName EnumName) entries).map
          fun entry => ⟨.key entry.1, messageActionItemProperty, some entry.2⟩
      else [] :=
  rfl

theorem faultsOf_built_messageActionItem {title rest : Datum}
    (h : rest.isNull = false → σ.admits (some (.since 16 true)) = true) :
    faultsOf (schema.built σ .messageActionItem [title, rest]) = [] := by
  have hgate : schema.gate σ.proposed .messageActionItem = .ok () := rfl
  rw [built, hgate, checkFields_messageActionItem h]
  rfl

theorem faultsAt_messageActionItem {entries : List (String × Json)}
    (h : schema.OpensRecord σ .messageActionItem entries) :
    schema.faultsAt σ (.record .messageActionItem) (.obj entries) =
      (schema.recordParts σ .messageActionItem entries).flatMap (schema.partFaults σ) := by
  obtain ⟨d, title, hd, htitle⟩ := opensRecord_messageActionItem.1 h
  have hlookup : entries.lookup (Field.required "title" .str : Field RecordName EnumName).name =
      some d := hd
  have hread : (schema.readable σ d).readAs .str = .ok title := htitle
  rw [faultsAt, decodeAt_eq_readAs, readAs, recordParts_messageActionItem]
  unfold readRecord
  simp only [form_messageActionItem, layer, readSpread, Entries.lookup_map_value, hlookup,
    Option.map_some]
  have htype : (Field.required "title" .str : Field RecordName EnumName).ty = .str := rfl
  rw [htype, hread]
  simp only [bind, Except.bind, List.filter_map]
  have hextra : entries.filter ((fun entry : String × Readable RecordName EnumName =>
      decide (entry.1 ≠ (Field.required "title" .str : Field RecordName EnumName).name)) ∘
        fun entry => (entry.1, schema.readable σ entry.2)) =
      otherEntries (Field.required "title" .str : Field RecordName EnumName) entries := rfl
  rw [hextra, List.isEmpty_map]
  generalize otherEntries (Field.required "title" .str : Field RecordName EnumName) entries = extra
  split
  · rename_i hunread
    rw [faultsOf_built_messageActionItem fun hnull => by cases hnull]
    cases hadmits : σ.admits (some (.since 16 true)) with
    | false => rfl
    | true =>
      rw [hadmits, Bool.not_true, Bool.or_false, List.isEmpty_iff] at hunread
      rw [hunread]
      rfl
  · rename_i hread
    rw [Bool.or_eq_true, not_or, Bool.not_eq_true', Bool.not_eq_false] at hread
    rw [if_pos hread.2, ← faultsOf_readEntries]
    cases readEntries messageActionItemProperty
        (extra.map fun entry => (entry.1, schema.readable σ entry.2)) with
    | ok values => exact faultsOf_built_messageActionItem fun _ => hread.2
    | error failure => rfl

theorem recordParts_of_not_spread {r : RecordName} (h : (schema.record r).isSpread = false)
    (entries : List (String × Json)) :
    schema.recordParts σ r entries = schema.fieldParts σ (schema.record r).fields entries := by
  rw [RecordDecl.isSpread] at h
  unfold recordParts
  cases hform : (schema.record r).form with
  | spread key rest tag item =>
    rw [hform] at h
    cases h
  | _ => rfl

theorem opensRecord_of_not_spread {r : RecordName} (h : (schema.record r).isSpread = false)
    (entries : List (String × Json)) :
    schema.OpensRecord σ r entries ↔ σ.admits (schema.record r).tag = true := by
  rw [RecordDecl.isSpread] at h
  unfold OpensRecord
  cases hform : (schema.record r).form with
  | spread key rest tag item =>
    rw [hform] at h
    cases h
  | _ => rfl

/-- The faults of an object whose fields or entries are looked at are those of its parts, or its
constructor refuses the numbers of a token. -/
theorem faultsAt_record {r : RecordName} {entries : List (String × Json)}
    (h : schema.OpensRecord σ r entries) :
    schema.faultsAt σ (.record r) (.obj entries) =
        (schema.recordParts σ r entries).flatMap (schema.partFaults σ) ∨
      (schema.recordParts σ r entries).flatMap (schema.partFaults σ) = [] ∧
        r = .semanticHighlightingToken ∧
        schema.faultsAt σ (.record r) (.obj entries) = [.here .refused] := by
  cases hspread : (schema.record r).isSpread with
  | true =>
    rw [isSpread_record, beq_iff_eq] at hspread
    subst hspread
    exact .inl (faultsAt_messageActionItem h)
  | false =>
    have hadmits := (opensRecord_of_not_spread hspread entries).1 h
    have hread : schema.faultsAt σ (.record r) (.obj entries) =
        faultsOf (schema.readFields σ r (schema.record r).fields
          (entries.map fun entry => (entry.1, schema.readable σ entry.2))) := by
      rw [faultsAt, decodeAt_record hspread, (available_tag_eq_ok_iff ..).2 hadmits]
      rfl
    rw [hread, recordParts_of_not_spread hspread]
    obtain hparts | ⟨hnone, values, hvalues, hbuilt⟩ :=
      faultsOf_readFields (S := schema) (σ := σ) (r := r) (nodup_names r) entries
    · exact .inl hparts
    · rw [hnone, hbuilt]
      obtain hok | ⟨hr, hrefused⟩ := faultsOf_built hadmits hvalues
      · exact .inl hok
      · exact .inr ⟨rfl, hr, hrefused⟩

/-! ## Data by its parts -/

theorem decodeAt_recordOrFlag_obj (r : RecordName) (label : String)
    (entries : List (String × Json)) :
    schema.decodeAt σ (.recordOrFlag r label) (.obj entries) =
      schema.decodeAt σ (.record r) (.obj entries) := by
  rw [decodeAt_eq_readAs, decodeAt_eq_readAs, readAs, readAs]
  rfl

theorem faultsAt_of_opens {t : DataType} {x : Json} (h : schema.Opens σ t x) :
    schema.faultsAt σ t x = (schema.parts σ t x).flatMap (schema.partFaults σ) ∨
      (schema.parts σ t x).flatMap (schema.partFaults σ) = [] ∧
        t.recordOf? = some .semanticHighlightingToken ∧
        schema.faultsAt σ t x = [.here .refused] := by
  have hcore : schema.faultsAt σ t x = schema.faultsAt σ t.core x := by
    obtain hread | ⟨rfl, -⟩ := decodeAt_core (S := schema) (σ := σ) t x
    · rw [faultsAt, hread, faultsAt]
    · cases h
  rw [hcore]
  cases h with
  | listOfAny ht items =>
    rw [ht, parts_listOfAny ht, faultsAt, decodeAt_listOfAny]
    exact .inl (faultsAt_list .any items)
  | list ht items =>
    rw [ht, parts_list ht]
    exact .inl (faultsAt_list _ items)
  | map ht entries =>
    rw [ht, parts_map ht]
    exact .inl (faultsAt_map _ entries)
  | @record r entries ht h =>
    have hread : schema.faultsAt σ t.core (.obj entries) =
        schema.faultsAt σ (.record r) (.obj entries) := by
      obtain hcore | ⟨label, hcore⟩ := Ty.core_of_recordOf? ht
      · rw [hcore]
      · rw [hcore, faultsAt, decodeAt_recordOrFlag_obj, faultsAt]
    rw [hread, parts_record ht, ht, Option.some.injEq]
    exact faultsAt_record h

end Protocol

end LspWire
