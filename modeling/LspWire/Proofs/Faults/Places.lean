import LspWire.Proofs.Faults.Parts

/-!
# Places of faults

The path of a fault leads through the data: every step goes to an item or an entry that is there, and
only that to a missing field goes one step further, from an object that has no such key. No fault is
at a place on the way to another one or at the same place, and none is below a choice between
alternatives.
-/

namespace LspWire

variable {R E : Type}

/-! ## Paths -/

/-- The key or the index that a step leads to. -/
def PathStep.target : PathStep → String ⊕ Nat
  | .field name => .inl name
  | .key k => .inl k
  | .index i => .inr i

namespace Json

/-- What stands one step further down in data. -/
def step? : Json → PathStep → Option Json
  | .arr items, .index i => items[i]?
  | .obj entries, .field name => entries.lookup name
  | .obj entries, .key key => entries.lookup key
  | _, _ => none

/-- What stands at a place in data. -/
def at? : Json → List PathStep → Option Json
  | x, [] => some x
  | x, step :: path => (x.step? step).bind fun y => at? y path

/-- Data whose objects have no key twice. -/
inductive HasDistinctKeys : Json → Prop where
  | scalar (s : Scalar) : HasDistinctKeys (.scalar s)
  | arr {items : List Json} (h : ∀ x ∈ items, HasDistinctKeys x) : HasDistinctKeys (.arr items)
  | obj {entries : List (String × Json)} (hkeys : (entries.map Prod.fst).Nodup)
    (h : ∀ entry ∈ entries, HasDistinctKeys entry.2) : HasDistinctKeys (.obj entries)

theorem HasDistinctKeys.of_mem_parts {x y : Json} (h : HasDistinctKeys x) (hy : y ∈ x.parts) :
    HasDistinctKeys y := by
  cases h with
  | scalar s => cases hy
  | arr h => exact h y hy
  | obj hkeys h =>
    obtain ⟨entry, hentry, rfl⟩ := List.mem_map.1 hy
    exact h entry hentry

theorem HasDistinctKeys.nodup_keys {entries : List (String × Json)}
    (h : HasDistinctKeys (.obj entries)) : (entries.map Prod.fst).Nodup := by
  cases h with
  | obj hkeys _ => exact hkeys

end Json

/-- Places that are different and not on the way to each other. -/
def Apart (p q : List PathStep) : Prop :=
  ¬p.map PathStep.target <+: q.map PathStep.target ∧ ¬q.map PathStep.target <+: p.map PathStep.target

theorem apart_of_target_ne {s t : PathStep} (h : s.target ≠ t.target) (p q : List PathStep) :
    Apart (s :: p) (t :: q) := by
  constructor
  · rw [List.map_cons, List.map_cons, List.cons_prefix_cons]
    exact fun hprefix => h hprefix.1
  · rw [List.map_cons, List.map_cons, List.cons_prefix_cons]
    exact fun hprefix => h hprefix.1.symm

theorem Apart.cons {p q : List PathStep} (h : Apart p q) (s : PathStep) : Apart (s :: p) (s :: q) := by
  constructor
  · rw [List.map_cons, List.map_cons, List.cons_prefix_cons]
    exact fun hprefix => h.1 hprefix.2
  · rw [List.map_cons, List.map_cons, List.cons_prefix_cons]
    exact fun hprefix => h.2 hprefix.2

namespace Schema

variable {S : Schema R E} {σ : Surface}

/-! ## Parts and their places -/

theorem isChoice_of_partType? {t u : Ty R E} {step : PathStep} (h : S.partType? σ t step = some u) :
    t.isChoice = false := by
  unfold partType? at h
  rw [Ty.isChoice]
  cases ht : t.core with
  | union ts =>
    rw [ht] at h
    cases h
  | _ => rfl

/-- A part has a place in data: the data that stands there, or a key that an object does not have. -/
structure HasPlace (S : Schema R E) (σ : Surface) (t : Ty R E) (x : Json) (p : Part R E) : Prop where
  type : S.partType? σ t p.step = some p.ty
  data : ∀ y, p.data? = some y → x.step? p.step = some y ∧ y ∈ x.parts
  missing : p.data? = none →
    ∃ name entries, p.step = .field name ∧ x = .obj entries ∧ entries.lookup name = none

theorem HasPlace.exists_target {t : Ty R E} {entries : List (String × Json)} {p : Part R E}
    (h : S.HasPlace σ t (.obj entries) p) : ∃ k, p.step.target = .inl k := by
  obtain ⟨step, u, data?⟩ := p
  cases step with
  | field name => exact ⟨name, rfl⟩
  | key key => exact ⟨key, rfl⟩
  | index i =>
    cases data? with
    | some y => cases (h.data y rfl).1
    | none =>
      obtain ⟨_, _, hstep, -⟩ := h.missing rfl
      cases hstep

theorem HasPlace.lookup_target {t : Ty R E} {entries : List (String × Json)} {p : Part R E}
    (h : S.HasPlace σ t (.obj entries) p) {k : String} (htarget : p.step.target = .inl k) :
    entries.lookup k = p.data? := by
  obtain ⟨step, u, data?⟩ := p
  cases data? with
  | some y =>
    obtain ⟨hstep, -⟩ := h.data y rfl
    cases step with
    | field name =>
      cases htarget
      exact hstep
    | key key =>
      cases htarget
      exact hstep
    | index i => cases htarget
  | none =>
    obtain ⟨name, _, rfl, hx, hlookup⟩ := h.missing rfl
    cases htarget
    cases hx
    exact hlookup

theorem hasPlace_item {t item : Ty R E} {items : List Json} {p : Part R E}
    (htype : ∀ i, S.partType? σ t (.index i) = some item)
    (h : p ∈ items.mapIdx fun i y => (⟨.index i, item, some y⟩ : Part R E)) :
    S.HasPlace σ t (.arr items) p := by
  obtain ⟨i, hi, rfl⟩ := List.mem_mapIdx.1 h
  refine ⟨htype i, fun y hy => ?_, nofun⟩
  cases hy
  exact ⟨List.getElem?_eq_getElem hi, List.getElem_mem hi⟩

theorem hasPlace_entry {t item : Ty R E} {entries kept : List (String × Json)} {p : Part R E}
    (hkeys : (entries.map Prod.fst).Nodup) (hsub : kept ⊆ entries)
    (htype : ∀ entry ∈ kept, S.partType? σ t (.key entry.1) = some item)
    (h : p ∈ kept.map fun entry => (⟨.key entry.1, item, some entry.2⟩ : Part R E)) :
    S.HasPlace σ t (.obj entries) p := by
  obtain ⟨entry, hentry, rfl⟩ := List.mem_map.1 h
  refine ⟨htype entry hentry, fun y hy => ?_, nofun⟩
  cases hy
  exact ⟨Entries.lookup_of_mem hkeys (hsub hentry), List.mem_map_of_mem (hsub hentry)⟩

theorem partType?_list {t item : Ty R E} (ht : t.core = .list item) (i : Nat) :
    S.partType? σ t (.index i) = some item := by
  unfold partType?
  rw [ht]

theorem partType?_listOfAny {t : Ty R E} (ht : t.core = .listOfAny) (i : Nat) :
    S.partType? σ t (.index i) = some .any := by
  unfold partType?
  rw [ht]

theorem partType?_map {t item : Ty R E} (ht : t.core = .map item) (key : String) :
    S.partType? σ t (.key key) = some item := by
  unfold partType?
  rw [ht]

theorem partType?_of_recordOf? {t : Ty R E} {r : R} (ht : t.recordOf? = some r) (step : PathStep) :
    S.partType? σ t step = S.recordPart? σ r step := by
  obtain hcore | ⟨label, hcore⟩ := Ty.core_of_recordOf? ht
  · unfold partType?
    rw [hcore]
  · unfold partType?
    rw [hcore]

theorem recordPart?_field {r : R} (hspread : (S.record r).isSpread = false)
    (hn : ((S.record r).fields.map (·.name)).Nodup) {f : Field R E}
    (hf : f ∈ (S.record r).fields) (hvisible : f.isVisible σ = true) :
    S.recordPart? σ r (.field f.name) = some f.ty := by
  have hfind : (S.record r).fields.find? (fun g => g.name = f.name && g.isVisible σ) = some f := by
    obtain ⟨g, hg⟩ := Option.isSome_iff_exists.1 (List.find?_isSome.2
      ⟨f, hf, by simp [hvisible]⟩ :
        ((S.record r).fields.find? fun g => g.name = f.name && g.isVisible σ).isSome)
    have hname := List.find?_some hg
    rw [Bool.and_eq_true, decide_eq_true_iff] at hname
    rw [hg, Field.eq_of_name_eq hn (List.mem_of_find?_eq_some hg) hf hname.1]
  rw [RecordDecl.isSpread] at hspread
  unfold recordPart?
  cases hform : (S.record r).form with
  | spread key rest tag item =>
    rw [hform] at hspread
    cases hspread
  | _ => simp only [hfind, Option.map_some]

end Schema

namespace Protocol

variable {σ : Surface}

open Schema

theorem isVisible_of_required {r : RecordName} {f : Field RecordName EnumName}
    (hf : f ∈ (schema.record r).fields) (h : schema.defaultValue? f.default = none) :
    f.isVisible σ = true := by
  refine isVisible_of_not_omittable hf ?_ σ
  rw [Field.isOmittable]
  cases hd : f.default with
  | null =>
    rw [hd] at h
    cases h
  | _ => rfl

theorem hasPlace_fieldPart {r : RecordName} (hspread : (schema.record r).isSpread = false)
    {t : DataType} (ht : t.recordOf? = some r) {entries : List (String × Json)}
    {p : Part RecordName EnumName}
    (h : p ∈ schema.fieldParts σ (schema.record r).fields entries) :
    schema.HasPlace σ t (.obj entries) p := by
  have htype {f : Field RecordName EnumName} (hf : f ∈ (schema.record r).fields)
      (hvisible : f.isVisible σ = true) : schema.partType? σ t (.field f.name) = some f.ty := by
    rw [partType?_of_recordOf? ht]
    exact recordPart?_field hspread (nodup_names r) hf hvisible
  rw [fieldParts] at h
  split at h
  · obtain ⟨f, hf, hp⟩ := List.mem_filterMap.1 h
    rw [fieldPart?] at hp
    cases hx : f.shown? σ entries with
    | some y =>
      rw [hx] at hp
      cases hp
      refine ⟨htype hf (Field.isVisible_of_shown? hx), fun y' hy => ?_, fun h => by cases h⟩
      cases hy
      have hlookup := Field.lookup_of_shown? hx
      exact ⟨hlookup, List.mem_map.2 ⟨_, Entries.mem_of_lookup hlookup, rfl⟩⟩
    | none =>
      rw [hx] at hp
      cases hdefault : schema.defaultValue? f.default with
      | some v =>
        rw [hdefault] at hp
        cases hp
      | none =>
        rw [hdefault] at hp
        cases hp
        have hvisible := isVisible_of_required (σ := σ) hf hdefault
        rw [Field.shown?, if_pos hvisible] at hx
        exact ⟨htype hf hvisible, (fun _ h => by cases h), fun _ => ⟨f.name, entries, rfl, rfl, hx⟩⟩
  · obtain ⟨f, hf, rfl⟩ := List.mem_map.1 h
    rw [absentLiterals, List.mem_filter, Bool.and_eq_true, Option.isNone_iff_eq_none] at hf
    obtain ⟨hf, hliteral, hlookup⟩ := hf
    have hvisible := isVisible_of_not_omittable hf (isOmittable_of_isLiteral hf hliteral) σ
    exact ⟨htype hf hvisible, (fun _ h => by cases h), fun _ => ⟨f.name, entries, rfl, rfl, hlookup⟩⟩

theorem recordPart?_messageActionItem {key : String} (hkey : key ≠ "title")
    (hadmits : σ.admits (some (.since 16 true)) = true) :
    schema.recordPart? σ .messageActionItem (.key key) = some messageActionItemProperty :=
  if_pos ⟨hkey, hadmits⟩

theorem hasPlace_recordPart {r : RecordName} {t : DataType} (ht : t.recordOf? = some r)
    {entries : List (String × Json)} (hkeys : (entries.map Prod.fst).Nodup)
    {p : Part RecordName EnumName} (h : p ∈ schema.recordParts σ r entries) :
    schema.HasPlace σ t (.obj entries) p := by
  cases hspread : (schema.record r).isSpread with
  | false =>
    rw [recordParts_of_not_spread hspread] at h
    exact hasPlace_fieldPart hspread ht h
  | true =>
    rw [isSpread_record, beq_iff_eq] at hspread
    subst hspread
    rw [recordParts_messageActionItem] at h
    split at h
    · rename_i hadmits
      refine hasPlace_entry hkeys (List.filter_subset_self _) (fun entry hentry => ?_) h
      rw [partType?_of_recordOf? ht]
      have hne := (List.mem_filter.1 hentry).2
      exact recordPart?_messageActionItem (of_decide_eq_true hne) hadmits
    · cases h

theorem hasPlace_of_mem_parts {t : DataType} {x : Json} (hx : x.HasDistinctKeys)
    (hopens : schema.Opens σ t x) {p : Part RecordName EnumName} (h : p ∈ schema.parts σ t x) :
    schema.HasPlace σ t x p := by
  cases hopens with
  | listOfAny ht items =>
    rw [parts_listOfAny ht] at h
    exact hasPlace_item (partType?_listOfAny ht) h
  | list ht items =>
    rw [parts_list ht] at h
    exact hasPlace_item (partType?_list ht) h
  | map ht entries =>
    rw [parts_map ht] at h
    exact hasPlace_entry hx.nodup_keys (List.Subset.refl _) (fun entry _ => partType?_map ht entry.1) h
  | record ht hopens =>
    rw [parts_record ht] at h
    exact hasPlace_recordPart ht hx.nodup_keys h

/-! ## The way to a fault -/

theorem mem_partFaults {p : Part RecordName EnumName} {fault : Fault}
    (h : fault ∈ schema.partFaults σ p) :
    (p.data? = none ∧ fault = ⟨[p.step], .missing⟩) ∨
      ∃ y below, p.data? = some y ∧ below ∈ schema.faultsAt σ p.ty y ∧ fault = below.under p.step := by
  rw [partFaults] at h
  cases hdata : p.data? with
  | none =>
    rw [hdata] at h
    exact .inl ⟨rfl, List.mem_singleton.1 h⟩
  | some y =>
    rw [hdata] at h
    obtain ⟨below, hbelow, rfl⟩ := List.mem_map.1 h
    exact .inr ⟨y, below, rfl, hbelow, rfl⟩

theorem mem_faultsAt {t : DataType} {x : Json} {fault : Fault} (h : fault ∈ schema.faultsAt σ t x) :
    (∃ cause, cause ≠ .missing ∧ fault = .here cause) ∨
      schema.Opens σ t x ∧ ∃ p ∈ schema.parts σ t x, fault ∈ schema.partFaults σ p := by
  by_cases hopens : schema.Opens σ t x
  · obtain hparts | ⟨-, -, hrefused⟩ := faultsAt_of_opens hopens
    · rw [hparts] at h
      exact .inr ⟨hopens, List.mem_flatMap.1 h⟩
    · rw [hrefused] at h
      exact .inl ⟨.refused, nofun, List.mem_singleton.1 h⟩
  · obtain hnone | ⟨cause, hcause, hfaults⟩ := failsAtTop_decodeAt hopens
    · rw [faultsAt, hnone] at h
      cases h
    · rw [faultsAt, hfaults] at h
      exact .inl ⟨cause, hcause, List.mem_singleton.1 h⟩

/-- The way to a fault of data: it is at the top, or at a key that the data does not have, or the way
leads through a part that has the fault. -/
inductive Reaches (σ : Surface) : DataType → Json → Fault → Prop where
  | here {t : DataType} {x : Json} {cause : Cause} (hcause : cause ≠ .missing) :
    Reaches σ t x (.here cause)
  | missing {t u : DataType} {entries : List (String × Json)} {name : String}
    (htype : schema.partType? σ t (.field name) = some u) (hlookup : entries.lookup name = none) :
    Reaches σ t (.obj entries) ⟨[.field name], .missing⟩
  | under {t u : DataType} {x y : Json} {step : PathStep} {fault : Fault}
    (htype : schema.partType? σ t step = some u) (hdata : x.step? step = some y)
    (hmem : fault ∈ schema.faultsAt σ u y) (h : Reaches σ u y fault) :
    Reaches σ t x (fault.under step)

theorem reaches_of_mem {t : DataType} {x : Json} (hx : x.HasDistinctKeys) {fault : Fault}
    (h : fault ∈ schema.faultsAt σ t x) : Reaches σ t x fault := by
  induction x using Json.partsInduction generalizing t fault with
  | step x ih =>
    obtain ⟨cause, hcause, rfl⟩ | ⟨hopens, p, hp, hfault⟩ := mem_faultsAt h
    · exact .here hcause
    · have hplace := hasPlace_of_mem_parts hx hopens hp
      obtain ⟨hdata, rfl⟩ | ⟨y, below, hdata, hbelow, rfl⟩ := mem_partFaults hfault
      · obtain ⟨name, entries, hstep, rfl, hlookup⟩ := hplace.missing hdata
        rw [hstep]
        exact .missing (hstep ▸ hplace.type) hlookup
      · obtain ⟨hstep, hpart⟩ := hplace.data y hdata
        exact .under hplace.type hstep hbelow (ih y hpart (hx.of_mem_parts hpart) hbelow)

namespace Reaches

variable {t : DataType} {x : Json} {fault : Fault}

theorem exists_object (h : Reaches σ t x fault) (hcause : fault.cause = .missing) :
    ∃ path name entries, fault.path = path ++ [.field name] ∧ x.at? path = some (.obj entries) ∧
      entries.lookup name = none := by
  induction h with
  | here hne => exact absurd hcause hne
  | missing _ hlookup => exact ⟨[], _, _, rfl, rfl, hlookup⟩
  | @under t u x y step fault _ hdata _ _ ih =>
    obtain ⟨path, name, entries, hpath, hat, hlookup⟩ := ih hcause
    refine ⟨step :: path, name, entries, ?_, ?_, hlookup⟩
    · rw [Fault.path_under, hpath]
      rfl
    · rw [Json.at?, hdata]
      exact hat

/-- The place of a fault has a type. -/
theorem exists_type (h : Reaches σ t x fault) : ∃ u, schema.typeAt? σ t fault.path = some u := by
  induction h with
  | here _ => exact ⟨_, rfl⟩
  | @missing t u entries name htype _ => exact ⟨u, by rw [typeAt?, htype]; rfl⟩
  | @under t u x y step fault htype _ _ _ ih =>
    obtain ⟨w, hw⟩ := ih
    refine ⟨w, ?_⟩
    rw [Fault.path_under, typeAt?, htype]
    exact hw

/-- Data at the place of a fault or on the way to it has the rest of the way among its own faults,
unless a missing part is reached. Data on the way is not a choice between alternatives. -/
theorem exists_along (h : Reaches σ t x fault) (hmem : fault ∈ schema.faultsAt σ t x)
    {path rest : List PathStep} (hpath : fault.path = path ++ rest)
    (hrest : rest = [] → fault.cause ≠ .missing) :
    ∃ u y, schema.typeAt? σ t path = some u ∧ x.at? path = some y ∧
      ⟨rest, fault.cause⟩ ∈ schema.faultsAt σ u y ∧ (rest ≠ [] → u.isChoice = false) := by
  induction h generalizing path with
  | @here t x cause _ =>
    obtain ⟨rfl, rfl⟩ := List.append_eq_nil_iff.1 hpath.symm
    exact ⟨t, x, rfl, rfl, hmem, absurd rfl⟩
  | @missing t u entries name htype _ =>
    cases path with
    | nil =>
      cases hpath
      exact ⟨_, _, rfl, rfl, hmem, fun _ => isChoice_of_partType? htype⟩
    | cons first path =>
      have hnil : [] = path ++ rest := (List.cons.inj hpath).2
      exact absurd rfl (hrest (List.append_eq_nil_iff.1 hnil.symm).2)
  | @under t u x y first fault htype hdata hbelow _ ih =>
    cases path with
    | nil =>
      refine ⟨_, _, rfl, rfl, ?_, fun _ => isChoice_of_partType? htype⟩
      rw [List.nil_append] at hpath
      rw [← hpath]
      exact hmem
    | cons first' path =>
      rw [Fault.path_under, List.cons_append, List.cons.injEq] at hpath
      obtain ⟨rfl, hpath⟩ := hpath
      obtain ⟨w, z, hw, hz, hfault, hchoice⟩ := ih hbelow hpath hrest
      refine ⟨w, z, ?_, ?_, hfault, hchoice⟩
      · rw [typeAt?, htype]
        exact hw
      · rw [Json.at?, hdata]
        exact hz

end Reaches

/-! ## Distinct places -/

/-- Whether the parts stand at different places. -/
def StandApart (parts : List (Part RecordName EnumName)) : Prop :=
  (parts.map (·.step.target)).Nodup

theorem standApart_items (item : DataType) (items : List Json) :
    StandApart (items.mapIdx fun i y => ⟨.index i, item, some y⟩) := by
  rw [StandApart, map_mapIdx, List.nodup_iff_pairwise_ne, List.pairwise_iff_getElem]
  intro i j hi hj hij
  rw [List.getElem_mapIdx, List.getElem_mapIdx]
  exact fun h => Nat.ne_of_lt hij (Sum.inr.inj h)

theorem standApart_entries (item : DataType) {entries : List (String × Json)}
    (hkeys : (entries.map Prod.fst).Nodup) :
    StandApart (entries.map fun entry => ⟨.key entry.1, item, some entry.2⟩) := by
  have htargets : (entries.map fun entry =>
      (⟨.key entry.1, item, some entry.2⟩ : Part RecordName EnumName)).map (·.step.target) =
        (entries.map Prod.fst).map Sum.inl := by
    rw [List.map_map, List.map_map]
    rfl
  rw [StandApart, htargets]
  exact hkeys.map fun _ _ => Sum.inl.inj

theorem step_of_fieldPart? {entries : List (String × Json)} {f : Field RecordName EnumName}
    {p : Part RecordName EnumName} (h : schema.fieldPart? σ entries f = some p) :
    p.step = .field f.name := by
  unfold fieldPart? at h
  split at h
  · cases h
    rfl
  · split at h
    · cases h
    · cases h
      rfl

theorem standApart_fieldParts {fields : List (Field RecordName EnumName)}
    (hn : (fields.map (·.name)).Nodup) (entries : List (String × Json)) :
    StandApart (schema.fieldParts σ fields entries) := by
  rw [fieldParts, StandApart]
  split
  · rw [List.nodup_iff_pairwise_ne, List.pairwise_map, List.pairwise_filterMap]
    refine (List.pairwise_map.1 hn).imp fun {f g} hne p hp q hq h => hne ?_
    rw [step_of_fieldPart? hp, step_of_fieldPart? hq] at h
    exact Sum.inl.inj h
  · have htargets : ((absentLiterals fields entries).map fun f =>
        (⟨.field f.name, f.ty, none⟩ : Part RecordName EnumName)).map (·.step.target) =
          ((absentLiterals fields entries).map (·.name)).map Sum.inl := by
      rw [List.map_map, List.map_map]
      rfl
    rw [htargets]
    exact (hn.sublist (List.filter_sublist.map _)).map fun _ _ => Sum.inl.inj

theorem standApart_recordParts (r : RecordName) {entries : List (String × Json)}
    (hkeys : (entries.map Prod.fst).Nodup) : StandApart (schema.recordParts σ r entries) := by
  cases hspread : (schema.record r).isSpread with
  | false =>
    rw [recordParts_of_not_spread hspread]
    exact standApart_fieldParts (nodup_names r) entries
  | true =>
    rw [isSpread_record, beq_iff_eq] at hspread
    subst hspread
    rw [recordParts_messageActionItem]
    split
    · exact standApart_entries _ (hkeys.sublist (List.filter_sublist.map _))
    · exact List.nodup_nil

theorem standApart_parts {t : DataType} {x : Json} (hx : x.HasDistinctKeys)
    (hopens : schema.Opens σ t x) : StandApart (schema.parts σ t x) := by
  cases hopens with
  | listOfAny ht items =>
    rw [parts_listOfAny ht]
    exact standApart_items _ items
  | list ht items =>
    rw [parts_list ht]
    exact standApart_items _ items
  | map ht entries =>
    rw [parts_map ht]
    exact standApart_entries _ hx.nodup_keys
  | record ht _ =>
    rw [parts_record ht]
    exact standApart_recordParts _ hx.nodup_keys

theorem exists_path_of_mem_partFaults {p : Part RecordName EnumName} {fault : Fault}
    (h : fault ∈ schema.partFaults σ p) : ∃ path, fault.path = p.step :: path := by
  obtain ⟨-, rfl⟩ | ⟨y, below, -, -, rfl⟩ := mem_partFaults h
  · exact ⟨[], rfl⟩
  · exact ⟨below.path, rfl⟩

/-- The faults of parts at different places are apart if those of every part are. -/
theorem pairwise_flatMap_partFaults {parts : List (Part RecordName EnumName)}
    (hapart : StandApart parts)
    (h : ∀ p ∈ parts, (schema.partFaults σ p).Pairwise fun a b => Apart a.path b.path) :
    (parts.flatMap (schema.partFaults σ)).Pairwise fun a b => Apart a.path b.path := by
  rw [List.pairwise_flatMap]
  refine ⟨h, (List.pairwise_map.1 hapart).imp fun {p q} hne a ha b hb => ?_⟩
  obtain ⟨path, ha⟩ := exists_path_of_mem_partFaults ha
  obtain ⟨path', hb⟩ := exists_path_of_mem_partFaults hb
  rw [ha, hb]
  exact apart_of_target_ne hne _ _

/-- The faults of data are at places that are apart. -/
theorem pairwise_faultsAt {t : DataType} {x : Json} (hx : x.HasDistinctKeys) :
    (schema.faultsAt σ t x).Pairwise fun a b => Apart a.path b.path := by
  induction x using Json.partsInduction generalizing t with
  | step x ih =>
    by_cases hopens : schema.Opens σ t x
    · obtain hparts | ⟨-, -, hrefused⟩ := faultsAt_of_opens hopens
      · rw [hparts]
        refine pairwise_flatMap_partFaults (standApart_parts hx hopens) fun p hp => ?_
        rw [partFaults]
        cases hdata : p.data? with
        | none => exact List.pairwise_singleton _ _
        | some y =>
          obtain ⟨-, hpart⟩ := (hasPlace_of_mem_parts hx hopens hp).data y hdata
          rw [List.pairwise_map]
          exact (ih y hpart (hx.of_mem_parts hpart)).imp fun happart => happart.cons p.step
      · rw [hrefused]
        exact List.pairwise_singleton _ _
    · obtain hnone | ⟨cause, -, hfaults⟩ := failsAtTop_decodeAt hopens
      · rw [faultsAt, hnone]
        exact .nil
      · rw [faultsAt, hfaults]
        exact List.pairwise_singleton _ _

/-! ## Decoding -/

theorem faultsAt_of_mismatch {enabled : Bool} {version? : Option SpecVersion} {t : DataType}
    {x : Json} {name : String} {faults : List Fault}
    (h : schema.decode enabled version? t x = .error (.mismatch (.type name faults))) :
    schema.faultsAt ⟨version?.getD (Surface.defaultVersion enabled), enabled⟩ t x = faults := by
  unfold decode at h
  dsimp only at h
  split at h
  · cases h
  · split at h
    · cases h
    · cases h
    · rename_i hread
      cases h
      rw [faultsAt, hread]
      rfl

/-- A list of one edit: its text is a number, and its range has no end and starts at no character
of a line that is a text. -/
def misshapenEdits : Json :=
  .arr [.obj [("newText", .int 1),
    ("range", .obj [("start", .obj [("line", .str "x")])])]]

/-- The faults of the edit, in the order of the fields. -/
def misshapenFaults : List Fault :=
  [⟨[.index 0, .field "range", .field "start", .field "line"], .primitiveExpected .int .str⟩,
    ⟨[.index 0, .field "range", .field "start", .field "character"], .missing⟩,
    ⟨[.index 0, .field "range", .field "end"], .missing⟩,
    ⟨[.index 0, .field "newText"], .primitiveExpected .str .int⟩]

theorem decode_misshapenEdits :
    schema.decode false none (.list (.record .textEdit)) misshapenEdits =
      .error (.mismatch (.type "List[TextEdit]" misshapenFaults)) :=
  rfl

theorem hasDistinctKeys_misshapenEdits : misshapenEdits.HasDistinctKeys := by
  refine .arr (List.forall_mem_singleton.2 (.obj (by decide) ?_))
  refine List.forall_mem_cons.2 ⟨.scalar _, List.forall_mem_singleton.2 (.obj (by decide) ?_)⟩
  refine List.forall_mem_singleton.2 (.obj (by decide) ?_)
  exact List.forall_mem_singleton.2 (.scalar _)

/-- The faults of a mismatch lead to data that has the fault itself, or one step further than an
object that has no such key if a part is missing. No fault is at the place of another one or on the
way to it, and the data on the way to a fault is nowhere a choice between alternatives. -/
theorem decode_faults_located {enabled : Bool} {version? : Option SpecVersion} {t : DataType}
    {x : Json} {name : String} {faults : List Fault} (hx : x.HasDistinctKeys)
    (h : schema.decode enabled version? t x = .error (.mismatch (.type name faults))) :
    (∀ fault ∈ faults,
      (fault.cause ≠ .missing → ∃ u y,
        schema.typeAt? ⟨version?.getD (Surface.defaultVersion enabled), enabled⟩ t fault.path =
            some u ∧
          x.at? fault.path = some y ∧
          .here fault.cause ∈
            schema.faultsAt ⟨version?.getD (Surface.defaultVersion enabled), enabled⟩ u y) ∧
      (fault.cause = .missing → ∃ path name entries u, fault.path = path ++ [.field name] ∧
        x.at? path = some (.obj entries) ∧ entries.lookup name = none ∧
        schema.typeAt? ⟨version?.getD (Surface.defaultVersion enabled), enabled⟩ t fault.path =
          some u) ∧
      ∀ path step rest, fault.path = path ++ step :: rest → ∃ u y,
        schema.typeAt? ⟨version?.getD (Surface.defaultVersion enabled), enabled⟩ t path = some u ∧
          x.at? path = some y ∧
          ⟨step :: rest, fault.cause⟩ ∈
            schema.faultsAt ⟨version?.getD (Surface.defaultVersion enabled), enabled⟩ u y ∧
          u.isChoice = false) ∧
    faults.Pairwise fun a b => Apart a.path b.path := by
  rw [← faultsAt_of_mismatch h]
  refine ⟨fun fault hfault => ?_, pairwise_faultsAt hx⟩
  have hreaches := reaches_of_mem hx hfault
  refine ⟨fun hcause => ?_, fun hcause => ?_, fun path step rest hpath => ?_⟩
  · obtain ⟨u, y, hu, hy, hmem, -⟩ :=
      hreaches.exists_along hfault (List.append_nil _).symm fun _ => hcause
    exact ⟨u, y, hu, hy, hmem⟩
  · obtain ⟨path, key, entries, hpath, hat, hlookup⟩ := hreaches.exists_object hcause
    obtain ⟨u, hu⟩ := hreaches.exists_type
    exact ⟨path, key, entries, u, hpath, hat, hlookup, hu⟩
  · obtain ⟨u, y, hu, hy, hmem, hchoice⟩ :=
      hreaches.exists_along hfault hpath fun hnil => absurd hnil (List.cons_ne_nil _ _)
    exact ⟨u, y, hu, hy, hmem, hchoice (List.cons_ne_nil _ _)⟩

/-- Two of the four faults are about data that is there, two about keys that objects do not have. -/
theorem decode_faults_located_misshapenEdits :
    misshapenEdits.HasDistinctKeys ∧
      schema.decode false none (.list (.record .textEdit)) misshapenEdits =
        .error (.mismatch (.type "List[TextEdit]" misshapenFaults)) ∧
      (∀ fault ∈ misshapenFaults, fault.cause ≠ .missing →
        ∃ y, misshapenEdits.at? fault.path = some y) ∧
      (∀ fault ∈ misshapenFaults, fault.cause = .missing → ∃ path name entries,
        fault.path = path ++ [.field name] ∧ misshapenEdits.at? path = some (.obj entries) ∧
          entries.lookup name = none) ∧
      misshapenFaults.Pairwise fun a b => Apart a.path b.path := by
  obtain ⟨hplaces, hapart⟩ :=
    decode_faults_located hasDistinctKeys_misshapenEdits decode_misshapenEdits
  refine ⟨hasDistinctKeys_misshapenEdits, decode_misshapenEdits, fun fault hfault hcause => ?_,
    fun fault hfault hcause => ?_, hapart⟩
  · obtain ⟨u, y, -, hy, -⟩ := (hplaces fault hfault).1 hcause
    exact ⟨y, hy⟩
  · obtain ⟨path, name, entries, u, hpath, hat, hlookup, -⟩ := (hplaces fault hfault).2.1 hcause
    exact ⟨path, name, entries, hpath, hat, hlookup⟩

end Protocol

end LspWire
