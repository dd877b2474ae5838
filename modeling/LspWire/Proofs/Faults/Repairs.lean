import LspWire.Proofs.Faults.Places

/-!
# Repairs

A repair puts other data at a place. The faults of data are complete: if the data at the place of
every fault is replaced by something that is read as the type of the place, nothing is left to
complain about but numbers of tokens that do not fit. For this the faults of the parts must not depend
on each other, and none may hide another one; a missing fixed text does, so there must be none.
-/

namespace LspWire

/-- Data to put at a place. -/
structure Repair where
  path : List PathStep
  data : Json

/-- The repairs of what is found under a key or index. -/
def repairsBelow (target : String ⊕ Nat) (repairs : List Repair) : List Repair :=
  repairs.filterMap fun repair =>
    match repair.path with
    | [] => none
    | step :: path => if step.target = target then some ⟨path, repair.data⟩ else none

theorem mem_repairsBelow_iff {target : String ⊕ Nat} {repairs : List Repair}
    {path : List PathStep} {y : Json} :
    ⟨path, y⟩ ∈ repairsBelow target repairs ↔
      ∃ step, step.target = target ∧ ⟨step :: path, y⟩ ∈ repairs := by
  rw [repairsBelow, List.mem_filterMap]
  constructor
  · rintro ⟨⟨path', y'⟩, hmem, h⟩
    cases path' with
    | nil => cases h
    | cons step path' =>
      dsimp only at h
      split at h
      · rename_i htarget
        cases h
        exact ⟨step, htarget, hmem⟩
      · cases h
  · rintro ⟨step, htarget, hmem⟩
    exact ⟨_, hmem, by simp [htarget]⟩

theorem repairsBelow_cons {target : String ⊕ Nat} (step : PathStep) (path : List PathStep) (y : Json)
    (repairs : List Repair) :
    repairsBelow target (⟨step :: path, y⟩ :: repairs) =
      if step.target = target then ⟨path, y⟩ :: repairsBelow target repairs
      else repairsBelow target repairs := by
  rw [repairsBelow, List.filterMap_cons]
  dsimp only
  by_cases h : step.target = target
  · rw [if_pos h, if_pos h]
    rfl
  · rw [if_neg h, if_neg h]
    rfl

namespace Json

/-- Data with other data at a place. A key that is missing is added. -/
def setAt : Json → List PathStep → Json → Json
  | _, [], y => y
  | .arr items, .index i :: path, y => .arr (items.modify i fun x => setAt x path y)
  | .obj entries, .field k :: path, y | .obj entries, .key k :: path, y =>
    .obj (put k (setAt ((entries.lookup k).getD .null) path y) entries)
  | x, _ :: _, _ => x

/-- Data after some repairs, one after the other. -/
def repaired (repairs : List Repair) (x : Json) : Json :=
  repairs.foldl (fun x repair => x.setAt repair.path repair.data) x

theorem repaired_of_nil {repairs : List Repair} (h : ∀ r ∈ repairs, r.path = [])
    (hne : repairs ≠ []) (x : Json) : ∃ r ∈ repairs, repaired repairs x = r.data := by
  induction repairs generalizing x with
  | nil => exact absurd rfl hne
  | cons r rs ih =>
    obtain ⟨path, y⟩ := r
    rw [List.forall_mem_cons] at h
    obtain ⟨rfl, hrs⟩ := h
    by_cases hlast : rs = []
    · rw [hlast]
      exact ⟨_, List.mem_cons_self, rfl⟩
    · obtain ⟨r, hr, hrepaired⟩ := ih hrs hlast y
      exact ⟨r, List.mem_cons_of_mem _ hr, hrepaired⟩

theorem repaired_arr {repairs : List Repair}
    (h : ∀ r ∈ repairs, ∃ i path, r.path = .index i :: path) (items : List Json) :
    repaired repairs (.arr items) =
      .arr (items.mapIdx fun i x => repaired (repairsBelow (.inr i) repairs) x) := by
  induction repairs generalizing items with
  | nil =>
    have hsame : (items.mapIdx fun _ x => x) = items := List.ext_getElem (by simp) (by simp)
    exact congrArg Json.arr hsame.symm
  | cons r rs ih =>
    rw [List.forall_mem_cons] at h
    obtain ⟨⟨i, path, hr⟩, hrs⟩ := h
    obtain ⟨path', y⟩ := r
    obtain rfl : path' = .index i :: path := hr
    have hstep : repaired (⟨.index i :: path, y⟩ :: rs) (.arr items) =
        repaired rs (.arr (items.modify i fun x => setAt x path y)) := rfl
    rw [hstep, ih hrs, Json.arr.injEq]
    refine List.ext_getElem (by simp) fun j hj hj' => ?_
    rw [List.getElem_mapIdx, List.getElem_mapIdx, List.getElem_modify, repairsBelow_cons,
      PathStep.target]
    by_cases hij : i = j
    · rw [if_pos hij, if_pos (congrArg Sum.inr hij)]
      rfl
    · rw [if_neg hij, if_neg fun heq => hij (Sum.inr.inj heq)]

/-- Every key of an object is repaired on its own. A new key is repaired from null. -/
theorem repaired_obj {repairs : List Repair}
    (h : ∀ r ∈ repairs, ∃ step path k, r.path = step :: path ∧ step.target = .inl k)
    (entries : List (String × Json)) :
    ∃ entries', repaired repairs (.obj entries) = .obj entries' ∧
      ((entries.map Prod.fst).Nodup → (entries'.map Prod.fst).Nodup) ∧
      ∀ k, entries'.lookup k =
        if repairsBelow (.inl k) repairs = [] then entries.lookup k
        else some (repaired (repairsBelow (.inl k) repairs) ((entries.lookup k).getD .null)) := by
  induction repairs generalizing entries with
  | nil => exact ⟨entries, rfl, id, fun k => rfl⟩
  | cons r rs ih =>
    rw [List.forall_mem_cons] at h
    obtain ⟨⟨step, path, key, hr, htarget⟩, hrs⟩ := h
    obtain ⟨path', y⟩ := r
    obtain rfl : path' = step :: path := hr
    have hstep : repaired (⟨step :: path, y⟩ :: rs) (.obj entries) =
        repaired rs (.obj (put key (setAt ((entries.lookup key).getD .null) path y) entries)) := by
      cases step with
      | field k =>
        cases htarget
        rfl
      | key k =>
        cases htarget
        rfl
      | index i => cases htarget
    obtain ⟨entries', hrepaired, hnodup, hlookup⟩ :=
      ih hrs (put key (setAt ((entries.lookup key).getD .null) path y) entries)
    refine ⟨entries', hstep.trans hrepaired, fun hkeys => hnodup ?_, fun k => ?_⟩
    · rw [map_fst_put]
      split
      · exact hkeys
      · rename_i hnew
        exact List.nodup_append.2 ⟨hkeys, List.nodup_singleton key, by
          rintro a ha b hb rfl
          exact hnew (List.mem_singleton.1 hb ▸ ha)⟩
    · rw [hlookup, Entries.lookup_put, repairsBelow_cons, htarget]
      by_cases hk : k = key
      · subst hk
        rw [if_pos rfl, if_pos rfl, if_neg (List.cons_ne_nil _ _)]
        by_cases hlast : repairsBelow (.inl k) rs = []
        · rw [if_pos hlast, hlast]
          rfl
        · rw [if_neg hlast]
          rfl
      · rw [if_neg hk, if_neg fun heq => hk (Sum.inl.inj heq).symm]

end Json

namespace Protocol

variable {σ : Surface} {t : DataType} {x : Json} {repairs : List Repair}

open Schema

/-- Repairs that go with data: there is one for every fault and none elsewhere, and each puts data
that is read as the type of its place. No fixed text is missing. -/
structure Mends (σ : Surface) (t : DataType) (x : Json) (repairs : List Repair) : Prop where
  covers : ∀ fault ∈ schema.faultsAt σ t x, ∃ y, ⟨fault.path, y⟩ ∈ repairs
  places : ∀ r ∈ repairs, ∃ fault ∈ schema.faultsAt σ t x, fault.path = r.path
  reads : ∀ r ∈ repairs, ∃ u v, schema.typeAt? σ t r.path = some u ∧
    schema.decodeAt σ u r.data = .ok v
  texts : ∀ fault ∈ schema.faultsAt σ t x, fault.cause = .missing →
    ∀ text, schema.typeAt? σ t fault.path ≠ some (.literal text)

/-- Faults of tokens with numbers that do not fit. -/
def IsOfToken (σ : Surface) (t : DataType) (fault : Fault) : Prop :=
  fault.cause = .refused ∧
    (schema.typeAt? σ t fault.path).bind Ty.recordOf? = some .semanticHighlightingToken

theorem IsOfToken.under {u : DataType} {step : PathStep} {fault : Fault}
    (htype : schema.partType? σ t step = some u) (h : IsOfToken σ u fault) :
    IsOfToken σ t (fault.under step) := by
  refine ⟨h.1, ?_⟩
  rw [Fault.path_under, typeAt?, htype]
  exact h.2

/-! ## Faults at the top -/

theorem faultsAt_eq_nil {u : DataType} {y : Json} {v : Datum}
    (h : schema.decodeAt σ u y = .ok v) : schema.faultsAt σ u y = [] := by
  rw [faultsAt, h]
  rfl

theorem Mends.repaired_of_nil (h : Mends σ t x repairs) (hnone : schema.faultsAt σ t x = []) :
    x.repaired repairs = x := by
  cases repairs with
  | nil => rfl
  | cons r rs =>
    obtain ⟨fault, hfault, -⟩ := h.places r List.mem_cons_self
    rw [hnone] at hfault
    cases hfault

theorem Mends.faultsAt_of_here (h : Mends σ t x repairs) {cause : Cause}
    (hfaults : schema.faultsAt σ t x = [.here cause]) :
    schema.faultsAt σ t (x.repaired repairs) = [] := by
  have hpath : ∀ r ∈ repairs, r.path = [] := by
    intro r hr
    obtain ⟨fault, hfault, hpath⟩ := h.places r hr
    rw [hfaults, List.mem_singleton] at hfault
    rw [← hpath, hfault]
    rfl
  have hne : repairs ≠ [] := by
    rintro rfl
    obtain ⟨y, hy⟩ := h.covers (.here cause) (by rw [hfaults]; exact List.mem_cons_self)
    cases hy
  obtain ⟨r, hr, hrepaired⟩ := Json.repaired_of_nil hpath hne x
  obtain ⟨u, v, htype, hread⟩ := h.reads r hr
  rw [hpath r hr] at htype
  cases htype
  rw [hrepaired]
  exact faultsAt_eq_nil hread

/-! ## Faults of parts -/

/-- Repairs that go with data whose faults are those of its parts. -/
structure MendsParts (σ : Surface) (t : DataType) (x : Json) (repairs : List Repair) : Prop
    extends Mends σ t x repairs where
  distinct : x.HasDistinctKeys
  opens : schema.Opens σ t x
  faults : schema.faultsAt σ t x = (schema.parts σ t x).flatMap (schema.partFaults σ)

namespace MendsParts

theorem exists_part (h : MendsParts σ t x repairs) {r : Repair} (hr : r ∈ repairs) :
    ∃ p ∈ schema.parts σ t x, ∃ path, r.path = p.step :: path ∧ (p.data? = none → path = []) := by
  obtain ⟨fault, hfault, hpath⟩ := h.places r hr
  rw [h.faults] at hfault
  obtain ⟨p, hp, hfault⟩ := List.mem_flatMap.1 hfault
  refine ⟨p, hp, ?_⟩
  obtain ⟨-, rfl⟩ | ⟨y, below, hdata, -, rfl⟩ := mem_partFaults hfault
  · exact ⟨[], hpath.symm, fun _ => rfl⟩
  · refine ⟨below.path, hpath.symm, fun hnone => ?_⟩
    rw [hdata] at hnone
    cases hnone

/-- The parts of data are told apart by their keys or indices. -/
theorem eq_of_target_eq (h : MendsParts σ t x repairs) {p q : Part RecordName EnumName}
    (hp : p ∈ schema.parts σ t x) (hq : q ∈ schema.parts σ t x)
    (htarget : p.step.target = q.step.target) : p = q :=
  List.inj_on_of_nodup_map (standApart_parts h.distinct h.opens) hp hq htarget

theorem mem_faultsAt (h : MendsParts σ t x repairs) {p : Part RecordName EnumName}
    (hp : p ∈ schema.parts σ t x) {fault : Fault} (hfault : fault ∈ schema.partFaults σ p) :
    fault ∈ schema.faultsAt σ t x := by
  rw [h.faults]
  exact List.mem_flatMap.2 ⟨p, hp, hfault⟩

theorem hasPlace (h : MendsParts σ t x repairs) {p : Part RecordName EnumName}
    (hp : p ∈ schema.parts σ t x) : schema.HasPlace σ t x p :=
  hasPlace_of_mem_parts h.distinct h.opens hp

theorem typeAt?_cons (h : MendsParts σ t x repairs) {p : Part RecordName EnumName}
    (hp : p ∈ schema.parts σ t x) (path : List PathStep) :
    schema.typeAt? σ t (p.step :: path) = schema.typeAt? σ p.ty path := by
  rw [typeAt?, (h.hasPlace hp).type]
  rfl

/-- A repair below the key or index of a part goes through the step to the part. -/
theorem mem_of_mem_below (h : MendsParts σ t x repairs) {p : Part RecordName EnumName}
    (hp : p ∈ schema.parts σ t x) {r : Repair} (hr : r ∈ repairsBelow p.step.target repairs) :
    ⟨p.step :: r.path, r.data⟩ ∈ repairs := by
  obtain ⟨step, htarget, hmem⟩ := mem_repairsBelow_iff.1 hr
  obtain ⟨q, hq, path, hpath, -⟩ := h.exists_part hmem
  cases hpath
  rwa [← h.eq_of_target_eq hq hp htarget]

theorem places_below (h : MendsParts σ t x repairs) {p : Part RecordName EnumName}
    (hp : p ∈ schema.parts σ t x) {y : Json} (hdata : p.data? = some y) {r : Repair}
    (hr : r ∈ repairsBelow p.step.target repairs) :
    ∃ fault ∈ schema.faultsAt σ p.ty y, fault.path = r.path := by
  obtain ⟨fault, hfault, hpath⟩ := h.places _ (h.mem_of_mem_below hp hr)
  rw [h.faults] at hfault
  obtain ⟨q, hq, hfault⟩ := List.mem_flatMap.1 hfault
  obtain ⟨path, hpath'⟩ := exists_path_of_mem_partFaults hfault
  rw [hpath', List.cons.injEq] at hpath
  obtain rfl := h.eq_of_target_eq hq hp (congrArg _ hpath.1)
  obtain ⟨hnone, -⟩ | ⟨z, below, hz, hbelow, rfl⟩ := mem_partFaults hfault
  · rw [hdata] at hnone
    cases hnone
  · rw [hdata, Option.some.injEq] at hz
    subst hz
    rw [Fault.path_under, List.cons.injEq] at hpath'
    exact ⟨below, hbelow, hpath'.2.trans hpath.2⟩

theorem below (h : MendsParts σ t x repairs) {p : Part RecordName EnumName}
    (hp : p ∈ schema.parts σ t x) {y : Json} (hdata : p.data? = some y) :
    Mends σ p.ty y (repairsBelow p.step.target repairs) := by
  have hunder {fault : Fault} (hfault : fault ∈ schema.faultsAt σ p.ty y) :
      fault.under p.step ∈ schema.faultsAt σ t x := by
    refine h.mem_faultsAt hp ?_
    rw [partFaults, hdata]
    exact List.mem_map_of_mem hfault
  refine ⟨fun fault hfault => ?_, fun r hr => h.places_below hp hdata hr, fun r hr => ?_,
    fun fault hfault hcause text htext => ?_⟩
  · obtain ⟨z, hz⟩ := h.covers _ (hunder hfault)
    exact ⟨z, mem_repairsBelow_iff.2 ⟨p.step, rfl, hz⟩⟩
  · obtain ⟨u, v, hu, hv⟩ := h.reads _ (h.mem_of_mem_below hp hr)
    exact ⟨u, v, (h.typeAt?_cons hp _).symm.trans hu, hv⟩
  · refine h.texts _ (hunder hfault) hcause text ?_
    rw [Fault.path_under, h.typeAt?_cons hp]
    exact htext

theorem covers_missing (h : MendsParts σ t x repairs) {p : Part RecordName EnumName}
    (hp : p ∈ schema.parts σ t x) (hdata : p.data? = none) : ∃ z, ⟨[p.step], z⟩ ∈ repairs := by
  refine h.covers ⟨[p.step], .missing⟩ (h.mem_faultsAt hp ?_)
  rw [partFaults, hdata]
  exact List.mem_cons_self

end MendsParts

/-- Parts of repaired data: parts that were there and are repaired themselves, and parts that were
missing and have been added. -/
inductive RepairedPart (parts : List (Part RecordName EnumName)) (repairs : List Repair) :
    Part RecordName EnumName → Prop where
  | kept {step : PathStep} {u : DataType} {y : Json} (h : ⟨step, u, some y⟩ ∈ parts) :
    RepairedPart parts repairs ⟨step, u, some (y.repaired (repairsBelow step.target repairs))⟩
  | added {step : PathStep} {u : DataType} {z : Json} (h : ⟨step, u, none⟩ ∈ parts)
    (hz : ⟨[step], z⟩ ∈ repairs) : RepairedPart parts repairs ⟨step, u, some z⟩

theorem repairedPart_items {item : DataType} {items : List Json} {p : Part RecordName EnumName}
    (hp : p ∈ (items.mapIdx fun i x => x.repaired (repairsBelow (.inr i) repairs)).mapIdx
      fun i y => (⟨.index i, item, some y⟩ : Part RecordName EnumName)) :
    RepairedPart (items.mapIdx fun i y => ⟨.index i, item, some y⟩) repairs p := by
  obtain ⟨i, hi, rfl⟩ := List.mem_mapIdx.1 hp
  rw [List.getElem_mapIdx]
  rw [List.length_mapIdx] at hi
  exact .kept (List.mem_mapIdx.2 ⟨i, hi, rfl⟩)

/-- An object whose keys are repaired on their own: what is found under a key was there and is
repaired, or it was missing and has been added. -/
structure RepairedEntries (parts : List (Part RecordName EnumName)) (repairs : List Repair)
    (entries entries' : List (String × Json)) : Prop where
  found : ∀ k z, entries'.lookup k = some z →
    (∃ y, entries.lookup k = some y ∧ z = y.repaired (repairsBelow (.inl k) repairs)) ∨
      entries.lookup k = none ∧ ∃ p ∈ parts, p.step.target = .inl k ∧ p.data? = none ∧
        ⟨[p.step], z⟩ ∈ repairs
  absent : ∀ k, entries'.lookup k = none →
    entries.lookup k = none ∧ repairsBelow (.inl k) repairs = []
  untouched : ∀ k, repairsBelow (.inl k) repairs = [] → entries'.lookup k = entries.lookup k

theorem MendsParts.exists_missing {entries : List (String × Json)}
    (h : MendsParts σ t (.obj entries) repairs) {k : String} (hk : entries.lookup k = none)
    {r : Repair} (hr : r ∈ repairsBelow (.inl k) repairs) :
    r.path = [] ∧ ∃ p ∈ schema.parts σ t (.obj entries), p.step.target = .inl k ∧
      p.data? = none ∧ ⟨[p.step], r.data⟩ ∈ repairs := by
  obtain ⟨path, z⟩ := r
  obtain ⟨step, htarget, hmem⟩ := mem_repairsBelow_iff.1 hr
  obtain ⟨p, hp, path', hpath, hnil⟩ := h.exists_part hmem
  cases hpath
  have hdata : p.data? = none := ((h.hasPlace hp).lookup_target htarget).symm.trans hk
  cases hnil hdata
  exact ⟨rfl, p, hp, htarget, hdata, hmem⟩

theorem MendsParts.repaired_obj {entries : List (String × Json)}
    (h : MendsParts σ t (.obj entries) repairs) :
    ∃ entries', (Json.obj entries).repaired repairs = .obj entries' ∧
      (entries'.map Prod.fst).Nodup ∧
      RepairedEntries (schema.parts σ t (.obj entries)) repairs entries entries' := by
  have hsteps : ∀ r ∈ repairs, ∃ step path k, r.path = step :: path ∧ step.target = .inl k := by
    intro r hr
    obtain ⟨p, hp, path, hpath, -⟩ := h.exists_part hr
    obtain ⟨k, hk⟩ := (h.hasPlace hp).exists_target
    exact ⟨p.step, path, k, hpath, hk⟩
  obtain ⟨entries', hrepaired, hnodup, hlookup⟩ := Json.repaired_obj hsteps entries
  refine ⟨entries', hrepaired, hnodup h.distinct.nodup_keys, fun k z hz => ?_, fun k hk => ?_,
    fun k hk => ?_⟩
  · rw [hlookup] at hz
    split at hz
    · rename_i hnone
      refine .inl ⟨z, hz, ?_⟩
      rw [hnone]
      rfl
    · rename_i hsome
      cases hz
      cases hy : entries.lookup k with
      | some y => exact .inl ⟨y, rfl, rfl⟩
      | none =>
        obtain ⟨r, hr, hlast⟩ := Json.repaired_of_nil
          (fun r hr => (h.exists_missing hy hr).1) hsome ((none : Option Json).getD .null)
        rw [hlast]
        exact .inr ⟨rfl, (h.exists_missing hy hr).2⟩
  · rw [hlookup] at hk
    split at hk
    · rename_i hnone
      exact ⟨hk, hnone⟩
    · cases hk
  · rw [hlookup, if_pos hk]

theorem repairedPart_entries {parts : List (Part RecordName EnumName)} {item : DataType}
    {entries entries' kept : List (String × Json)} (hnodup : (entries'.map Prod.fst).Nodup)
    (hentries : RepairedEntries parts repairs entries entries')
    (hdata : ∀ p ∈ parts, p.data? ≠ none)
    (hkept : ∀ entry ∈ kept, entry ∈ entries' ∧
      ∀ y, entries.lookup entry.1 = some y → ⟨.key entry.1, item, some y⟩ ∈ parts)
    {p : Part RecordName EnumName}
    (hp : p ∈ kept.map fun entry => (⟨.key entry.1, item, some entry.2⟩ : Part RecordName EnumName)) :
    RepairedPart parts repairs p := by
  obtain ⟨entry, hentry, rfl⟩ := List.mem_map.1 hp
  obtain ⟨hmem, hpart⟩ := hkept entry hentry
  obtain ⟨y, hy, hz⟩ | ⟨-, q, hq, -, hnone, -⟩ :=
    hentries.found entry.1 entry.2 (Entries.lookup_of_mem hnodup hmem)
  · rw [hz]
    exact .kept (hpart y hy)
  · exact absurd hnone (hdata q hq)

theorem absentLiterals_repaired {fields : List (Field RecordName EnumName)}
    {parts : List (Part RecordName EnumName)} {entries entries' : List (String × Json)}
    (habsent : absentLiterals fields entries = [])
    (hentries : RepairedEntries parts repairs entries entries') :
    absentLiterals fields entries' = [] := by
  rw [absentLiterals_eq_nil_iff] at habsent ⊢
  intro f hf hliteral
  have hsome := habsent f hf hliteral
  cases hlookup : entries'.lookup f.name with
  | some z => rfl
  | none =>
    rw [(hentries.absent f.name hlookup).1] at hsome
    cases hsome

theorem repairedPart_fields {r : RecordName} {entries entries' : List (String × Json)}
    (habsent : absentLiterals (schema.record r).fields entries = [])
    (hentries : RepairedEntries (schema.fieldParts σ (schema.record r).fields entries) repairs
      entries entries')
    (hcovers : ∀ p ∈ schema.fieldParts σ (schema.record r).fields entries, p.data? = none →
      ∃ z, ⟨[p.step], z⟩ ∈ repairs)
    {p : Part RecordName EnumName}
    (hp : p ∈ schema.fieldParts σ (schema.record r).fields entries') :
    RepairedPart (schema.fieldParts σ (schema.record r).fields entries) repairs p := by
  have hpart {f : Field RecordName EnumName} (hf : f ∈ (schema.record r).fields)
      {q : Part RecordName EnumName} (hq : schema.fieldPart? σ entries f = some q) :
      q ∈ schema.fieldParts σ (schema.record r).fields entries := by
    rw [fieldParts, if_pos habsent]
    exact List.mem_filterMap.2 ⟨f, hf, hq⟩
  rw [fieldParts, if_pos (absentLiterals_repaired habsent hentries)] at hp
  obtain ⟨f, hf, hp⟩ := List.mem_filterMap.1 hp
  rw [fieldPart?] at hp
  cases hshown : f.shown? σ entries' with
  | some z =>
    rw [hshown] at hp
    cases hp
    have hvisible := Field.isVisible_of_shown? hshown
    obtain ⟨y, hy, rfl⟩ | ⟨hnone, q, hq, htarget, hdata, hz⟩ :=
      hentries.found f.name z (Field.lookup_of_shown? hshown)
    · refine .kept (hpart hf ?_)
      rw [fieldPart?, Field.shown?, if_pos hvisible, hy]
    · rw [fieldParts, if_pos habsent] at hq
      obtain ⟨g, hg, hq⟩ := List.mem_filterMap.1 hq
      have hstep := step_of_fieldPart? hq
      rw [hstep] at htarget hz
      obtain rfl := Field.eq_of_name_eq (nodup_names r) hg hf (Sum.inl.inj htarget)
      refine .added (hpart hg ?_) hz
      rw [hq]
      rw [fieldPart?, Field.shown?, if_pos hvisible, hnone] at hq
      cases hdefault : schema.defaultValue? g.default with
      | some v =>
        rw [hdefault] at hq
        cases hq
      | none =>
        rw [hdefault] at hq
        exact hq.symm
  | none =>
    rw [hshown] at hp
    cases hdefault : schema.defaultValue? f.default with
    | some v =>
      rw [hdefault] at hp
      cases hp
    | none =>
      -- A missing field has been added.
      have hvisible := isVisible_of_required (σ := σ) hf hdefault
      rw [Field.shown?, if_pos hvisible] at hshown
      obtain ⟨hnone, hbelow⟩ := hentries.absent f.name hshown
      have hmissing : schema.fieldPart? σ entries f = some ⟨.field f.name, f.ty, none⟩ := by
        rw [fieldPart?, Field.shown?, if_pos hvisible, hnone, hdefault]
      obtain ⟨z, hz⟩ := hcovers _ (hpart hf hmissing) rfl
      have hmem : ⟨[], z⟩ ∈ repairsBelow (.inl f.name) repairs :=
        mem_repairsBelow_iff.2 ⟨.field f.name, rfl, hz⟩
      rw [hbelow] at hmem
      cases hmem

/-! ## Repaired data -/

namespace MendsParts

/-- The items of repaired data are repaired. -/
theorem repaired_items {item : DataType} {items : List Json}
    (h : MendsParts σ t (.arr items) repairs)
    (hparts : ∀ items, schema.parts σ t (.arr items) =
      items.mapIdx fun i y => ⟨.index i, item, some y⟩) :
    ∃ items', (Json.arr items).repaired repairs = .arr items' ∧
      ∀ p ∈ schema.parts σ t (.arr items'), RepairedPart (schema.parts σ t (.arr items)) repairs p := by
  refine ⟨_, Json.repaired_arr (fun r hr => ?_) items, fun p hp => ?_⟩
  · obtain ⟨p, hp, path, hpath, -⟩ := h.exists_part hr
    rw [hparts] at hp
    obtain ⟨i, hi, rfl⟩ := List.mem_mapIdx.1 hp
    exact ⟨i, path, hpath⟩
  · rw [hparts] at hp ⊢
    exact repairedPart_items hp

theorem absentLiterals_eq_nil {r : RecordName} (hspread : (schema.record r).isSpread = false)
    (ht : t.recordOf? = some r) {entries : List (String × Json)}
    (h : MendsParts σ t (.obj entries) repairs) :
    absentLiterals (schema.record r).fields entries = [] := by
  by_contra habsent
  obtain ⟨f, hf⟩ := List.exists_mem_of_ne_nil _ habsent
  have hp : (⟨.field f.name, f.ty, none⟩ : Part RecordName EnumName) ∈
      schema.parts σ t (.obj entries) := by
    rw [parts_record ht, recordParts_of_not_spread hspread, fieldParts, if_neg habsent]
    exact List.mem_map_of_mem hf
  have hliteral := (List.mem_filter.1 hf).2
  rw [Bool.and_eq_true, Field.isLiteral] at hliteral
  split at hliteral
  · rename_i text htext
    refine h.texts ⟨[.field f.name], .missing⟩ (h.mem_faultsAt hp List.mem_cons_self) rfl text ?_
    rw [h.typeAt?_cons hp, ← htext]
    rfl
  · cases hliteral.1

theorem repaired_fields {r : RecordName} (hspread : (schema.record r).isSpread = false)
    (ht : t.recordOf? = some r) {entries : List (String × Json)}
    (h : MendsParts σ t (.obj entries) repairs) :
    ∃ entries', (Json.obj entries).repaired repairs = .obj entries' ∧
      ∀ p ∈ schema.parts σ t (.obj entries'),
        RepairedPart (schema.parts σ t (.obj entries)) repairs p := by
  have hfields (entries : List (String × Json)) : schema.parts σ t (.obj entries) =
      schema.fieldParts σ (schema.record r).fields entries := by
    rw [parts_record ht, recordParts_of_not_spread hspread]
  have habsent := h.absentLiterals_eq_nil hspread ht
  have hcovers (p : Part RecordName EnumName) (hp : p ∈ schema.parts σ t (.obj entries))
      (hdata : p.data? = none) := h.covers_missing hp hdata
  obtain ⟨entries', hrepaired, -, hentries⟩ := h.repaired_obj
  rw [hfields] at hentries hcovers
  refine ⟨entries', hrepaired, fun p hp => ?_⟩
  rw [hfields] at hp ⊢
  exact repairedPart_fields habsent hentries hcovers hp

end MendsParts

theorem mem_parts_messageActionItem (ht : t.recordOf? = some .messageActionItem)
    {entries : List (String × Json)} {p : Part RecordName EnumName} :
    p ∈ schema.parts σ t (.obj entries) ↔
      σ.admits (some (.since 16 true)) = true ∧ ∃ entry ∈ entries, entry.1 ≠ "title" ∧
        p = ⟨.key entry.1, messageActionItemProperty, some entry.2⟩ := by
  rw [parts_record ht, recordParts_messageActionItem]
  split
  · rename_i hadmits
    rw [and_iff_right hadmits, List.mem_map]
    constructor
    · rintro ⟨entry, hentry, rfl⟩
      have hfilter := List.mem_filter.1 hentry
      exact ⟨entry, hfilter.1, of_decide_eq_true hfilter.2, rfl⟩
    · rintro ⟨entry, hentry, hne, rfl⟩
      exact ⟨entry, List.mem_filter.2 ⟨hentry, decide_eq_true hne⟩, rfl⟩
  · rename_i hadmits
    exact iff_of_false List.not_mem_nil fun h => hadmits h.1

namespace MendsParts

/-- The title of an action whose properties are repaired stays as it is. -/
theorem repaired_messageActionItem (ht : t.recordOf? = some .messageActionItem)
    {entries : List (String × Json)} (h : MendsParts σ t (.obj entries) repairs)
    (hrecord : schema.OpensRecord σ .messageActionItem entries) :
    ∃ entries', (Json.obj entries).repaired repairs = .obj entries' ∧
      schema.OpensRecord σ .messageActionItem entries' ∧
      ∀ p ∈ schema.parts σ t (.obj entries'),
        RepairedPart (schema.parts σ t (.obj entries)) repairs p := by
  have htitle : repairsBelow (.inl "title") repairs = [] := by
    rw [List.eq_nil_iff_forall_not_mem]
    rintro ⟨path, y⟩ hmem
    obtain ⟨step, htarget, hmem⟩ := mem_repairsBelow_iff.1 hmem
    obtain ⟨p, hp, path', hpath, -⟩ := h.exists_part hmem
    cases hpath
    obtain ⟨-, entry, -, hne, rfl⟩ := (mem_parts_messageActionItem ht).1 hp
    exact hne (Sum.inl.inj htarget)
  obtain ⟨entries', hrepaired, hnodup, hentries⟩ := h.repaired_obj
  refine ⟨entries', hrepaired, ?_, fun p hp => ?_⟩
  · rw [opensRecord_messageActionItem] at hrecord ⊢
    rwa [hentries.untouched "title" htitle]
  · obtain ⟨hadmits, entry, hentry, hne, rfl⟩ := (mem_parts_messageActionItem ht).1 hp
    have hkept : (⟨.key entry.1, messageActionItemProperty, some entry.2⟩ :
        Part RecordName EnumName) ∈
          [entry].map fun e => ⟨.key e.1, messageActionItemProperty, some e.2⟩ :=
      List.mem_singleton.2 rfl
    refine repairedPart_entries hnodup hentries (fun q hq => ?_) (fun e he => ?_) hkept
    · obtain ⟨-, e, -, -, rfl⟩ := (mem_parts_messageActionItem ht).1 hq
      exact nofun
    · rw [List.mem_singleton.1 he]
      exact ⟨hentry, fun y hy => (mem_parts_messageActionItem ht).2
        ⟨hadmits, _, Entries.mem_of_lookup hy, hne, rfl⟩⟩

theorem repaired_record {r : RecordName} (ht : t.recordOf? = some r)
    {entries : List (String × Json)} (h : MendsParts σ t (.obj entries) repairs)
    (hrecord : schema.OpensRecord σ r entries) :
    ∃ entries', (Json.obj entries).repaired repairs = .obj entries' ∧
      schema.OpensRecord σ r entries' ∧
      ∀ p ∈ schema.parts σ t (.obj entries'),
        RepairedPart (schema.parts σ t (.obj entries)) repairs p := by
  cases hspread : (schema.record r).isSpread with
  | false =>
    obtain ⟨entries', hrepaired, hall⟩ := h.repaired_fields hspread ht
    refine ⟨entries', hrepaired, ?_, hall⟩
    rwa [opensRecord_of_not_spread hspread] at hrecord ⊢
  | true =>
    rw [isSpread_record, beq_iff_eq] at hspread
    subst hspread
    exact h.repaired_messageActionItem ht hrecord

theorem repairedParts (h : MendsParts σ t x repairs) :
    schema.Opens σ t (x.repaired repairs) ∧
      ∀ p ∈ schema.parts σ t (x.repaired repairs),
        RepairedPart (schema.parts σ t x) repairs p := by
  cases h.opens with
  | listOfAny ht items =>
    obtain ⟨items', hrepaired, hall⟩ := h.repaired_items (parts_listOfAny ht)
    rw [hrepaired]
    exact ⟨.listOfAny ht items', hall⟩
  | list ht items =>
    obtain ⟨items', hrepaired, hall⟩ := h.repaired_items (parts_list ht)
    rw [hrepaired]
    exact ⟨.list ht items', hall⟩
  | map ht entries =>
    obtain ⟨entries', hrepaired, hnodup, hentries⟩ := h.repaired_obj
    rw [hrepaired]
    refine ⟨.map ht entries', fun p hp => ?_⟩
    rw [parts_map ht] at hentries hp ⊢
    refine repairedPart_entries hnodup hentries (fun q hq => ?_) (fun entry hentry => ?_) hp
    · obtain ⟨entry, -, rfl⟩ := List.mem_map.1 hq
      exact nofun
    · exact ⟨hentry, fun y hy => List.mem_map.2 ⟨_, Entries.mem_of_lookup hy, rfl⟩⟩
  | record ht hrecord =>
    obtain ⟨entries', hrepaired, hrecord', hall⟩ := h.repaired_record ht hrecord
    rw [hrepaired]
    exact ⟨.record ht hrecord', hall⟩

/-- A fault of a repaired part is one of data that was there and has been repaired: what has been
added is read. -/
theorem isOfToken_of_repairedPart (h : MendsParts σ t x repairs)
    (ih : ∀ y ∈ x.parts, ∀ {u : DataType} {repairs : List Repair}, Mends σ u y repairs →
      y.HasDistinctKeys → ∀ fault ∈ schema.faultsAt σ u (y.repaired repairs), IsOfToken σ u fault)
    {p : Part RecordName EnumName} (hp : RepairedPart (schema.parts σ t x) repairs p)
    {fault : Fault} (hfault : fault ∈ schema.partFaults σ p) : IsOfToken σ t fault := by
  obtain ⟨hnone, -⟩ | ⟨z, below, hz, hbelow, rfl⟩ := mem_partFaults hfault
  · cases hp <;> cases hnone
  · cases hp with
    | kept hpart =>
      cases hz
      have hplace := h.hasPlace hpart
      obtain ⟨-, hy⟩ := hplace.data _ rfl
      exact (ih _ hy (h.below hpart rfl) (h.distinct.of_mem_parts hy) _ hbelow).under hplace.type
    | added hpart hmem =>
      cases hz
      obtain ⟨u, v, htype, hread⟩ := h.reads _ hmem
      rw [h.typeAt?_cons hpart] at htype
      cases htype
      rw [faultsAt_eq_nil hread] at hbelow
      cases hbelow

end MendsParts

/-- Repaired data has no faults but those of tokens with numbers that do not fit. -/
theorem Mends.isOfToken (h : Mends σ t x repairs) (hx : x.HasDistinctKeys) :
    ∀ fault ∈ schema.faultsAt σ t (x.repaired repairs), IsOfToken σ t fault := by
  induction x using Json.partsInduction generalizing t repairs with
  | step x ih =>
    intro fault hfault
    by_cases hopens : schema.Opens σ t x
    · obtain hparts | ⟨-, -, hrefused⟩ := faultsAt_of_opens hopens
      · have hmends : MendsParts σ t x repairs := ⟨h, hx, hopens, hparts⟩
        obtain ⟨hopens', hall⟩ := hmends.repairedParts
        obtain hparts' | ⟨-, hr, hrefused⟩ := faultsAt_of_opens hopens'
        · rw [hparts'] at hfault
          obtain ⟨p, hp, hfault⟩ := List.mem_flatMap.1 hfault
          exact hmends.isOfToken_of_repairedPart ih (hall p hp) hfault
        · rw [hrefused, List.mem_singleton] at hfault
          rw [hfault]
          exact ⟨rfl, hr⟩
      · rw [h.faultsAt_of_here hrefused] at hfault
        cases hfault
    · obtain hnone | ⟨cause, -, hfaults⟩ := failsAtTop_decodeAt hopens
      · rw [h.repaired_of_nil hnone, faultsAt, hnone] at hfault
        cases hfault
      · rw [h.faultsAt_of_here hfaults] at hfault
        cases hfault

/-! ## Decoding -/

/-- Repairs of the faults of a mismatch mend the data, if no fixed text is missing. -/
theorem mends_of_mismatch {enabled : Bool} {version? : Option SpecVersion} {name : String}
    {faults : List Fault}
    (h : schema.decode enabled version? t x = .error (.mismatch (.type name faults)))
    (htexts : ∀ fault ∈ faults, fault.cause = .missing → ∀ text,
      schema.typeAt? ⟨version?.getD (Surface.defaultVersion enabled), enabled⟩ t fault.path ≠
        some (.literal text))
    (hplaces : ∀ path, path ∈ repairs.map (·.path) ↔ path ∈ faults.map (·.path))
    (hreads : ∀ r ∈ repairs, ∃ u v,
      schema.typeAt? ⟨version?.getD (Surface.defaultVersion enabled), enabled⟩ t r.path = some u ∧
        schema.decode enabled version? u r.data = .ok v) :
    Mends ⟨version?.getD (Surface.defaultVersion enabled), enabled⟩ t x repairs := by
  rw [← faultsAt_of_mismatch h] at htexts hplaces
  refine ⟨fun fault hfault => ?_, fun r hr => ?_, fun r hr => ?_, htexts⟩
  · obtain ⟨r, hr, hpath⟩ := List.mem_map.1 ((hplaces _).2 (List.mem_map_of_mem hfault))
    exact ⟨r.data, hpath ▸ hr⟩
  · exact List.mem_map.1 ((hplaces _).1 (List.mem_map_of_mem hr))
  · obtain ⟨u, v, hu, hv⟩ := hreads r hr
    exact ⟨u, v, hu, (decode_eq_ok_iff.1 hv).2⟩

/-- If the data at the places of all faults of a mismatch is replaced or added by data that decodes as
the types of the places, and no fixed text is missing, then the whole decodes, or its only faults are
numbers of tokens that do not fit. -/
theorem decode_repaired {enabled : Bool} {version? : Option SpecVersion} {name : String}
    {faults : List Fault} (hx : x.HasDistinctKeys)
    (h : schema.decode enabled version? t x = .error (.mismatch (.type name faults)))
    (htexts : ∀ fault ∈ faults, fault.cause = .missing → ∀ text,
      schema.typeAt? ⟨version?.getD (Surface.defaultVersion enabled), enabled⟩ t fault.path ≠
        some (.literal text))
    (hplaces : ∀ path, path ∈ repairs.map (·.path) ↔ path ∈ faults.map (·.path))
    (hreads : ∀ r ∈ repairs, ∃ u v,
      schema.typeAt? ⟨version?.getD (Surface.defaultVersion enabled), enabled⟩ t r.path = some u ∧
        schema.decode enabled version? u r.data = .ok v) :
    (∃ v, schema.decode enabled version? t (x.repaired repairs) = .ok v) ∨
      ∃ faults', schema.decode enabled version? t (x.repaired repairs) =
          .error (.mismatch (.type (schema.typeName t) faults')) ∧
        faults' ≠ [] ∧ ∀ fault ∈ faults', fault.cause = .refused ∧
          (schema.typeAt? ⟨version?.getD (Surface.defaultVersion enabled), enabled⟩ t
            fault.path).bind Ty.recordOf? = some .semanticHighlightingToken := by
  have hmends := mends_of_mismatch h htexts hplaces hreads
  have hfaults := hmends.isOfToken hx
  have hlooks : ¬(version? = some .v3_17 ∧ enabled = false) := by
    rintro ⟨rfl, rfl⟩
    rw [decode_of_refused] at h
    cases h
  rw [decode_eq_decodeAt hlooks]
  unfold faultsAt at hfaults
  cases hread : schema.decodeAt ⟨version?.getD (Surface.defaultVersion enabled), enabled⟩ t
      (x.repaired repairs) with
  | ok v => exact .inl ⟨v, rfl⟩
  | error failure =>
    rw [hread] at hfaults
    cases failure with
    | tooLarge => cases (hfaults _ List.mem_cons_self).1
    | faults faults' =>
      have hcauses := (failsByData_decodeAt _ _ _ hread).nonempty
      refine .inr ⟨faults', rfl, ?_, hfaults⟩
      rintro rfl
      exact hcauses rfl

/-- Repairs of the edit: numbers for the line and the character, an end for the range, and a text. -/
def editRepairs : List Repair :=
  [⟨[.index 0, .field "newText"], .str "x"⟩,
    ⟨[.index 0, .field "range", .field "end"], .obj [("line", .int 1), ("character", .int 0)]⟩,
    ⟨[.index 0, .field "range", .field "start", .field "character"], .int 4⟩,
    ⟨[.index 0, .field "range", .field "start", .field "line"], .int 0⟩]

theorem editRepairs_read : ∀ r ∈ editRepairs, ∃ u v,
    schema.typeAt? ⟨.v3_16, false⟩ (.list (.record .textEdit)) r.path = some u ∧
      schema.decode false none u r.data = .ok v := by
  simp only [editRepairs, List.forall_mem_cons]
  exact ⟨⟨.str, _, rfl, rfl⟩, ⟨.record .position, _, rfl, rfl⟩, ⟨.int, _, rfl, rfl⟩,
    ⟨.int, _, rfl, rfl⟩, nofun⟩

theorem misshapenFaults_text : ∀ fault ∈ misshapenFaults, fault.cause = .missing → ∀ text,
    schema.typeAt? ⟨.v3_16, false⟩ (.list (.record .textEdit)) fault.path ≠
      some (.literal text) := by
  simp only [misshapenFaults, List.forall_mem_cons]
  exact ⟨nofun, fun _ _ => nofun, fun _ _ => nofun, nofun, nofun⟩

theorem decode_repaired_misshapenEdits :
    misshapenEdits.HasDistinctKeys ∧
      schema.decode false none (.list (.record .textEdit)) misshapenEdits =
        .error (.mismatch (.type "List[TextEdit]" misshapenFaults)) ∧
      ∃ v, schema.decode false none (.list (.record .textEdit))
        (misshapenEdits.repaired editRepairs) = .ok v := by
  refine ⟨hasDistinctKeys_misshapenEdits, decode_misshapenEdits, ?_⟩
  have hplaces (path : List PathStep) :
      path ∈ editRepairs.map (·.path) ↔ path ∈ misshapenFaults.map (·.path) :=
    (List.reverse_perm (misshapenFaults.map (·.path))).mem_iff
  obtain hread | ⟨faults', hfaults, -⟩ := decode_repaired hasDistinctKeys_misshapenEdits
    decode_misshapenEdits misshapenFaults_text hplaces editRepairs_read
  · exact hread
  · cases hfaults

end Protocol

end LspWire
