import LspWire.Decode
import LspWire.Proofs.Association

/-!
# What decoding accepts

Decoding is defined layer by layer. The lemmas say for each type, in terms of data alone, which data
is read as the type and what value the reading gives.
-/

namespace LspWire

variable {R E : Type}

/-! ## Collected results -/

theorem mapError_eq_ok_iff {ε ε' α : Type} {f : ε → ε'} {x : Except ε α} {v : α} :
    x.mapError f = .ok v ↔ x = .ok v := by
  cases x <;> simp [Except.mapError]

theorem map_eq_ok_iff {ε α β : Type} {f : α → β} {x : Except ε α} {y : β} :
    x.map f = .ok y ↔ ∃ v, x = .ok v ∧ f v = y := by
  cases x <;> simp [Except.map]

theorem bind_eq_ok_iff {ε α β : Type} {x : Except ε α} {f : α → Except ε β} {y : β} :
    x >>= f = .ok y ↔ ∃ v, x = .ok v ∧ f v = .ok y := by
  cases x <;> simp [bind, Except.bind]

/-- A list of results is collected if every one of them is a value. -/
theorem collect_eq_ok_iff {α : Type} {results : List (Except (List Fault) α)} {vs : List α} :
    collect results = .ok vs ↔ results = vs.map .ok := by
  induction results generalizing vs with
  | nil => cases vs <;> simp [collect]
  | cons result results ih =>
    cases result with
    | error faults =>
      have hne : collect (.error faults :: results) ≠ .ok vs := by
        rw [collect]
        split <;> simp
      cases vs <;> simp [hne]
    | ok v =>
      rw [collect, map_eq_ok_iff]
      constructor
      · rintro ⟨rest, hrest, rfl⟩
        rw [ih.1 hrest, List.map_cons]
      · intro h
        cases vs with
        | nil => simp at h
        | cons w vs =>
          rw [List.map_cons, List.cons.injEq, Except.ok.injEq] at h
          exact ⟨vs, ih.2 h.2, by rw [h.1]⟩

theorem map_eq_map_ok_iff {ε α β : Type} {f : α → Except ε β} {xs : List α} {vs : List β} :
    xs.map f = vs.map .ok ↔ List.Forall₂ (fun x v => f x = .ok v) xs vs := by
  rw [← List.forall₂_eq_eq_eq, List.forall₂_map_left_iff, List.forall₂_map_right_iff]

theorem collect_map_eq_ok_iff {α β : Type} {f : α → Except (List Fault) β} {xs : List α}
    {vs : List β} :
    collect (xs.map f) = .ok vs ↔ List.Forall₂ (fun x v => f x = .ok v) xs vs := by
  rw [collect_eq_ok_iff, map_eq_map_ok_iff]

/-- The places that faults are given play no part for values. -/
theorem collect_mapIdx_eq_ok_iff {α β : Type} {f : α → Except Failure β} (place : Nat → PathStep)
    {xs : List α} {vs : List β} :
    collect (xs.mapIdx fun i x => (f x).mapError (Failure.under (place i))) = .ok vs ↔
      List.Forall₂ (fun x v => f x = .ok v) xs vs := by
  rw [collect_eq_ok_iff]
  induction xs generalizing vs place with
  | nil => cases vs <;> simp
  | cons x xs ih =>
    cases vs with
    | nil => simp
    | cons v vs =>
      rw [List.mapIdx_cons, List.map_cons, List.cons.injEq, mapError_eq_ok_iff,
        List.forall₂_cons, ← ih fun i => place (i + 1)]

theorem mapM_eq_ok_iff {ε α β : Type} {f : α → Except ε β} {xs : List α} {vs : List β} :
    xs.mapM f = .ok vs ↔ List.Forall₂ (fun x v => f x = .ok v) xs vs := by
  induction xs generalizing vs with
  | nil => simp [pure, Except.pure, eq_comm]
  | cons x xs ih =>
    rw [List.mapM_cons, bind_eq_ok_iff, List.forall₂_cons_left_iff]
    simp only [bind_eq_ok_iff, ih]
    constructor
    · rintro ⟨v, hv, vs, hvs, heq⟩
      exact ⟨v, vs, hv, hvs, (Except.ok.inj heq).symm⟩
    · rintro ⟨v, vs, hv, hvs, rfl⟩
      exact ⟨v, hv, vs, hvs, rfl⟩

namespace Schema

/-! ## Layers -/

/-- The uppermost layer of data, with the readings of the parts. -/
def layer (S : Schema R E) (σ : Surface) : Json → Layer (Readable R E)
  | .scalar s => .scalar s
  | .arr items => .list (items.map (S.readable σ))
  | .obj entries => .map (entries.map fun entry => (entry.1, S.readable σ entry.2))

variable {S : Schema R E} {σ : Surface}

attribute [simp] readAs

theorem decodeAt_eq_readAs (t : Ty R E) (x : Json) :
    S.decodeAt σ t x = S.readAs σ (S.layer σ x) t := by
  cases x with
  | scalar s => rfl
  | arr items => rw [layer, ← readableItems_eq_map]; rfl
  | obj entries => rw [layer, ← readableEntries_eq_map]; rfl

@[simp] theorem kind_layer (x : Json) : (S.layer σ x).kind = x.kind := by
  cases x <;> rfl

theorem isNull_layer_iff (x : Json) : (S.layer σ x).isNull = true ↔ x = .null := by
  cases x with
  | scalar s => cases s <;> simp [layer, Layer.isNull]
  | arr items => simp [layer, Layer.isNull]
  | obj entries => simp [layer, Layer.isNull]

@[simp] theorem json_layer (x : Json) : (S.layer σ x).json = x := by
  cases x with
  | scalar s => rfl
  | arr items => simp [layer, Layer.json, Function.comp_def]
  | obj entries => simp [layer, Layer.json, Function.comp_def]

/-! ## Primitive types -/

theorem decodeAt_any (x : Json) : S.decodeAt σ .any x = .ok (.ofJson x) := by
  rw [decodeAt_eq_readAs, readAs, json_layer]

theorem decodeAt_null_eq_ok_iff {x : Json} {v : Value R E} :
    S.decodeAt σ .null x = .ok v ↔ x = .null ∧ v = .null := by
  rw [decodeAt_eq_readAs, readAs]
  by_cases h : (S.layer σ x).isNull = true
  · rw [if_pos h, (isNull_layer_iff x).1 h, Except.ok.injEq]
    simp [eq_comm]
  · rw [if_neg h]
    simp [(isNull_layer_iff x).not.1 h]

theorem decodeAt_str_eq_ok_iff {x : Json} {v : Value R E} :
    S.decodeAt σ .str x = .ok v ↔ ∃ s, x = .str s ∧ v = .str s := by
  cases x with
  | scalar s => cases s <;> simp [decodeAt_eq_readAs, layer, eq_comm]
  | arr items => simp [decodeAt_eq_readAs, layer]
  | obj entries => simp [decodeAt_eq_readAs, layer]

theorem decodeAt_int_eq_ok_iff {x : Json} {v : Value R E} :
    S.decodeAt σ .int x = .ok v ↔ ∃ n, x = .int n ∧ v = .int n := by
  cases x with
  | scalar s => cases s <;> simp [decodeAt_eq_readAs, layer, eq_comm]
  | arr items => simp [decodeAt_eq_readAs, layer]
  | obj entries => simp [decodeAt_eq_readAs, layer]

theorem decodeAt_bool_eq_ok_iff {x : Json} {v : Value R E} :
    S.decodeAt σ .bool x = .ok v ↔ ∃ b, x = .bool b ∧ v = .bool b := by
  cases x with
  | scalar s => cases s <;> simp [decodeAt_eq_readAs, layer, eq_comm]
  | arr items => simp [decodeAt_eq_readAs, layer]
  | obj entries => simp [decodeAt_eq_readAs, layer]

theorem exists_float_of_decodeAt {x : Json} {v : Value R E} (h : S.decodeAt σ .float x = .ok v) :
    ∃ y, v = .float y := by
  rw [decodeAt_eq_readAs] at h
  unfold readAs at h
  split at h
  · exact ⟨_, (Except.ok.inj h).symm⟩
  · split at h
    · exact ⟨_, (Except.ok.inj h).symm⟩
    · cases h
  · cases h

theorem decodeAt_literal_eq_ok_iff {text : String} {x : Json} {v : Value R E} :
    S.decodeAt σ (.literal text) x = .ok v ↔ x = .str text ∧ v = .str text := by
  rw [decodeAt_eq_readAs, readAs, json_layer]
  by_cases h : x = .str text
  · rw [if_pos h, Except.ok.injEq]
    simp [h, eq_comm]
  · rw [if_neg h]
    simp [h]

theorem decodeAt_unknown_eq_ok_iff {x : Json} {v : Value R E} :
    S.decodeAt σ .unknown x = .ok v ↔
      ∃ raw, x = .scalar raw ∧ (raw.kind = .int ∨ raw.kind = .str) ∧ v = .unknown raw := by
  cases x with
  | scalar s => cases s <;> simp [decodeAt_eq_readAs, layer, Scalar.kind, eq_comm]
  | arr items => simp [decodeAt_eq_readAs, layer]
  | obj entries => simp [decodeAt_eq_readAs, layer]

/-! ## Lists and maps -/

theorem readList_layer_eq_ok_iff {item : Ty R E} {x : Json} {v : Value R E} :
    readList item (S.layer σ x) = .ok v ↔
      ∃ items values, x = .arr items ∧ v = .list values ∧
        List.Forall₂ (fun x v => S.decodeAt σ item x = .ok v) items values := by
  cases x with
  | scalar s => simp [layer, readList]
  | obj entries => simp [layer, readList]
  | arr items =>
    rw [layer, readList]
    constructor
    · intro h
      split at h
      · rename_i values hvalues
        rw [collect_mapIdx_eq_ok_iff (f := fun x : Readable R E => x.readAs item) PathStep.index,
          List.forall₂_map_left_iff] at hvalues
        exact ⟨items, values, rfl, (Except.ok.inj h).symm, hvalues⟩
      · cases h
    · rintro ⟨items', values, heq, rfl, hvalues⟩
      cases heq
      have hcollect := (collect_mapIdx_eq_ok_iff (f := fun x : Readable R E => x.readAs item)
        PathStep.index).2 (List.forall₂_map_left_iff.2 hvalues)
      rw [hcollect]

theorem decodeAt_list_eq_ok_iff {item : Ty R E} {x : Json} {v : Value R E} :
    S.decodeAt σ (.list item) x = .ok v ↔
      ∃ items values, x = .arr items ∧ v = .list values ∧
        List.Forall₂ (fun x v => S.decodeAt σ item x = .ok v) items values := by
  rw [decodeAt_eq_readAs, readAs, readList_layer_eq_ok_iff]

theorem decodeAt_listOfAny (x : Json) : S.decodeAt σ .listOfAny x = S.decodeAt σ (.list .any) x := by
  rw [decodeAt_eq_readAs, decodeAt_eq_readAs, readAs, readAs]

/-- Entries are read one by one and keep their keys. -/
def EntriesRead (S : Schema R E) (σ : Surface) (item : Ty R E) (entries : List (String × Json))
    (values : List (String × Value R E)) : Prop :=
  List.Forall₂ (fun entry value => entry.1 = value.1 ∧ S.decodeAt σ item entry.2 = .ok value.2)
    entries values

theorem EntriesRead.map_fst {item : Ty R E} {entries : List (String × Json)}
    {values : List (String × Value R E)} (h : S.EntriesRead σ item entries values) :
    values.map Prod.fst = entries.map Prod.fst := by
  rw [← List.forall₂_eq_eq_eq, List.forall₂_map_left_iff, List.forall₂_map_right_iff]
  exact List.Forall₂.flip (h.imp fun entry value hvalue => hvalue.1.symm)

/-- Entries are read if the data of each of them is. -/
theorem exists_entriesRead {item : Ty R E} {entries : List (String × Json)}
    (h : ∀ entry ∈ entries, ∃ v, S.decodeAt σ item entry.2 = .ok v) :
    ∃ values, S.EntriesRead σ item entries values :=
  Entries.exists_forall₂_values (r := fun x v => S.decodeAt σ item x = .ok v) h

theorem readEntries_eq_ok_iff {item : Ty R E} {entries : List (String × Json)}
    {values : List (String × Value R E)} :
    readEntries item (entries.map fun entry => (entry.1, S.readable σ entry.2)) = .ok values ↔
      S.EntriesRead σ item entries values := by
  rw [readEntries, mapError_eq_ok_iff, collect_map_eq_ok_iff, List.forall₂_map_left_iff, EntriesRead]
  refine iff_of_eq (congrArg (fun r => List.Forall₂ r entries values) ?_)
  funext ⟨key, x⟩ ⟨key', v⟩
  simp only [map_eq_ok_iff, mapError_eq_ok_iff, Prod.mk.injEq, eq_iff_iff]
  constructor
  · rintro ⟨w, hw, rfl, rfl⟩
    exact ⟨rfl, hw⟩
  · rintro ⟨rfl, hv⟩
    exact ⟨v, hv, rfl, rfl⟩

theorem decodeAt_map_eq_ok_iff {item : Ty R E} {x : Json} {v : Value R E} :
    S.decodeAt σ (.map item) x = .ok v ↔
      ∃ entries values, x = .obj entries ∧ v = .map values ∧
        S.EntriesRead σ item entries values := by
  cases x with
  | scalar s => simp [decodeAt_eq_readAs, layer]
  | arr items => simp [decodeAt_eq_readAs, layer]
  | obj entries =>
    rw [decodeAt_eq_readAs, layer, readAs, map_eq_ok_iff]
    simp only [readEntries_eq_ok_iff, Json.obj.injEq]
    constructor
    · rintro ⟨values, hvalues, rfl⟩
      exact ⟨entries, values, rfl, rfl, hvalues⟩
    · rintro ⟨entries', values, rfl, rfl, hvalues⟩
      exact ⟨values, hvalues, rfl⟩

/-! ## Decoding -/

/-- The proposed version is in force only where the proposed parts are enabled, if it is not asked for
otherwise. -/
theorem enabled_of_isProposed {enabled : Bool} {version? : Option SpecVersion}
    (hversion : version? = some .v3_17 → enabled = true)
    (h : (version?.getD (Surface.defaultVersion enabled)).isProposed = true) : enabled = true := by
  rw [SpecVersion.isProposed_eq_true_iff] at h
  cases version? with
  | some v => exact hversion (congrArg some h)
  | none =>
    cases enabled with
    | true => rfl
    | false => cases h

/-- Decoding succeeds if the version is not refused and the data is read on its surface. -/
theorem decode_eq_ok_iff {enabled : Bool} {version? : Option SpecVersion} {t : Ty R E} {x : Json}
    {v : Value R E} :
    S.decode enabled version? t x = .ok v ↔
      ((version?.getD (Surface.defaultVersion enabled)).isProposed = true → enabled = true) ∧
        S.decodeAt ⟨version?.getD (Surface.defaultVersion enabled), enabled⟩ t x = .ok v := by
  have hrefused : ((version?.getD (Surface.defaultVersion enabled)).isProposed && !enabled) = true ↔
      ¬((version?.getD (Surface.defaultVersion enabled)).isProposed = true → enabled = true) := by
    rw [Bool.and_eq_true, Bool.not_eq_true', Bool.eq_false_iff, Classical.not_imp]
  unfold decode
  dsimp only
  split
  · rename_i h
    exact iff_of_false nofun fun h' => hrefused.1 h h'.1
  · rename_i h
    rw [and_iff_right (not_not.1 (hrefused.not.1 h))]
    split
    · rename_i heq
      rw [heq, Except.ok.injEq, Except.ok.injEq]
    · rename_i heq
      rw [heq]
      exact iff_of_false nofun nofun
    · rename_i heq
      rw [heq]
      exact iff_of_false nofun nofun

end Schema

end LspWire
