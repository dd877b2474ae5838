import LspWire.Proofs.KeyOrder.Data

/-!
# Reading of reordered data

Every part of the reader gives corresponding results for layers of data that are reordered: values
up to the order of the entries of their maps, or faults at the same places. Objects are only ever
asked for what stands under a key and for conditions on all keys, apart from the entries of a map,
which are read one by one in their order.
-/

namespace LspWire

variable {R E α β γ δ : Type}

/-! ## Corresponding results -/

/-- Whether two results are values that correspond, or errors that do. -/
inductive Correspond {ε : Type} (e : ε → ε → Prop) (r : α → β → Prop) :
    Except ε α → Except ε β → Prop where
  | ok {v : α} {w : β} (h : r v w) : Correspond e r (.ok v) (.ok w)
  | error {f g : ε} (h : e f g) : Correspond e r (.error f) (.error g)

namespace Correspond

variable {ε ε' : Type} {e : ε → ε → Prop} {e' : ε' → ε' → Prop} {r : α → β → Prop}
  {a : Except ε α} {b : Except ε β}

theorem map {q : γ → δ → Prop} {f : α → γ} {g : β → δ} (h : Correspond e r a b)
    (hrq : ∀ v w, r v w → q (f v) (g w)) : Correspond e q (a.map f) (b.map g) := by
  cases h with
  | ok h => exact .ok (hrq _ _ h)
  | error h => exact .error h

theorem mapError {f : ε → ε'} (h : Correspond e r a b) (hf : ∀ x y, e x y → e' (f x) (f y)) :
    Correspond e' r (a.mapError f) (b.mapError f) := by
  cases h with
  | ok h => exact .ok h
  | error h => exact .error (hf _ _ h)

theorem bind {q : γ → δ → Prop} {f : α → Except ε γ} {g : β → Except ε δ} (h : Correspond e r a b)
    (hfg : ∀ v w, r v w → Correspond e q (f v) (g w)) : Correspond e q (a >>= f) (b >>= g) := by
  cases h with
  | ok h => exact hfg _ _ h
  | error h => exact .error h

theorem trans {q : β → γ → Prop} {p : α → γ → Prop} {c : Except ε γ} (h : Correspond e r a b)
    (h' : Correspond e q b c) (hp : ∀ u v w, r u v → q v w → p u w)
    (he : ∀ x y z, e x y → e y z → e x z) : Correspond e p a c := by
  cases h with
  | ok h =>
    cases h' with
    | ok h' => exact .ok (hp _ _ _ h h')
  | error h =>
    cases h' with
    | error h' => exact .error (he _ _ _ h h')

theorem elim (h : Correspond e r a b) :
    (∃ v w, a = .ok v ∧ b = .ok w ∧ r v w) ∨ ∃ f g, a = .error f ∧ b = .error g ∧ e f g := by
  cases h with
  | ok h => exact .inl ⟨_, _, rfl, rfl, h⟩
  | error h => exact .inr ⟨_, _, rfl, rfl, h⟩

theorem ok_iff (h : Correspond e r a b) : (∃ v, a = .ok v) ↔ ∃ w, b = .ok w := by
  cases h with
  | ok h => exact iff_of_true ⟨_, rfl⟩ ⟨_, rfl⟩
  | error h => exact iff_of_false (by simp) (by simp)

end Correspond

/-- Whether faults are at the same places, in whatever order. -/
def SamePlaces (faults faults' : List Fault) : Prop :=
  (faults.map Fault.path).Perm (faults'.map Fault.path)

theorem SamePlaces.append {faults₁ faults₁' faults₂ faults₂' : List Fault}
    (h₁ : SamePlaces faults₁ faults₁') (h₂ : SamePlaces faults₂ faults₂') :
    SamePlaces (faults₁ ++ faults₂) (faults₁' ++ faults₂') := by
  rw [SamePlaces, List.map_append, List.map_append]
  exact List.Perm.append h₁ h₂

/-- Whether readings fail alike: for an integer that is too large, or with faults at the same
places. -/
inductive Failure.Alike : Failure → Failure → Prop where
  | tooLarge : Alike .tooLarge .tooLarge
  | faults {faults faults' : List Fault} (h : SamePlaces faults faults') :
    Alike (.faults faults) (.faults faults')

namespace Failure.Alike

theorem refl (failure : Failure) : Alike failure failure := by
  cases failure with
  | tooLarge => exact .tooLarge
  | faults list => exact .faults (.refl _)

/-- Whatever is wrong at the top of the data, its place is the same. -/
theorem here (cause cause' : Cause) : Alike (.here cause) (.here cause') := .faults (.refl _)

theorem under {failure failure' : Failure} (h : Alike failure failure') (step : PathStep) :
    SamePlaces (failure.under step) (failure'.under step) := by
  cases h with
  | tooLarge => exact .refl _
  | @faults list list' h =>
    have hunder (list : List Fault) :
        ((list.map (Fault.under step)).map Fault.path) = (list.map Fault.path).map (step :: ·) := by
      rw [List.map_map, List.map_map]
      rfl
    rw [Failure.under, Failure.under, SamePlaces, hunder, hunder]
    exact List.Perm.map _ h

end Failure.Alike

/-! ## Collected results -/

section Collect

variable {r : α → β → Prop}

theorem collect_cons {results : List (Except (List Fault) α)}
    {results' : List (Except (List Fault) β)} {q p : List α → List β → Prop}
    {result : Except (List Fault) α} {result' : Except (List Fault) β}
    (hresult : Correspond SamePlaces r result result')
    (h : Correspond SamePlaces q (collect results) (collect results'))
    (hp : ∀ v w vs ws, r v w → q vs ws → p (v :: vs) (w :: ws)) :
    Correspond SamePlaces p (collect (result :: results)) (collect (result' :: results')) := by
  cases hresult with
  | ok hvw =>
    rw [collect, collect]
    exact h.map fun vs ws hvs => hp _ _ _ _ hvw hvs
  | error hfaults =>
    rw [collect, collect]
    generalize collect results = a at h
    generalize collect results' = b at h
    cases h with
    | ok _ => exact .error hfaults
    | error hmore => exact .error (hfaults.append hmore)

theorem collect_of_forall₂ {results : List (Except (List Fault) α)}
    {results' : List (Except (List Fault) β)}
    (h : List.Forall₂ (Correspond SamePlaces r) results results') :
    Correspond SamePlaces (List.Forall₂ r) (collect results) (collect results') := by
  induction h with
  | nil => exact .ok .nil
  | cons hresult _ ih => exact collect_cons hresult ih fun _ _ _ _ => .cons

theorem collect_swap (result result' : Except (List Fault) α)
    (results : List (Except (List Fault) α)) :
    Correspond SamePlaces List.Perm (collect (result :: result' :: results))
      (collect (result' :: result :: results)) := by
  cases result with
  | ok v =>
    cases result' with
    | ok w =>
      rw [collect, collect, collect, collect]
      cases collect results with
      | ok vs => exact .ok (.swap w v vs)
      | error faults => exact .error (.refl _)
    | error faults =>
      rw [collect, collect, collect, collect]
      cases collect results <;> exact .error (.refl _)
  | error faults =>
    cases result' with
    | ok w =>
      rw [collect, collect, collect, collect]
      cases collect results <;> exact .error (.refl _)
    | error faults' =>
      rw [collect, collect, collect, collect]
      cases collect results with
      | ok vs => exact .error (List.Perm.map _ List.perm_append_comm)
      | error more => exact .error (List.Perm.map _ (List.perm_append_comm_assoc ..))

/-- Results in another order are collected alike. -/
theorem collect_of_perm {results results' : List (Except (List Fault) α)}
    (h : results.Perm results') :
    Correspond SamePlaces List.Perm (collect results) (collect results') := by
  induction h with
  | nil => exact .ok .nil
  | @cons result results results' _ ih =>
    have hresult : Correspond SamePlaces Eq result result := by
      cases result with
      | ok v => exact .ok rfl
      | error faults => exact .error (.refl _)
    exact collect_cons hresult ih fun v w vs ws hvw hvs => hvw ▸ hvs.cons v
  | swap result result' results => exact collect_swap result' result results
  | trans _ _ ih ih' =>
    exact ih.trans ih' (fun _ _ _ => .trans) fun _ _ _ => List.Perm.trans

end Collect

/-! ## Readable data -/

/-- Whether readings of reordered data are the values up to the order of the entries of their maps,
or fail alike. -/
abbrev ReadAlike : Except Failure (Value R E) → Except Failure (Value R E) → Prop :=
  Correspond Failure.Alike Value.Reordered

theorem ReadAlike.refl (a : Except Failure (Value R E)) : ReadAlike a a := by
  cases a with
  | ok v => exact .ok (.refl v)
  | error failure => exact .error (.refl failure)

theorem ReadAlike.of_eq {a b : Except Failure (Value R E)} (h : a = b) : ReadAlike a b :=
  h ▸ .refl a

/-- Whether readable data is reordered and read alike as every type. -/
structure Readable.Alike (x y : Readable R E) : Prop where
  json : x.json.Reordered y.json
  readAs (t : Ty R E) : ReadAlike (x.readAs t) (y.readAs t)

/-- Whether layers of readable data are reordered. -/
inductive Layer.Alike : Layer (Readable R E) → Layer (Readable R E) → Prop where
  | scalar (s : Scalar) : Alike (.scalar s) (.scalar s)
  | list {xs ys : List (Readable R E)} (h : List.Forall₂ Readable.Alike xs ys) :
    Alike (.list xs) (.list ys)
  | map {xs ys : List (String × Readable R E)} (hkeys : (xs.map Prod.fst).Nodup)
    (h : Entries.Reordered Readable.Alike xs ys) : Alike (.map xs) (.map ys)

namespace Layer.Alike

variable {layer layer' : Layer (Readable R E)}

theorem kind_eq (h : Alike layer layer') : layer.kind = layer'.kind := by
  cases h <;> rfl

theorem isNull_eq (h : Alike layer layer') : layer.isNull = layer'.isNull := by
  cases h <;> rfl

theorem json (h : Alike layer layer') : layer.json.Reordered layer'.json := by
  cases h with
  | scalar s => exact .scalar s
  | list h =>
    refine .arr (List.forall₂_map_left_iff.2 (List.forall₂_map_right_iff.2 ?_))
    exact h.imp fun _ _ hxy => hxy.json
  | map _ h =>
    exact Json.reordered_obj_iff.2 (h.map_values fun _ _ _ hxy => hxy.json)

end Layer.Alike

/-! ## Constructors -/

theorem Check.run_of_reordered (S : Schema R E) (enabled : Bool) (record field : String)
    {v w : Value R E} (h : v.Reordered w) (check : Check) :
    check.run S enabled record field v = check.run S enabled record field w := by
  cases check with
  | proposed => rw [Check.run, Check.run, h.isNull_eq]
  | stable => cases h <;> rfl
  | unsigned bits => rw [Check.run, Check.run, h.toInt?_eq]
  | atMost bound => rw [Check.run, Check.run, h.isNull_eq, h.exceeds?_eq]

namespace Schema

variable {S : Schema R E} {σ : Surface} {layer layer' : Layer (Readable R E)}

theorem checkField_of_reordered {enabled : Bool} {record : String} {f : Field R E} {v w : Value R E}
    (h : v.Reordered w) : S.checkField enabled record f v = S.checkField enabled record f w := by
  rw [checkField, checkField, h.isNull_eq,
    funext (Check.run_of_reordered S enabled record f.name h)]

/-- The checks look at nothing whose order could differ. -/
theorem checkFields_of_reordered {enabled : Bool} {r : R} {vs ws : List (Value R E)}
    (h : List.Forall₂ Value.Reordered vs ws) :
    S.checkFields enabled r vs = S.checkFields enabled r ws := by
  rw [checkFields, checkFields]
  generalize (S.record r).fields = fields
  induction h generalizing fields with
  | nil => rfl
  | cons hvw _ ih =>
    cases fields with
    | nil => rfl
    | cons f fields =>
      rw [List.zip_cons_cons, List.zip_cons_cons, List.forM, List.forM, ih]
      dsimp only
      rw [checkField_of_reordered hvw]

theorem built_alike {r : R} {vs ws : List (Value R E)} (h : List.Forall₂ Value.Reordered vs ws) :
    ReadAlike (S.built σ r vs) (S.built σ r ws) := by
  rw [built, built, checkFields_of_reordered h]
  split
  · exact .ok (.record r h)
  · exact .refl _
  · exact .refl _

/-! ## Scalars and enumerations -/

theorem readEnumeration_of_alike (h : layer.Alike layer') (e : E) :
    S.readEnumeration σ e layer = S.readEnumeration σ e layer' := by
  cases h <;> rfl

theorem readOpen_of_alike (h : layer.Alike layer') (e : E) :
    S.readOpen σ e layer = S.readOpen σ e layer' := by
  cases h <;> rfl

theorem readPacked_of_alike (h : layer.Alike layer') (r : R) :
    readPacked r layer = readPacked (E := E) r layer' := by
  cases h <;> rfl

/-! ## Lists and maps -/

theorem forall₂_mapIdx {q : γ → δ → Prop} {r : α → β → Prop} {xs : List α} {ys : List β}
    (h : List.Forall₂ r xs ys) {f : Nat → α → γ} {g : Nat → β → δ}
    (hfg : ∀ i x y, r x y → q (f i x) (g i y)) :
    List.Forall₂ q (xs.mapIdx f) (ys.mapIdx g) := by
  induction h generalizing f g with
  | nil => exact .nil
  | cons hxy _ ih =>
    rw [List.mapIdx_cons, List.mapIdx_cons]
    exact .cons (hfg _ _ _ hxy) (ih fun i => hfg (i + 1))

theorem readList_alike (h : layer.Alike layer') (item : Ty R E) :
    ReadAlike (readList item layer) (readList item layer') := by
  cases h with
  | scalar s => exact .refl _
  | map _ _ => exact .refl _
  | @list xs ys h =>
    have hitem (i : Nat) (x y : Readable R E) (hxy : x.Alike y) :
        Correspond SamePlaces Value.Reordered ((x.readAs item).mapError (Failure.under (.index i)))
          ((y.readAs item).mapError (Failure.under (.index i))) :=
      (hxy.readAs item).mapError fun _ _ hfailure => hfailure.under (.index i)
    rw [readList, readList]
    obtain ⟨vs, ws, hvs, hws, h⟩ | ⟨faults, faults', hvs, hws, h⟩ :=
      (collect_of_forall₂ (forall₂_mapIdx h hitem)).elim
    · rw [hvs, hws]
      exact .ok (.list h)
    · rw [hvs, hws]
      exact .error (.faults h)

theorem readEntries_alike {xs ys : List (String × Readable R E)}
    (h : Entries.Reordered Readable.Alike xs ys) (item : Ty R E) :
    Correspond Failure.Alike (Entries.Reordered Value.Reordered) (readEntries item xs)
      (readEntries item ys) := by
  obtain ⟨zs, hzs, hperm⟩ := h
  let read := fun entry : String × Readable R E =>
    ((entry.2.readAs item).mapError (Failure.under (.key entry.1))).map (entry.1, ·)
  have hread : List.Forall₂ (Correspond SamePlaces
      fun v w => v.1 = w.1 ∧ Value.Reordered v.2 w.2) (xs.map read) (zs.map read) := by
    rw [List.forall₂_map_left_iff, List.forall₂_map_right_iff]
    refine hzs.imp fun x z hxz => ?_
    dsimp only [read]
    rw [hxz.1]
    exact ((hxz.2.readAs item).mapError fun _ _ hfailure => hfailure.under (.key z.1)).map
      fun _ _ hvw => ⟨rfl, hvw⟩
  have hcollect : Correspond SamePlaces (Entries.Reordered Value.Reordered) (collect (xs.map read))
      (collect (ys.map read)) :=
    (collect_of_forall₂ hread).trans (collect_of_perm (hperm.map read))
      (fun _ us _ hus hperm => ⟨us, hus, hperm⟩) fun _ _ _ => List.Perm.trans
  exact hcollect.mapError fun _ _ => .faults

/-! ## Records -/

theorem readField_alike {xs ys : List (String × Readable R E)}
    (h : Entries.Reordered Readable.Alike xs ys) (hkeys : (xs.map Prod.fst).Nodup) (f : Field R E) :
    Correspond SamePlaces Value.Reordered (S.readField xs f) (S.readField ys f) := by
  have hlookup := h.rel_lookup hkeys f.name
  rw [readField, readField]
  generalize xs.lookup f.name = x? at hlookup
  generalize ys.lookup f.name = y? at hlookup
  cases hlookup with
  | some hxy => exact (hxy.readAs f.ty).mapError fun _ _ hfailure => hfailure.under (.field f.name)
  | none =>
    cases S.defaultValue? f.default with
    | some v => exact .ok (.refl v)
    | none => exact .error (.refl _)

theorem readFields_alike {xs ys : List (String × Readable R E)}
    (h : Entries.Reordered Readable.Alike xs ys) (hkeys : (xs.map Prod.fst).Nodup) (r : R)
    (fields : List (Field R E)) :
    ReadAlike (S.readFields σ r fields xs) (S.readFields σ r fields ys) := by
  have hnone (key : String) : (xs.lookup key).isNone = (ys.lookup key).isNone := by
    have hlookup := h.rel_lookup hkeys key
    generalize xs.lookup key = x? at hlookup
    generalize ys.lookup key = y? at hlookup
    cases hlookup <;> rfl
  unfold readFields
  simp only [hnone]
  split
  · let visible := fun key : String => !(fields.filter fun f => !f.isVisible σ).any (·.name = key)
    have hshown := h.filter_key visible
    have hshownKeys : ((xs.filter fun x => visible x.1).map Prod.fst).Nodup :=
      hkeys.sublist (List.filter_sublist.map Prod.fst)
    have hfields : List.Forall₂ (Correspond SamePlaces Value.Reordered)
        (fields.map (S.readField (xs.filter fun x => visible x.1)))
        (fields.map (S.readField (ys.filter fun y => visible y.1))) := by
      rw [List.forall₂_map_left_iff, List.forall₂_map_right_iff, List.forall₂_same]
      exact fun f _ => readField_alike hshown hshownKeys f
    obtain ⟨vs, ws, hvs, hws, h⟩ | ⟨faults, faults', hvs, hws, h⟩ :=
      (collect_of_forall₂ hfields).elim
    · rw [hvs, hws]
      exact built_alike h
    · rw [hvs, hws]
      exact .error (.faults h)
  · exact .refl _

theorem readSpread_alike {xs ys : List (String × Readable R E)}
    (h : Entries.Reordered Readable.Alike xs ys) (hkeys : (xs.map Prod.fst).Nodup) (r : R)
    (key : Field R E) (restTag : Option Tag) (item : Ty R E) :
    ReadAlike (S.readSpread σ r key restTag item xs) (S.readSpread σ r key restTag item ys) := by
  have hlookup := h.rel_lookup hkeys key.name
  unfold readSpread
  generalize xs.lookup key.name = x? at hlookup
  generalize ys.lookup key.name = y? at hlookup
  cases hlookup with
  | none => exact .refl _
  | some hxy =>
    have hextra := h.filter_key fun name => name ≠ key.name
    refine (hxy.readAs key.ty).bind fun title title' htitle => ?_
    have hempty : (xs.filter fun x => decide (x.1 ≠ key.name)).isEmpty =
        (ys.filter fun y => decide (y.1 ≠ key.name)).isEmpty := by
      rw [Bool.eq_iff_iff, List.isEmpty_iff_length_eq_zero, List.isEmpty_iff_length_eq_zero,
        hextra.length_eq]
    simp only [hempty]
    split
    · exact built_alike (.cons htitle (.cons (.refl _) .nil))
    · exact (readEntries_alike hextra item).bind fun rest rest' hrest =>
        built_alike (.cons htitle (.cons (.of_entries hrest) .nil))

theorem readRecord_alike (h : layer.Alike layer') (r : R) :
    ReadAlike (S.readRecord σ r layer) (S.readRecord σ r layer') := by
  cases h with
  | scalar s => exact .refl _
  | list h =>
    refine .of_eq ?_
    unfold readRecord
    dsimp only
    cases (S.record r).form <;> rfl
  | map hkeys h =>
    unfold readRecord
    dsimp only
    cases (S.record r).form with
    | spread key rest restTag item => exact readSpread_alike h hkeys r key restTag item
    | _ =>
      dsimp only
      generalize available σ _ _ _ _ = gate
      cases gate with
      | ok _ => exact readFields_alike h hkeys r _
      | error failure => exact .refl _

theorem readRecordOrFlag_alike (h : layer.Alike layer') (r : R) (label : String) :
    ReadAlike (S.readRecordOrFlag σ r label layer) (S.readRecordOrFlag σ r label layer') := by
  cases h with
  | scalar s => exact .refl _
  | list h => exact .refl _
  | map hkeys h => exact readRecord_alike (.map hkeys h) r

/-! ## Types -/

theorem readLiteral_alike (h : layer.Alike layer') (text : String) :
    ReadAlike (S.readAs σ layer (.literal text)) (S.readAs σ layer' (.literal text)) := by
  have hjson : layer.json = .str text ↔ layer'.json = .str text := by
    cases h <;> simp [Layer.json]
  rw [readAs, readAs]
  by_cases htext : layer.json = .str text
  · rw [if_pos htext, if_pos (hjson.1 htext)]
    exact .refl _
  · rw [if_neg htext, if_neg (hjson.not.1 htext)]
    exact .error (.here _ _)

/-- Layers that are reordered are read alike as every type that is no union. -/
theorem readAs_alike (h : layer.Alike layer') {t : Ty R E} (ht : ∀ ts, t ≠ .union ts) :
    ReadAlike (S.readAs σ layer t) (S.readAs σ layer' t) := by
  cases t with
  | any => exact .ok (.ofJson h.json)
  | null =>
    rw [readAs, readAs, h.isNull_eq, h.kind_eq]
    exact .refl _
  | str => cases h <;> exact .refl _
  | int => cases h <;> exact .refl _
  | bool => cases h <;> exact .refl _
  | float => cases h <;> exact .refl _
  | listOfAny => exact readList_alike h .any
  | unknown => cases h <;> exact .refl _
  | literal text => exact readLiteral_alike h text
  | enumeration e => exact .of_eq (readEnumeration_of_alike h e)
  | record r => exact readRecord_alike h r
  | list item => exact readList_alike h item
  | map item =>
    cases h with
    | scalar s => exact .refl _
    | list h => exact .refl _
    | map hkeys h => exact (readEntries_alike h item).map fun _ _ => .of_entries
  | union ts => exact absurd rfl (ht ts)
  | packed r => exact .of_eq (readPacked_of_alike h r)
  | recordOrFlag r label => exact readRecordOrFlag_alike h r label

/-! ## Unions -/

theorem coversKeys_of_alike (h : layer.Alike layer') (t : Ty R E) :
    S.coversKeys layer t = S.coversKeys layer' t := by
  cases h with
  | scalar s => rfl
  | list h => cases t <;> rfl
  | map hkeys h =>
    cases t with
    | record r => exact h.all_key fun key => (S.record r).fields.any (·.name = key)
    | _ => rfl

theorem choose_alike (h : layer.Alike layer')
    {readings readings' : List (Ty R E × Except Failure (Value R E))}
    (hreadings : List.Forall₂ (fun p q => p.1 = q.1 ∧ ReadAlike p.2 q.2) readings readings')
    {fallback fallback' : Option (Value R E)}
    (hfallback : Option.Rel Value.Reordered fallback fallback') :
    Correspond Failure.Alike (Option.Rel Value.Reordered) (S.choose layer fallback readings)
      (S.choose layer' fallback' readings') := by
  induction hreadings generalizing fallback fallback' with
  | nil => exact .ok hfallback
  | @cons p q readings readings' hpq _ ih =>
    obtain ⟨t, result⟩ := p
    obtain ⟨u, result'⟩ := q
    obtain ⟨rfl, hresult⟩ := hpq
    cases hresult with
    | @ok v w hvw =>
      rw [choose, choose, coversKeys_of_alike h]
      split
      · exact .ok (.some hvw)
      · refine ih ?_
        cases hfallback with
        | some hfound => exact .some hfound
        | none => exact .some hvw
    | error hfailure =>
      cases hfailure with
      | tooLarge => exact .error .tooLarge
      | faults _ => exact ih hfallback

end Schema

end LspWire
