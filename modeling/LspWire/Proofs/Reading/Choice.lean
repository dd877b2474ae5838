import LspWire.Proofs.Reading.Enumeration

/-!
# Reading of unions

A union takes the reading of the first alternative that accounts for every key of the data, and
otherwise the first reading there is. `Schema.chosen?` says so without going through the
alternatives one by one; it describes every union but the open enumerations, as long as no integer
is too large for a number with a fraction.
-/

namespace LspWire

variable {R E : Type}

namespace Schema

variable {S : Schema R E} {σ : Surface}

/-- Whether a type accounts for every key of data. -/
def accounts (S : Schema R E) (t : Ty R E) : Json → Bool
  | .obj entries =>
    match t with
    | .record r => entries.all fun entry => (S.record r).fields.any (·.name = entry.1)
    | _ => true
  | _ => true

/-- The reading of data as a type, if there is one. -/
def reading? (S : Schema R E) (σ : Surface) (x : Json) (t : Ty R E) : Option (Value R E) :=
  (S.decodeAt σ t x).toOption

/-- The reading of data as a type that accounts for every key. -/
def captured? (S : Schema R E) (σ : Surface) (x : Json) (t : Ty R E) : Option (Value R E) :=
  if S.accounts t x then S.reading? σ x t else none

/-- The reading that a union of some types takes. -/
def chosen? (S : Schema R E) (σ : Surface) (x : Json) (ts : List (Ty R E)) : Option (Value R E) :=
  (ts.findSome? (S.captured? σ x)).or (ts.findSome? (S.reading? σ x))

/-- The alternatives of an open enumeration: an enumeration and raw values besides its members. -/
def openEnumeration? : List (Ty R E) → Option E
  | [.enumeration e, .unknown] => some e
  | _ => none

theorem eq_of_openEnumeration? {ts : List (Ty R E)} {e : E} (h : openEnumeration? ts = some e) :
    ts = [.enumeration e, .unknown] := by
  unfold openEnumeration? at h
  split at h
  · cases h
    rfl
  · cases h

@[simp] theorem reading?_eq_some_iff {x : Json} {t : Ty R E} {v : Value R E} :
    S.reading? σ x t = some v ↔ S.decodeAt σ t x = .ok v := by
  rw [reading?]
  cases S.decodeAt σ t x <;> simp [Except.toOption]

theorem captured?_eq_some_iff {x : Json} {t : Ty R E} {v : Value R E} :
    S.captured? σ x t = some v ↔ S.accounts t x = true ∧ S.decodeAt σ t x = .ok v := by
  rw [captured?]
  by_cases h : S.accounts t x = true
  · rw [if_pos h, reading?_eq_some_iff, and_iff_right h]
  · rw [if_neg h]
    simp [h]

theorem accounts_layer (t : Ty R E) (x : Json) :
    S.coversKeys (S.layer σ x) t = S.accounts t x := by
  cases x <;> cases t <;> simp [layer, coversKeys, accounts, List.all_map, Function.comp_def]

theorem chosen?_singleton {x : Json} {t : Ty R E} {v : Value R E} :
    S.chosen? σ x [t] = some v ↔ S.decodeAt σ t x = .ok v := by
  rw [chosen?, ← reading?_eq_some_iff]
  simp only [List.findSome?_cons, List.findSome?_nil, captured?]
  cases S.reading? σ x t <;> cases S.accounts t x <;> simp

theorem exists_of_chosen? {x : Json} {ts : List (Ty R E)} {v : Value R E}
    (h : S.chosen? σ x ts = some v) : ∃ t ∈ ts, S.decodeAt σ t x = .ok v := by
  rw [chosen?, Option.or_eq_some_iff] at h
  rcases h with h | ⟨-, h⟩
  · obtain ⟨t, ht, hcaptured⟩ := List.exists_of_findSome?_eq_some h
    exact ⟨t, ht, (captured?_eq_some_iff.1 hcaptured).2⟩
  · obtain ⟨t, ht, hread⟩ := List.exists_of_findSome?_eq_some h
    exact ⟨t, ht, reading?_eq_some_iff.1 hread⟩

theorem exists_chosen? {x : Json} {ts : List (Ty R E)} {t : Ty R E} {v : Value R E} (ht : t ∈ ts)
    (h : S.decodeAt σ t x = .ok v) : ∃ w, S.chosen? σ x ts = some w := by
  have hreading : (ts.findSome? (S.reading? σ x)).isSome := by
    rw [List.findSome?_isSome_iff]
    exact ⟨t, ht, by rw [reading?_eq_some_iff.2 h]; rfl⟩
  obtain ⟨w, hw⟩ := Option.isSome_iff_exists.1 hreading
  rw [chosen?, hw]
  cases ts.findSome? (S.captured? σ x) with
  | none => exact ⟨w, rfl⟩
  | some u => exact ⟨u, rfl⟩

/-- The alternative that is chosen captures the data before all others, or is the first one to read
it and none captures it. -/
theorem split_of_chosen? {x : Json} {ts : List (Ty R E)} {v : Value R E}
    (h : S.chosen? σ x ts = some v) :
    ∃ before t after, ts = before ++ t :: after ∧ S.decodeAt σ t x = .ok v ∧
      (∀ u ∈ before, S.captured? σ x u = none) ∧
      (S.accounts t x = true ∨ ∀ u ∈ before, S.reading? σ x u = none) := by
  rw [chosen?, Option.or_eq_some_iff] at h
  rcases h with h | ⟨hnone, h⟩
  · obtain ⟨before, t, after, rfl, hcaptured, hbefore⟩ := List.findSome?_eq_some_iff.1 h
    obtain ⟨haccounts, hread⟩ := captured?_eq_some_iff.1 hcaptured
    exact ⟨before, t, after, rfl, hread, hbefore, .inl haccounts⟩
  · obtain ⟨before, t, after, rfl, hread, hbefore⟩ := List.findSome?_eq_some_iff.1 h
    rw [List.findSome?_eq_none_iff] at hnone
    exact ⟨before, t, after, rfl, reading?_eq_some_iff.1 hread,
      fun u hu => hnone u (List.mem_append_left _ hu), .inr hbefore⟩

/-- If an alternative reads data and accounts for every key, or no other one reads the data, then
its reading is chosen unless an earlier alternative captures the data. -/
theorem chosen?_append_cons {x : Json} {before after : List (Ty R E)} {t : Ty R E} {v : Value R E}
    (hread : S.decodeAt σ t x = .ok v)
    (h : S.accounts t x = true ∨ ∀ u ∈ before ++ after, S.reading? σ x u = none) :
    ∃ y, S.chosen? σ x (before ++ t :: after) = some y ∧
      (y = v ∨ ∃ u ∈ before, S.captured? σ x u = some y) := by
  rw [chosen?, List.findSome?_append, List.findSome?_append, List.findSome?_cons,
    List.findSome?_cons, reading?_eq_some_iff.2 hread]
  cases hbefore : before.findSome? (S.captured? σ x) with
  | some y => exact ⟨y, rfl, .inr (List.exists_of_findSome?_eq_some hbefore)⟩
  | none =>
    refine ⟨v, ?_, .inl rfl⟩
    rcases h with haccounts | hothers
    · rw [captured?_eq_some_iff.2 ⟨haccounts, hread⟩]
      rfl
    · have hnone (us : List (Ty R E)) (hus : ∀ u ∈ us, u ∈ before ++ after) :
          us.findSome? (S.captured? σ x) = none ∧ us.findSome? (S.reading? σ x) = none := by
        simp only [List.findSome?_eq_none_iff]
        refine ⟨fun u hu => ?_, fun u hu => hothers u (hus u hu)⟩
        rw [captured?, hothers u (hus u hu), ite_self]
      rw [(hnone after fun u hu => List.mem_append_right _ hu).1,
        (hnone before fun u hu => List.mem_append_left _ hu).2, captured?,
        reading?_eq_some_iff.2 hread]
      cases S.accounts t x <;> rfl

theorem chosen?_of_captured? {x : Json} {before after : List (Ty R E)} {t : Ty R E} {v : Value R E}
    (h : S.captured? σ x t = some v) (hbefore : ∀ u ∈ before, S.captured? σ x u = none) :
    S.chosen? σ x (before ++ t :: after) = some v := by
  obtain ⟨haccounts, hread⟩ := captured?_eq_some_iff.1 h
  obtain ⟨y, hy, rfl | ⟨u, hu, hcaptured⟩⟩ :=
    chosen?_append_cons hread (.inl haccounts)
  · exact hy
  · rw [hbefore u hu] at hcaptured
    cases hcaptured

/-- The search through the alternatives ends with the chosen reading, unless an integer that is too
large has ended it before. -/
theorem choose_eq_chosen? {x : Json} {ts : List (Ty R E)} (fallback : Option (Value R E))
    (hlarge : ∀ t ∈ ts, S.decodeAt σ t x ≠ .error .tooLarge) :
    S.choose (S.layer σ x) fallback (ts.map fun t => (t, S.readAs σ (S.layer σ x) t)) =
      .ok ((ts.findSome? (S.captured? σ x)).or (fallback.or (ts.findSome? (S.reading? σ x)))) := by
  induction ts generalizing fallback with
  | nil => simp [choose]
  | cons t ts ih =>
    have ih := fun fallback => ih fallback fun u hu => hlarge u (List.mem_cons_of_mem _ hu)
    rw [List.map_cons, List.findSome?_cons, List.findSome?_cons, ← decodeAt_eq_readAs]
    cases hread : S.decodeAt σ t x with
    | error failure =>
      have hnone : S.reading? σ x t = none := by rw [reading?, hread]; rfl
      have hcaptured : S.captured? σ x t = none := by rw [captured?, hnone, ite_self]
      cases failure with
      | tooLarge => exact absurd hread (hlarge t List.mem_cons_self)
      | faults faults => rw [choose, ih, hcaptured, hnone]
    | ok v =>
      have hsome : S.reading? σ x t = some v := reading?_eq_some_iff.2 hread
      rw [choose, accounts_layer, captured?, hsome]
      by_cases haccounts : S.accounts t x = true
      · rw [if_pos haccounts, if_pos haccounts]
        rfl
      · rw [if_neg haccounts, if_neg haccounts, ih, Option.or_assoc]
        rfl

theorem exists_of_choose {layer : Layer (Readable R E)} {fallback : Option (Value R E)}
    {readings : List (Ty R E × Except Failure (Value R E))} {v : Value R E}
    (h : S.choose layer fallback readings = .ok (some v)) :
    fallback = some v ∨ ∃ t, (t, .ok v) ∈ readings := by
  induction readings generalizing fallback with
  | nil => exact .inl (Except.ok.inj h)
  | cons reading readings ih =>
    obtain ⟨t, result⟩ := reading
    cases result with
    | error failure =>
      cases failure with
      | tooLarge => cases h
      | faults faults =>
        obtain hfallback | ⟨u, hu⟩ := ih h
        · exact .inl hfallback
        · exact .inr ⟨u, List.mem_cons_of_mem _ hu⟩
    | ok w =>
      rw [choose] at h
      split at h
      · cases h
        exact .inr ⟨t, List.mem_cons_self⟩
      · obtain hfallback | ⟨u, hu⟩ := ih h
        · rw [Option.or_eq_some_iff] at hfallback
          rcases hfallback with hfallback | ⟨-, hw⟩
          · exact .inl hfallback
          · cases hw
            exact .inr ⟨t, List.mem_cons_self⟩
        · exact .inr ⟨u, List.mem_cons_of_mem _ hu⟩

/-! ## Unions -/

/-- The alternatives of a union besides null. -/
def others (ts : List (Ty R E)) : List (Ty R E) := ts.filter fun t => !t.isNull

theorem isNull_iff {t : Ty R E} : t.isNull = true ↔ t = .null := by
  cases t <;> simp [Ty.isNull]

theorem mem_others_iff {ts : List (Ty R E)} {t : Ty R E} : t ∈ others ts ↔ t ∈ ts ∧ t ≠ .null := by
  rw [others, List.mem_filter, Bool.not_eq_true', ← Bool.not_eq_true, isNull_iff]

theorem length_others_lt_iff {ts : List (Ty R E)} :
    (others ts).length < ts.length ↔ Ty.null ∈ ts := by
  rw [others, List.length_filter_lt_length_iff_exists]
  constructor
  · rintro ⟨t, ht, hnull⟩
    rwa [← isNull_iff.1 (by simpa using hnull)]
  · intro h
    exact ⟨.null, h, by simp [Ty.isNull]⟩

theorem decodeAt_union (ts : List (Ty R E)) (x : Json) :
    S.decodeAt σ (.union ts) x = S.readUnion σ (S.layer σ x)
      (ts.map fun t => (t, S.readAs σ (S.layer σ x) t)) := by
  rw [decodeAt_eq_readAs, readAs, readAlternatives_eq_map]

theorem filter_readings (ts : List (Ty R E)) (x : Json) :
    ((ts.map fun t => (t, S.readAs σ (S.layer σ x) t)).filter fun (t, _) => !t.isNull) =
      (others ts).map fun t => (t, S.readAs σ (S.layer σ x) t) := by
  rw [List.filter_map]
  rfl

theorem skips_iff {ts : List (Ty R E)} {x : Json} :
    ((S.layer σ x).isNull && decide (((others ts).map fun t =>
        (t, S.readAs σ (S.layer σ x) t)).length < (ts.map fun t =>
          (t, S.readAs σ (S.layer σ x) t)).length)) = true ↔
      x = .null ∧ Ty.null ∈ ts := by
  rw [Bool.and_eq_true, isNull_layer_iff, decide_eq_true_iff, List.length_map, List.length_map,
    length_others_lt_iff]

theorem decodeAt_union_null {ts : List (Ty R E)} (h : Ty.null ∈ ts) :
    S.decodeAt σ (.union ts) .null = .ok .null := by
  rw [decodeAt_union, readUnion, filter_readings]
  exact if_pos (skips_iff.2 ⟨rfl, h⟩)

/-- An open enumeration reads every datum that null does not stand for in a way of its own. -/
theorem decodeAt_union_open {ts : List (Ty R E)} {e : E} {x : Json}
    (ho : others ts = [.enumeration e, .unknown]) (h : ¬(x = .null ∧ Ty.null ∈ ts)) :
    S.decodeAt σ (.union ts) x = S.readOpen σ e (S.layer σ x) := by
  rw [decodeAt_union, readUnion, filter_readings]
  refine (if_neg (skips_iff.not.2 h)).trans ?_
  rw [ho]
  rfl

theorem decodeAt_union_singleton {ts : List (Ty R E)} {t : Ty R E} {x : Json}
    (ho : others ts = [t]) (h : ¬(x = .null ∧ Ty.null ∈ ts)) :
    S.decodeAt σ (.union ts) x = S.decodeAt σ t x := by
  rw [decodeAt_union, readUnion, filter_readings]
  refine (if_neg (skips_iff.not.2 h)).trans ?_
  rw [ho, decodeAt_eq_readAs]
  rfl

/-- Every other union searches its alternatives, and names all of them if none reads the datum. -/
theorem decodeAt_union_of_many {ts : List (Ty R E)} {x : Json}
    (ho : openEnumeration? (others ts) = none) (hmany : ∀ t, others ts ≠ [t])
    (h : ¬(x = .null ∧ Ty.null ∈ ts)) :
    S.decodeAt σ (.union ts) x =
      S.choose (S.layer σ x) none ((others ts).map fun t => (t, S.readAs σ (S.layer σ x) t)) >>=
        fun v? => match v? with
          | some v => .ok v
          | none => .error (.here (.noAlternative ((others ts).map S.typeName))) := by
  rw [decodeAt_union, readUnion, filter_readings]
  refine (if_neg (skips_iff.not.2 h)).trans ?_
  generalize others ts = us at ho hmany
  split
  · rename_i t reading heq
    obtain ⟨u, hu, -⟩ := List.map_eq_singleton_iff.1 heq
    exact absurd hu (hmany u)
  · rename_i e _ _ heq
    have hus : us = [.enumeration e, .unknown] := by
      have hmap := congrArg (List.map Prod.fst) heq
      simpa [Function.comp_def] using hmap
    rw [hus] at ho
    cases ho
  · rw [List.map_map]
    rfl

/-- Every union but the open enumerations reads a datum that null does not stand for as the chosen
alternative does. -/
theorem decodeAt_union_eq_ok_iff {ts : List (Ty R E)} {x : Json} {v : Value R E}
    (ho : openEnumeration? (others ts) = none) (h : ¬(x = .null ∧ Ty.null ∈ ts))
    (hlarge : ∀ t ∈ others ts, S.decodeAt σ t x ≠ .error .tooLarge) :
    S.decodeAt σ (.union ts) x = .ok v ↔ S.chosen? σ x (others ts) = some v := by
  by_cases hone : ∃ t, others ts = [t]
  · obtain ⟨t, ht⟩ := hone
    rw [decodeAt_union_singleton ht h, ht, chosen?_singleton]
  · rw [decodeAt_union_of_many ho (fun t ht => hone ⟨t, ht⟩) h,
      choose_eq_chosen? (none : Option (Value R E)) hlarge, Option.none_or, ← chosen?]
    cases S.chosen? σ x (others ts) <;> simp [bind, Except.bind]

theorem decodeAt_union_of_unique {ts : List (Ty R E)} {x : Json} {t : Ty R E} {v : Value R E}
    (ho : openEnumeration? (others ts) = none) (h : ¬(x = .null ∧ Ty.null ∈ ts))
    (hlarge : ∀ t ∈ others ts, S.decodeAt σ t x ≠ .error .tooLarge) (ht : t ∈ others ts)
    (hread : S.decodeAt σ t x = .ok v)
    (hunique : ∀ u ∈ others ts, ∀ w, S.decodeAt σ u x = .ok w → w = v) :
    S.decodeAt σ (.union ts) x = .ok v := by
  obtain ⟨w, hw⟩ := exists_chosen? ht hread
  obtain ⟨u, hu, huw⟩ := exists_of_chosen? hw
  rw [decodeAt_union_eq_ok_iff ho h hlarge, hw, hunique u hu w huw]

/-- A value that a union reads is null, the reading as an alternative, or that of an open
enumeration. -/
theorem cases_of_decodeAt_union {ts : List (Ty R E)} {x : Json} {v : Value R E}
    (h : S.decodeAt σ (.union ts) x = .ok v) :
    v = .null ∨ (∃ t ∈ ts, S.decodeAt σ t x = .ok v) ∨
      ∃ e, S.readOpen σ e (S.layer σ x) = .ok v := by
  by_cases hnull : x = .null ∧ Ty.null ∈ ts
  · rw [hnull.1, decodeAt_union_null hnull.2] at h
    exact .inl (Except.ok.inj h).symm
  · rw [decodeAt_union, readUnion, filter_readings] at h
    replace h := (if_neg (skips_iff.not.2 hnull)).symm.trans h
    refine .inr ?_
    split at h
    · rename_i t reading heq
      obtain ⟨u, hu, hreading⟩ := List.map_eq_singleton_iff.1 heq
      have hmem : u ∈ others ts := by simp [hu]
      refine .inl ⟨u, (mem_others_iff.1 hmem).1, ?_⟩
      rw [decodeAt_eq_readAs, (Prod.mk.inj hreading).2, h]
    · exact .inr ⟨_, h⟩
    · obtain ⟨w?, hchoose, hw⟩ := bind_eq_ok_iff.1 h
      cases w? with
      | none => cases hw
      | some w =>
        cases hw
        obtain hfallback | ⟨t, ht⟩ := exists_of_choose hchoose
        · cases hfallback
        · obtain ⟨u, hu, hreading⟩ := List.mem_map.1 ht
          refine .inl ⟨u, (mem_others_iff.1 hu).1, ?_⟩
          rw [decodeAt_eq_readAs, (Prod.mk.inj hreading).2]

end Schema

end LspWire
