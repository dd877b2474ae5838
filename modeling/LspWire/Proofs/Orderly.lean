import LspWire.Proofs.References
import LspWire.Proofs.Separation

/-!
# Types in order

Apart from numbers with a fraction and open enumerations of flags, the types that references stand for
are regular and their unions are separated. The proof keeps track of what stands beside an enumeration
among the alternatives of a type: raw values and null, and nothing else.
-/

namespace LspWire

namespace Protocol

/-- Whether a type is no number with a fraction and no union of an enumeration of flags and raw
values. -/
def isSteadyAt : DataType → Bool
  | .float => false
  | .union ts => !(ts.any (·.isUnknown) && ts.any isFlags)
  | _ => true

/-- Whether a type is not built over numbers with a fraction or open enumerations of flags. -/
def isSteady (t : DataType) : Bool := t.every isSteadyAt

/-- Beside an enumeration stand raw values and null only. -/
def KeepsRaw (ts : List DataType) : Prop :=
  ∀ e, Ty.enumeration e ∈ ts → (Schema.others ts).Sublist [.enumeration e, .unknown]

/-- What the types that references stand for have in common. -/
structure IsOrderly (t : DataType) : Prop where
  regular : schema.isRegular t = true
  settled : isSettled areAligned t = true
  raw : KeepsRaw t.alternatives

variable {t u : DataType}

/-! ## Alternatives -/

theorem eq_unknown (h : t.isUnknown = true) : t = .unknown := by
  cases t <;> first | rfl | cases h

theorem exists_enumeration (h : t.isEnumeration = true) : ∃ e, t = .enumeration e := by
  cases t <;> first | exact ⟨_, rfl⟩ | cases h

theorem keepsRaw_singleton (t : DataType) : KeepsRaw [t] := by
  intro e he
  rw [List.mem_singleton] at he
  rw [← he]
  exact (List.Sublist.refl [Ty.enumeration e]).append (List.nil_sublist [Ty.unknown])

theorem KeepsRaw.sublist {ts us : List DataType} (h : KeepsRaw ts) (hsub : us.Sublist ts) :
    KeepsRaw us := fun e he => (hsub.filter _).trans (h e (hsub.subset he))

/-- An orderly type has orderly alternatives that are no unions. -/
theorem IsOrderly.alternative (h : IsOrderly t) (hu : u ∈ t.alternatives) :
    IsOrderly u ∧ u.isUnion = false := by
  cases t with
  | union ts =>
    obtain ⟨hregular, hunion⟩ := Schema.isRegular_of_mem h.regular hu
    refine ⟨⟨hregular, Ty.every_of_every_union h.settled u hu, ?_⟩, hunion⟩
    cases u with
    | union us => cases hunion
    | _ => exact keepsRaw_singleton _
  | _ =>
    rw [List.mem_singleton.1 hu]
    exact ⟨h, rfl⟩

theorem IsOrderly.pairwise (h : IsOrderly t) :
    (Schema.others t.alternatives).Pairwise fun u t => isSeparated areAligned u t = true := by
  cases t with
  | union ts =>
    have hseparated := Ty.of_every h.settled
    exact of_decide_eq_true hseparated
  | _ => exact (List.pairwise_singleton _ _).sublist List.filter_sublist

theorem eq_of_sublist_open {us : List DataType} {e : EnumName}
    (h : us.Sublist [.enumeration e, .unknown]) (he : Ty.enumeration e ∈ us)
    (hu : Ty.unknown ∈ us) : us = [.enumeration e, .unknown] := by
  cases h with
  | cons _ h => cases h.subset he with
    | tail _ h => cases h
  | cons_cons _ h =>
    cases h with
    | cons _ h =>
      rw [List.sublist_nil.1 h] at hu
      cases hu with
      | tail _ h => cases h
    | cons_cons _ h => rw [List.sublist_nil.1 h]

/-- Raw values stand beside members only where an enumeration is open. -/
theorem keepsRawApart_of_keepsRaw {ts : List DataType} (h : KeepsRaw ts)
    (hsteady : (ts.any (·.isUnknown) && ts.any isFlags) = false) :
    schema.keepsRawApart ts = true := by
  rw [Schema.keepsRawApart]
  split
  · rename_i e hopen
    have hothers := Schema.eq_of_openEnumeration? hopen
    have hmem {t : DataType} (ht : t ∈ Schema.others ts) : t ∈ ts :=
      (Schema.mem_others_iff.1 ht).1
    rw [Bool.not_eq_true']
    by_contra hflags
    rw [Bool.and_eq_false_iff, List.any_eq_false, List.any_eq_false] at hsteady
    rcases hsteady with hunknown | hflags'
    · exact hunknown .unknown (hmem (by simp [hothers])) rfl
    · exact hflags' (.enumeration e) (hmem (by simp [hothers])) (Bool.not_eq_false _ ▸ hflags)
  · rename_i hopen
    rw [Bool.not_eq_true']
    by_contra hboth
    rw [Bool.not_eq_false, Bool.and_eq_true, List.any_eq_true, List.any_eq_true] at hboth
    obtain ⟨⟨t, ht, hunknown⟩, ⟨u, hu, henumeration⟩⟩ := hboth
    obtain rfl := eq_unknown hunknown
    obtain ⟨e, rfl⟩ := exists_enumeration henumeration
    rw [eq_of_sublist_open (h e hu) (Schema.mem_others_iff.2 ⟨hu, fun h => by cases h⟩)
      (Schema.mem_others_iff.2 ⟨ht, fun h => by cases h⟩)] at hopen
    cases hopen

theorem isOrderly_union {us : List DataType} (hts : ∀ t ∈ us, IsOrderly t ∧ t.isUnion = false)
    (hraw : KeepsRaw us) (hsteady : isSteadyAt (.union us) = true)
    (hpairwise : (Schema.others us).Pairwise fun u t => isSeparated areAligned u t = true) :
    IsOrderly (.union us) := by
  refine ⟨?_, ?_, hraw⟩
  · rw [Schema.isRegular, Ty.every_union, Bool.and_eq_true, List.all_eq_true]
    refine ⟨?_, fun t ht => (hts t ht).1.regular⟩
    rw [Schema.isRegularAt, Bool.and_eq_true, List.all_eq_true]
    refine ⟨fun t ht => ?_, ?_⟩
    · rw [(hts t ht).2]
      rfl
    · exact keepsRawApart_of_keepsRaw hraw (by rwa [isSteadyAt, Bool.not_eq_true'] at hsteady)
  · rw [isSettled, Ty.every_union, Bool.and_eq_true, List.all_eq_true]
    exact ⟨decide_eq_true hpairwise, fun t ht => (hts t ht).1.settled⟩

/-! ## Optional and opened types -/

theorem isOrderly_added (h : IsAdded u) : IsOrderly u ∧ u.isUnion = false := by
  obtain rfl | rfl := h <;> exact ⟨⟨rfl, rfl, keepsRaw_singleton _⟩, rfl⟩

theorem keepsRaw_added (h : IsAdded u) {ts : List DataType} (hts : KeepsRaw ts) :
    KeepsRaw (Ty.distinct (ts ++ [u])) := by
  have hraw := hts.sublist (Ty.distinct_sublist ts)
  rw [Ty.distinct_append_singleton]
  split
  · exact hraw
  · rename_i hnew
    intro e he
    replace he : Ty.enumeration e ∈ Ty.distinct ts := by
      rcases List.mem_append.1 he with he | he
      · exact he
      · obtain rfl | rfl := h <;> cases List.mem_singleton.1 he
    rw [Schema.others, List.filter_append]
    obtain rfl | rfl := h
    · exact (List.append_nil _).symm ▸ hraw e he
    · -- Raw values are new, so the enumeration stands beside null only.
      have hnone : ∀ t ∈ Schema.others (Ty.distinct ts), (!Ty.isUnknown t) = true := by
        intro t ht
        rw [Bool.not_eq_true']
        by_contra hunknown
        rw [Bool.not_eq_false] at hunknown
        rw [eq_unknown hunknown] at ht
        exact hnew (List.any_eq_true.2 ⟨_, (Schema.mem_others_iff.1 ht).1, rfl⟩)
      have hsub := (hraw e he).filter fun t => !t.isUnknown
      rw [List.filter_eq_self.2 hnone] at hsub
      exact hsub.append (List.Sublist.refl [Ty.unknown])

/-- Raw values are data of no other alternative that is a list or an object. -/
theorem isSeparated_unknown (merges : RecordName → RecordName → Bool) (t : DataType) :
    isSeparated merges t .unknown = true := by
  unfold isSeparated
  split
  · rename_i heq
    cases heq
  · rename_i heq
    cases heq
  · exact (congrArg₂ (fun a b => !a && !b) (Bool.and_false _) (Bool.and_false _)).trans rfl

theorem pairwise_added (h : IsAdded u) {ts : List DataType}
    (hts : (Schema.others ts).Pairwise fun u t => isSeparated areAligned u t = true) :
    (Schema.others (Ty.distinct (ts ++ [u]))).Pairwise fun u t =>
      isSeparated areAligned u t = true := by
  refine List.Pairwise.sublist ((Ty.distinct_sublist _).filter _) ?_
  rw [List.filter_append, List.pairwise_append]
  refine ⟨hts, (List.pairwise_singleton _ u).sublist List.filter_sublist, fun t _ v hv => ?_⟩
  obtain rfl | rfl := h
  · cases hv
  · rw [List.mem_singleton.1 hv]
    exact isSeparated_unknown _ t

theorem isOrderly_oneOf (h : IsAdded u) (ht : IsOrderly t)
    (hsteady : isSteady (Ty.oneOf [t, u]) = true) : IsOrderly (Ty.oneOf [t, u]) := by
  have hmem : ∀ v ∈ Ty.distinct (t.alternatives ++ [u]), IsOrderly v ∧ v.isUnion = false := by
    intro v hv
    rcases List.mem_append.1 ((Ty.distinct_sublist _).subset hv) with hv | hv
    · exact ht.alternative hv
    · rw [List.mem_singleton.1 hv]
      exact isOrderly_added h
  obtain ⟨v, hone, heq⟩ | heq := Ty.oneOf_cases [t, u]
  · rw [flatMap_alternatives h] at hone
    rw [heq]
    exact (hmem v (hone ▸ List.mem_cons_self)).1
  · rw [flatMap_alternatives h] at heq
    rw [heq] at hsteady ⊢
    exact isOrderly_union hmem (keepsRaw_added h ht.raw) (Ty.of_every hsteady)
      (pairwise_added h ht.pairwise)

theorem isSteady_of_oneOf (h : IsAdded u) (hsteady : isSteady (Ty.oneOf [t, u]) = true) :
    isSteady t = true := by
  have hmem {v : DataType} (hv : v ∈ t.alternatives) :
      v ∈ Ty.distinct ([t, u].flatMap Ty.alternatives) := by
    rw [flatMap_alternatives h]
    exact Ty.mem_distinct (List.mem_append_left _ hv)
  have hall : (∀ v ∈ t.alternatives, isSteady v = true) ∧
      (t.alternatives.any (·.isUnknown) && t.alternatives.any isFlags) = false := by
    obtain ⟨w, hone, heq⟩ | heq := Ty.oneOf_cases [t, u]
    · rw [hone] at hmem
      rw [heq] at hsteady
      refine ⟨fun v hv => ?_, ?_⟩
      · rw [List.mem_singleton.1 (hmem hv)]
        exact hsteady
      · by_contra hboth
        rw [Bool.not_eq_false, Bool.and_eq_true, List.any_eq_true, List.any_eq_true] at hboth
        obtain ⟨⟨v, hv, hunknown⟩, ⟨v', hv', hflags⟩⟩ := hboth
        rw [eq_unknown hunknown] at hv
        rw [List.mem_singleton.1 (hmem hv'), ← List.mem_singleton.1 (hmem hv)] at hflags
        cases hflags
    · rw [heq] at hsteady
      have hunion := Ty.of_every hsteady
      rw [isSteadyAt, Bool.not_eq_true'] at hunion
      refine ⟨fun v hv => Ty.every_of_every_union hsteady v (hmem hv), ?_⟩
      by_contra hboth
      rw [Bool.not_eq_false, Bool.and_eq_true, List.any_eq_true, List.any_eq_true] at hboth
      obtain ⟨⟨v, hv, hunknown⟩, ⟨v', hv', hflags⟩⟩ := hboth
      rw [Bool.and_eq_false_iff, List.any_eq_false, List.any_eq_false] at hunion
      rcases hunion with hunion | hunion
      · exact hunion v (hmem hv) hunknown
      · exact hunion v' (hmem hv') hflags
  cases t with
  | union ts =>
    rw [isSteady, Ty.every_union, Bool.and_eq_true, List.all_eq_true]
    refine ⟨?_, hall.1⟩
    rw [isSteadyAt, Bool.not_eq_true']
    exact hall.2
  | _ => exact hall.1 _ List.mem_cons_self

/-! ## References -/

/-- Whether a type with a name is a number with a fraction or orderly. -/
theorem all_named : ((TypeRef.primitives ++ namedTypes).all fun named =>
    !isSteady named.2 || (schema.isRegular named.2 && isSettled areAligned named.2 &&
      named.2.alternatives.all fun t => !t.isEnumeration)) = true := by
  rfl

/-- Every type with a name is steady, but numbers with a fraction. -/
theorem isSteady_of_ofName {text : String} (h : TypeRef.ofName text = .ok t)
    (hname : text ≠ "float") : isSteady t = true := by
  have hall : ((TypeRef.primitives ++ namedTypes).all fun named =>
      named.1 = "float" || isSteady named.2) = true := rfl
  rw [TypeRef.ofName] at h
  split at h
  · rename_i t' hlookup
    cases h
    have hnamed := List.all_eq_true.1 hall _ (Entries.mem_of_lookup hlookup)
    rw [Bool.or_eq_true, decide_eq_true_iff] at hnamed
    exact hnamed.resolve_left hname
  · obtain ⟨name, -, rfl⟩ := map_eq_ok_iff.1 h
    cases name <;> rfl

/-- The types that references stand for are orderly. -/
theorem isOrderly_of_resolve {type : TypeRef} (h : type.resolve = .ok t)
    (hsteady : isSteady t = true) : IsOrderly t := by
  induction type generalizing t with
  | named text =>
    rw [TypeRef.resolve, TypeRef.ofName] at h
    split at h
    · rename_i t' hlookup
      cases h
      have hnamed := List.all_eq_true.1 all_named _ (Entries.mem_of_lookup hlookup)
      simp only [hsteady, Bool.not_true, Bool.false_or, Bool.and_eq_true] at hnamed
      refine ⟨hnamed.1.1, hnamed.1.2, fun e he => ?_⟩
      have hne := List.all_eq_true.1 hnamed.2 _ he
      cases hne
    · obtain ⟨name, -, rfl⟩ := map_eq_ok_iff.1 h
      cases name with
      | record r => exact ⟨rfl, rfl, keepsRaw_singleton _⟩
      | enumeration e => exact ⟨rfl, rfl, keepsRaw_singleton _⟩
  | list item ih =>
    obtain ⟨item, hitem, rfl⟩ := map_eq_ok_iff.1 h
    have ht := ih hitem (Ty.every_of_every_list hsteady)
    refine ⟨?_, ?_, keepsRaw_singleton _⟩
    · rw [Schema.isRegular, Ty.every_list]
      exact ht.regular
    · rw [isSettled, Ty.every_list]
      exact ht.settled
  | map item ih =>
    obtain ⟨item, hitem, rfl⟩ := map_eq_ok_iff.1 h
    have ht := ih hitem (Ty.every_of_every_map hsteady)
    refine ⟨?_, ?_, keepsRaw_singleton _⟩
    · rw [Schema.isRegular, Ty.every_map]
      exact ht.regular
    · rw [isSettled, Ty.every_map]
      exact ht.settled
  | optional base ih =>
    obtain ⟨base, hbase, rfl⟩ := map_eq_ok_iff.1 h
    have hadded : IsAdded (.null : DataType) := .inl rfl
    exact isOrderly_oneOf hadded (ih hbase (isSteady_of_oneOf hadded hsteady)) hsteady
  | opened base ih =>
    obtain ⟨base, hbase, rfl⟩ := map_eq_ok_iff.1 h
    have hadded : IsAdded (.unknown : DataType) := .inr rfl
    exact isOrderly_oneOf hadded (ih hbase (isSteady_of_oneOf hadded hsteady)) hsteady

end Protocol

end LspWire
