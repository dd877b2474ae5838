import LspWire.Proofs.Failures
import LspWire.Proofs.KeyOrder.Reading
import LspWire.Proofs.Resolution

/-!
# Decoding of reordered data

The order of keys is irrelevant: data that is reordered is read alike as every type. The induction
is on the data, since a record may look at its fields as any type, and for one datum on the type.
-/

namespace LspWire

variable {R E : Type}

namespace Schema

variable {S : Schema R E} {σ : Surface} {x y : Json}

/-- The uppermost layers of reordered data are reordered, if the parts are read alike. -/
theorem layer_alike (h : x.Reordered y) (hx : x.HasDistinctKeys)
    (hparts : ∀ part ∈ x.parts, ∀ y, part.Reordered y →
      ∀ t, ReadAlike (S.decodeAt σ t part) (S.decodeAt σ t y)) :
    (S.layer σ x).Alike (S.layer σ y) := by
  have hreadable {part y : Json} (hpart : part ∈ x.parts) (h : part.Reordered y) :
      (S.readable σ part).Alike (S.readable σ y) :=
    ⟨by rwa [json_readable, json_readable], hparts part hpart y h⟩
  cases x with
  | scalar s =>
    cases h
    exact .scalar s
  | arr items =>
    cases h with
    | arr h =>
      refine .list (List.forall₂_map_left_iff.2 (List.forall₂_map_right_iff.2 ?_))
      exact Entries.forall₂_imp_of_mem h fun part hpart y _ => hreadable hpart
  | obj entries =>
    cases y with
    | obj entries' =>
      refine .map ?_ ((Json.reordered_obj_iff.1 h).map_values fun entry hentry y =>
        hreadable (List.mem_map_of_mem hentry))
      rw [List.map_map]
      exact hx.nodup_keys
    | scalar s => cases h
    | arr items => cases h

theorem decodeAt_union_alike {ts : List (Ty R E)} (h : x.Reordered y)
    (hlayer : (S.layer σ x).Alike (S.layer σ y))
    (hts : ∀ t ∈ ts, ReadAlike (S.decodeAt σ t x) (S.decodeAt σ t y)) :
    ReadAlike (S.decodeAt σ (.union ts) x) (S.decodeAt σ (.union ts) y) := by
  have hnull : x = .null ↔ y = .null := by
    cases h <;> simp
  by_cases hx : x = .null ∧ Ty.null ∈ ts
  · rw [hx.1, hnull.1 hx.1]
    exact .refl _
  have hy : ¬(y = .null ∧ Ty.null ∈ ts) := fun hy => hx ⟨hnull.2 hy.1, hy.2⟩
  cases hopen : openEnumeration? (others ts) with
  | some e =>
    have hothers := eq_of_openEnumeration? hopen
    rw [decodeAt_union_open hothers hx, decodeAt_union_open hothers hy, readOpen_of_alike hlayer]
    exact .refl _
  | none =>
    by_cases hone : ∃ t, others ts = [t]
    · obtain ⟨t, ht⟩ := hone
      rw [decodeAt_union_singleton ht hx, decodeAt_union_singleton ht hy]
      exact hts t (mem_others_iff.1 (ht ▸ List.mem_singleton_self t)).1
    · have hmany : ∀ t, others ts ≠ [t] := fun t ht => hone ⟨t, ht⟩
      rw [decodeAt_union_of_many hopen hmany hx, decodeAt_union_of_many hopen hmany hy]
      have hreadings : List.Forall₂ (fun p q => p.1 = q.1 ∧ ReadAlike p.2 q.2)
          ((others ts).map fun t => (t, S.readAs σ (S.layer σ x) t))
          ((others ts).map fun t => (t, S.readAs σ (S.layer σ y) t)) := by
        rw [List.forall₂_map_left_iff, List.forall₂_map_right_iff, List.forall₂_same]
        intro t ht
        have halike := hts t (mem_others_iff.1 ht).1
        rw [decodeAt_eq_readAs, decodeAt_eq_readAs] at halike
        exact ⟨rfl, halike⟩
      refine (choose_alike hlayer hreadings .none).bind fun v? w? hfound => ?_
      cases hfound with
      | some hvw => exact .ok hvw
      | none => exact .error (.refl _)

theorem decodeAt_alike (h : x.Reordered y) (hx : x.HasDistinctKeys) (t : Ty R E) :
    ReadAlike (S.decodeAt σ t x) (S.decodeAt σ t y) := by
  induction x using Json.partsInduction generalizing y t with
  | step x ih =>
    have hlayer : (S.layer σ x).Alike (S.layer σ y) :=
      layer_alike h hx fun part hpart y hy t => ih part hpart hy (hx.of_mem_parts hpart) t
    induction t using Ty.induction with
    | union ts ihts => exact decodeAt_union_alike h hlayer ihts
    | _ =>
      rw [decodeAt_eq_readAs, decodeAt_eq_readAs]
      exact readAs_alike hlayer (by simp)

theorem accounts_of_reordered (h : x.Reordered y) (t : Ty R E) :
    S.accounts t x = S.accounts t y := by
  cases x with
  | scalar s =>
    cases h
    rfl
  | arr items =>
    cases h
    rfl
  | obj entries =>
    cases y with
    | obj entries' =>
      cases t with
      | record r =>
        exact (Json.reordered_obj_iff.1 h).all_key fun key =>
          (S.record r).fields.any (·.name = key)
      | _ => rfl
    | scalar s => cases h
    | arr items => cases h

/-- Of some alternatives the same one is taken. -/
theorem resolved?_of_reordered (h : x.Reordered y) (hx : x.HasDistinctKeys) (ts : List (Ty R E)) :
    S.resolved? σ x ts = S.resolved? σ y ts := by
  have hreads : S.reads σ x = S.reads σ y := by
    funext t
    rw [Bool.eq_iff_iff, reads_iff, reads_iff]
    exact (decodeAt_alike h hx t).ok_iff
  rw [resolved?, resolved?, hreads]
  simp only [accounts_of_reordered h]

end Schema

namespace Protocol

/-- An edit of two documents, with its keys in one order. -/
def orderedEdit : Json :=
  .obj [("changes", .obj [("file:///a", .arr []), ("file:///b", .arr [])]),
    ("documentChanges", .arr [])]

/-- The same edit with its keys and its documents in the other order. -/
def reorderedEdit : Json :=
  .obj [("documentChanges", .arr []),
    ("changes", .obj [("file:///b", .arr []), ("file:///a", .arr [])])]

theorem reordered_reorderedEdit : orderedEdit.Reordered reorderedEdit := by
  refine .obj (by rfl) ?_ (.swap _ _ [])
  refine .cons ?_ (.cons (.arr .nil) .nil)
  exact .obj (by rfl) (.cons (.arr .nil) (.cons (.arr .nil) .nil)) (.swap _ _ [])

theorem hasDistinctKeys_orderedEdit : orderedEdit.HasDistinctKeys := by
  refine .obj (by decide) (List.forall_mem_cons.2 ⟨.obj (by decide) ?_, ?_⟩)
  · exact List.forall_mem_cons.2 ⟨.arr nofun, List.forall_mem_singleton.2 (.arr nofun)⟩
  · exact List.forall_mem_singleton.2 (.arr nofun)

/-- Data that differs in nothing but the order of the keys of its objects is decoded alike as every
type: as values that differ in nothing but the order of the entries of their maps, or with errors at
the same places. Of any alternatives the same one is taken. -/
theorem decode_reordered {x y : Json} (h : x.Reordered y) (hx : x.HasDistinctKeys) (enabled : Bool)
    (version? : Option SpecVersion) (t : DataType) :
    ((∃ v w, schema.decode enabled version? t x = .ok v ∧
        schema.decode enabled version? t y = .ok w ∧ v.Reordered w) ∨
      (∃ faults faults',
        schema.decode enabled version? t x =
            .error (.mismatch (.type (schema.typeName t) faults)) ∧
          schema.decode enabled version? t y =
            .error (.mismatch (.type (schema.typeName t) faults')) ∧
          (faults.map Fault.path).Perm (faults'.map Fault.path)) ∨
      ∃ e, (e = .tooLarge ∨ ∃ what, e = .refused (.disabled what)) ∧
        schema.decode enabled version? t x = .error e ∧
        schema.decode enabled version? t y = .error e) ∧
    ∀ ts : List DataType,
      schema.resolved? ⟨version?.getD (Surface.defaultVersion enabled), enabled⟩ x ts =
        schema.resolved? ⟨version?.getD (Surface.defaultVersion enabled), enabled⟩ y ts := by
  refine ⟨?_, Schema.resolved?_of_reordered h hx⟩
  by_cases hrefused : version? = some .v3_17 ∧ enabled = false
  · obtain ⟨rfl, rfl⟩ := hrefused
    exact .inr (.inr ⟨_, .inr ⟨_, rfl⟩, decode_of_refused t x, decode_of_refused t y⟩)
  · rw [decode_eq_decodeAt hrefused, decode_eq_decodeAt hrefused]
    obtain ⟨v, w, hv, hw, hvw⟩ | ⟨failure, failure', hv, hw, halike⟩ :=
      (Schema.decodeAt_alike h hx t).elim
    · rw [hv, hw]
      exact .inl ⟨v, w, rfl, rfl, hvw⟩
    · rw [hv, hw]
      cases halike with
      | tooLarge => exact .inr (.inr ⟨_, .inl rfl, rfl, rfl⟩)
      | faults hplaces => exact .inr (.inl ⟨_, _, rfl, rfl, hplaces⟩)

/-- The edit is read with its documents in the order of the data. -/
theorem decode_reordered_edit :
    orderedEdit.Reordered reorderedEdit ∧ orderedEdit.HasDistinctKeys ∧
      ∃ v w, schema.decode false none (.record .workspaceEdit) orderedEdit = .ok v ∧
        schema.decode false none (.record .workspaceEdit) reorderedEdit = .ok w ∧
        v.Reordered w := by
  refine ⟨reordered_reorderedEdit, hasDistinctKeys_orderedEdit, ?_⟩
  obtain ⟨hread | ⟨faults, faults', hx, -⟩ | ⟨e, -, hx, -⟩, -⟩ :=
    decode_reordered reordered_reorderedEdit hasDistinctKeys_orderedEdit false none
      (.record .workspaceEdit)
  · exact hread
  · cases hx
  · cases hx

end Protocol

end LspWire
