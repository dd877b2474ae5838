import LspWire.Json.Basic
import Mathlib.Data.List.Forall2
import Mathlib.Data.List.Nodup

/-!
# Lists of entries

Objects, maps and named fields are lists of pairs, looked up by their first components. The lemmas
say what a search finds after the entries have been filtered by their keys, after their values have
been changed, and among things that are named by a list of names.
-/

namespace LspWire

namespace Entries

variable {α β : Type}

theorem lookup_filter_key (p : String → Bool) (entries : List (String × α)) (key : String) :
    (entries.filter fun entry => p entry.1).lookup key = if p key then entries.lookup key else none := by
  induction entries with
  | nil => simp
  | cons entry entries ih =>
    obtain ⟨k, x⟩ := entry
    by_cases hk : key = k
    · subst hk
      by_cases hp : p key = true
      · simp [hp]
      · simp [hp, ih]
    · have hk' : (key == k) = false := by simpa using hk
      by_cases hp : p k = true
      · simp [hp, List.lookup_cons, hk', ih]
      · simp [hp, List.lookup_cons, hk', ih]

theorem lookup_map_value (f : α → β) (entries : List (String × α)) (key : String) :
    (entries.map fun entry => (entry.1, f entry.2)).lookup key = (entries.lookup key).map f := by
  induction entries with
  | nil => rfl
  | cons entry entries ih =>
    obtain ⟨k, x⟩ := entry
    rw [List.map_cons, List.lookup_cons, List.lookup_cons, ih]
    cases key == k <;> rfl

theorem mem_of_lookup {entries : List (String × α)} {key : String} {x : α}
    (h : entries.lookup key = some x) : (key, x) ∈ entries := by
  obtain ⟨l, r, rfl, -⟩ := List.lookup_eq_some_iff.1 h
  simp

theorem lookup_of_mem {entries : List (String × α)} (hd : (entries.map Prod.fst).Nodup)
    {key : String} {x : α} (h : (key, x) ∈ entries) : entries.lookup key = some x := by
  induction entries with
  | nil => simp at h
  | cons entry entries ih =>
    obtain ⟨k, y⟩ := entry
    rw [List.map_cons, List.nodup_cons] at hd
    rcases List.mem_cons.1 h with heq | hmem
    · cases heq
      exact List.lookup_cons_self
    · have hne : key ≠ k := by
        rintro rfl
        exact hd.1 (List.mem_map.2 ⟨_, hmem, rfl⟩)
      have hne' : (key == k) = false := by simpa using hne
      rw [List.lookup_cons, hne']
      exact ih hd.2 hmem

/-- An entry that is put into an object is found under its key, and nothing else changes. -/
theorem lookup_put (key : String) (x : α) (entries : List (String × α)) (key' : String) :
    (Json.put key x entries).lookup key' = if key' = key then some x else entries.lookup key' := by
  induction entries with
  | nil =>
    rw [Json.put_nil, List.lookup_cons]
    by_cases h : key' = key
    · rw [if_pos h, h, beq_self_eq_true]
    · rw [if_neg h, beq_eq_false_iff_ne.2 h]
  | cons entry entries ih =>
    obtain ⟨k, v⟩ := entry
    rw [Json.put]
    by_cases hk : k = key
    · rw [if_pos hk, List.lookup_cons, List.lookup_cons, hk]
      by_cases h : key' = key
      · rw [if_pos h, h, beq_self_eq_true]
      · rw [if_neg h, beq_eq_false_iff_ne.2 h]
    · rw [if_neg hk, List.lookup_cons, List.lookup_cons, ih]
      by_cases h : key' = k
      · rw [h, beq_self_eq_true]
        exact (if_neg hk).symm
      · rw [beq_eq_false_iff_ne.2 h]

theorem isSome_lookup_iff {entries : List (String × α)} {key : String} :
    (entries.lookup key).isSome ↔ key ∈ entries.map Prod.fst := by
  rw [List.lookup_isSome_iff, List.mem_map]
  simp

theorem lookup_eq_none_iff {entries : List (String × α)} {key : String} :
    entries.lookup key = none ↔ key ∉ entries.map Prod.fst := by
  rw [← isSome_lookup_iff]
  cases entries.lookup key <;> simp

/-- A search among the entries that some things with distinct names give. -/
theorem lookup_filterMap {name : β → String} {g : β → Option α} {xs : List β}
    (hn : (xs.map name).Nodup) {x : β} (hx : x ∈ xs) :
    (xs.filterMap fun x => (g x).map fun y => (name x, y)).lookup (name x) = g x := by
  induction xs with
  | nil => cases hx
  | cons x' xs ih =>
    rw [List.map_cons, List.nodup_cons] at hn
    rcases List.mem_cons.1 hx with rfl | hx
    · cases hgx : g x with
      | some y => rw [List.filterMap_cons, hgx, Option.map_some, List.lookup_cons_self]
      | none =>
        rw [List.filterMap_cons, hgx, Option.map_none, lookup_eq_none_iff, List.mem_map]
        rintro ⟨entry, hentry, hkey⟩
        obtain ⟨x', hx', hentry⟩ := List.mem_filterMap.1 hentry
        obtain ⟨y, -, rfl⟩ := Option.map_eq_some_iff.1 hentry
        exact hn.1 (hkey ▸ List.mem_map_of_mem hx')
    · have hne : (name x == name x') = false := by
        rw [beq_eq_false_iff_ne]
        exact fun heq => hn.1 (heq ▸ List.mem_map_of_mem hx)
      rw [List.filterMap_cons]
      cases g x' with
      | none => exact ih hn.2 hx
      | some y => rw [Option.map_some, List.lookup_cons, hne, ih hn.2 hx]

theorem lookup_filterMap_eq_none {name : β → String} {g : β → Option α} {xs : List β} {key : String}
    (h : ∀ x ∈ xs, name x ≠ key) :
    (xs.filterMap fun x => (g x).map fun y => (name x, y)).lookup key = none := by
  rw [lookup_eq_none_iff, List.mem_map]
  rintro ⟨entry, hentry, rfl⟩
  obtain ⟨x, hx, hentry⟩ := List.mem_filterMap.1 hentry
  obtain ⟨y, -, rfl⟩ := Option.map_eq_some_iff.1 hentry
  exact h x hx rfl

theorem exists_left_of_forall₂ {r : α → β → Prop} {xs : List α} {ys : List β}
    (h : List.Forall₂ r xs ys) {y : β} (hy : y ∈ ys) : ∃ x ∈ xs, r x y := by
  induction h with
  | nil => cases hy
  | cons hxy _ ih =>
    rcases List.mem_cons.1 hy with rfl | hy
    · exact ⟨_, List.mem_cons_self, hxy⟩
    · obtain ⟨x, hx, hr⟩ := ih hy
      exact ⟨x, List.mem_cons_of_mem _ hx, hr⟩

theorem exists_right_of_forall₂ {r : α → β → Prop} {xs : List α} {ys : List β}
    (h : List.Forall₂ r xs ys) {x : α} (hx : x ∈ xs) : ∃ y ∈ ys, r x y :=
  exists_left_of_forall₂ (List.Forall₂.flip (R := fun y x => r x y) h) hx

theorem forall₂_imp_of_mem {r q : α → β → Prop} {xs : List α} {ys : List β}
    (h : List.Forall₂ r xs ys) (hrq : ∀ x ∈ xs, ∀ y ∈ ys, r x y → q x y) :
    List.Forall₂ q xs ys := by
  induction h with
  | nil => exact .nil
  | cons hxy _ ih =>
    refine .cons (hrq _ List.mem_cons_self _ List.mem_cons_self hxy) (ih fun x hx y hy => ?_)
    exact hrq x (List.mem_cons_of_mem _ hx) y (List.mem_cons_of_mem _ hy)

theorem forall₂_congr_of_mem {α β : Type} {r q : α → β → Prop} {xs : List α} {ys : List β}
    (h : ∀ x ∈ xs, ∀ y, r x y ↔ q x y) : List.Forall₂ r xs ys ↔ List.Forall₂ q xs ys :=
  ⟨fun hxs => forall₂_imp_of_mem hxs fun x hx y _ => (h x hx y).1,
    fun hxs => forall₂_imp_of_mem hxs fun x hx y _ => (h x hx y).2⟩

theorem forall₂_trans_of_mem {γ : Type} {r : α → β → Prop} {q : β → γ → Prop} {p : α → γ → Prop}
    {xs : List α} {ys : List β} {zs : List γ} (h : List.Forall₂ r xs ys)
    (h' : List.Forall₂ q ys zs) (hp : ∀ x ∈ xs, ∀ y z, r x y → q y z → p x z) :
    List.Forall₂ p xs zs := by
  induction h generalizing zs with
  | nil =>
    cases h'
    exact .nil
  | cons hxy _ ih =>
    cases h' with
    | cons hyz hyzs =>
      refine .cons (hp _ List.mem_cons_self _ _ hxy hyz) (ih hyzs fun x hx => ?_)
      exact hp x (List.mem_cons_of_mem _ hx)

theorem exists_forall₂ {r : α → β → Prop} {xs : List α} (h : ∀ x ∈ xs, ∃ y, r x y) :
    ∃ ys, List.Forall₂ r xs ys := by
  induction xs with
  | nil => exact ⟨[], .nil⟩
  | cons x xs ih =>
    rw [List.forall_mem_cons] at h
    obtain ⟨y, hy⟩ := h.1
    obtain ⟨ys, hys⟩ := ih h.2
    exact ⟨y :: ys, .cons hy hys⟩

/-- If every value of some entries has a partner, the partners form entries with the same keys. -/
theorem exists_forall₂_values {α β : Type} {r : α → β → Prop} {xs : List (String × α)}
    (h : ∀ x ∈ xs, ∃ b, r x.2 b) :
    ∃ ys : List (String × β), List.Forall₂ (fun x y => x.1 = y.1 ∧ r x.2 y.2) xs ys := by
  refine exists_forall₂ fun x hx => ?_
  obtain ⟨b, hb⟩ := h x hx
  exact ⟨(x.1, b), rfl, hb⟩

theorem rel_lookup {α β : Type} {r : α → β → Prop} {xs : List (String × α)}
    {ys : List (String × β)}
    (h : List.Forall₂ (fun x y => x.1 = y.1 ∧ r x.2 y.2) xs ys) (key : String) :
    Option.Rel r (xs.lookup key) (ys.lookup key) := by
  induction h with
  | nil => exact .none
  | @cons x y xs ys hxy _ ih =>
    obtain ⟨k, a⟩ := x
    obtain ⟨k', b⟩ := y
    obtain ⟨rfl, hab⟩ := hxy
    rw [List.lookup_cons, List.lookup_cons]
    cases key == k with
    | true => exact .some hab
    | false => exact ih

theorem forall₂_map_zip {γ : Type} {r : α → γ → Prop} {g : α × β → γ} {xs : List α} {ys : List β}
    (hlength : xs.length = ys.length) (h : ∀ p ∈ xs.zip ys, r p.1 (g p)) :
    List.Forall₂ r xs ((xs.zip ys).map g) := by
  induction xs generalizing ys with
  | nil => exact .nil
  | cons x xs ih =>
    cases ys with
    | nil => cases hlength
    | cons y ys =>
      rw [List.zip_cons_cons, List.forall_mem_cons] at h
      exact .cons h.1 (ih (Nat.succ.inj hlength) h.2)

theorem forall₂_map_zipWith {γ δ : Type} {r : α → β → Prop} {q : γ → δ → Prop} {g : β → γ}
    {k : β → α → δ} {xs : List α} {ys : List β} (h : List.Forall₂ r xs ys)
    (hq : ∀ x ∈ xs, ∀ y, r x y → q (g y) (k y x)) :
    List.Forall₂ q (ys.map g) (List.zipWith k ys xs) := by
  induction h with
  | nil => exact .nil
  | cons hxy _ ih =>
    rw [List.forall_mem_cons] at hq
    exact .cons (hq.1 _ hxy) (ih hq.2)

theorem exists_mem_zip {xs : List α} {ys : List β} (h : xs.length = ys.length) {y : β}
    (hy : y ∈ ys) : ∃ x, (x, y) ∈ xs.zip ys := by
  rw [← List.map_snd_zip (Nat.le_of_eq h.symm), List.mem_map] at hy
  obtain ⟨p, hp, rfl⟩ := hy
  exact ⟨p.1, hp⟩

theorem exists_mem_zip_left {xs : List α} {ys : List β} (h : xs.length = ys.length) {x : α}
    (hx : x ∈ xs) : ∃ y, (x, y) ∈ xs.zip ys := by
  rw [← List.map_fst_zip (Nat.le_of_eq h), List.mem_map] at hx
  obtain ⟨p, hp, rfl⟩ := hx
  exact ⟨p.2, hp⟩

end Entries

end LspWire
