import LspWire.Proofs.Faults.Places
import Mathlib.Data.List.Perm.Basic

/-!
# Data and values up to the order of keys

Two lists of entries are reordered if the entries of one are those of the other in some order, up to
a relation between what stands under equal keys. Data is reordered if this holds of all its objects,
at every depth, and so are values whose maps differ in nothing but the order of their entries.
-/

namespace LspWire

variable {R E α β γ : Type}

/-! ## Entries -/

namespace Entries

/-- Whether entries are the same up to their order and a relation of what stands under equal keys.
-/
def Reordered (r : α → β → Prop) (xs : List (String × α)) (ys : List (String × β)) : Prop :=
  ∃ zs : List (String × β), List.Forall₂ (fun x z => x.1 = z.1 ∧ r x.2 z.2) xs zs ∧ zs.Perm ys

variable {r : α → β → Prop} {xs : List (String × α)} {ys : List (String × β)}

theorem forall₂_iff {zs : List (String × β)} :
    List.Forall₂ (fun x z => x.1 = z.1 ∧ r x.2 z.2) xs zs ↔
      xs.map Prod.fst = zs.map Prod.fst ∧ List.Forall₂ r (xs.map Prod.snd) (zs.map Prod.snd) := by
  induction xs generalizing zs with
  | nil => cases zs <;> simp
  | cons x xs ih => cases zs <;> simp [ih, and_and_and_comm]

/-- Where keys are distinct, a search finds the same in every order. -/
theorem lookup_eq_of_perm {xs ys : List (String × α)} (h : xs.Perm ys)
    (hd : (xs.map Prod.fst).Nodup) (key : String) : xs.lookup key = ys.lookup key := by
  have hd' : (ys.map Prod.fst).Nodup := (h.map Prod.fst).nodup_iff.1 hd
  cases hx : xs.lookup key with
  | some x => exact (lookup_of_mem hd' (h.mem_iff.1 (mem_of_lookup hx))).symm
  | none =>
    rw [lookup_eq_none_iff, (h.map Prod.fst).mem_iff] at hx
    exact (lookup_eq_none_iff.2 hx).symm

namespace Reordered

theorem of_forall₂ (h : List.Forall₂ (fun x y => x.1 = y.1 ∧ r x.2 y.2) xs ys) :
    Reordered r xs ys :=
  ⟨ys, h, .refl ys⟩

theorem perm_keys (h : Reordered r xs ys) : (xs.map Prod.fst).Perm (ys.map Prod.fst) := by
  obtain ⟨zs, hzs, hperm⟩ := h
  rw [(forall₂_iff.1 hzs).1]
  exact hperm.map Prod.fst

theorem length_eq (h : Reordered r xs ys) : xs.length = ys.length := by
  have hlength := h.perm_keys.length_eq
  rwa [List.length_map, List.length_map] at hlength

theorem all_key (h : Reordered r xs ys) (p : String → Bool) :
    xs.all (fun x => p x.1) = ys.all fun y => p y.1 := by
  rw [Bool.eq_iff_iff, List.all_eq_true, List.all_eq_true]
  have hkeys (key : String) : key ∈ xs.map Prod.fst ↔ key ∈ ys.map Prod.fst := h.perm_keys.mem_iff
  simp only [← List.forall_mem_map (f := Prod.fst) (P := fun key => p key = true), hkeys]

theorem filter_key (h : Reordered r xs ys) (p : String → Bool) :
    Reordered r (xs.filter fun x => p x.1) (ys.filter fun y => p y.1) := by
  obtain ⟨zs, hzs, hperm⟩ := h
  refine ⟨zs.filter fun z => p z.1, ?_, hperm.filter _⟩
  clear hperm
  induction hzs with
  | nil => exact .nil
  | @cons x z xs zs hxz _ ih =>
    rw [List.filter_cons, List.filter_cons, hxz.1]
    split
    · exact .cons hxz ih
    · exact ih

theorem map_values {δ : Type} {q : γ → δ → Prop} {f : α → γ} {g : β → δ} (h : Reordered r xs ys)
    (hrq : ∀ x ∈ xs, ∀ y, r x.2 y → q (f x.2) (g y)) :
    Reordered q (xs.map fun x => (x.1, f x.2)) (ys.map fun y => (y.1, g y.2)) := by
  obtain ⟨zs, hzs, hperm⟩ := h
  refine ⟨zs.map fun z => (z.1, g z.2), ?_, hperm.map _⟩
  rw [List.forall₂_map_left_iff, List.forall₂_map_right_iff]
  exact forall₂_imp_of_mem hzs fun x hx z _ hxz => ⟨hxz.1, hrq x hx z.2 hxz.2⟩

theorem rel_lookup (h : Reordered r xs ys) (hd : (xs.map Prod.fst).Nodup) (key : String) :
    Option.Rel r (xs.lookup key) (ys.lookup key) := by
  obtain ⟨zs, hzs, hperm⟩ := h
  rw [← lookup_eq_of_perm hperm ((forall₂_iff.1 hzs).1 ▸ hd)]
  exact Entries.rel_lookup hzs key

end Reordered

end Entries

/-! ## Data -/

namespace Json

/-- Whether data differs in nothing but the order of the keys of its objects. -/
inductive Reordered : Json → Json → Prop where
  | scalar (s : Scalar) : Reordered (.scalar s) (.scalar s)
  | arr {xs ys : List Json} (h : List.Forall₂ Reordered xs ys) : Reordered (.arr xs) (.arr ys)
  | obj {xs zs ys : List (String × Json)} (hkeys : xs.map Prod.fst = zs.map Prod.fst)
    (hdata : List.Forall₂ Reordered (xs.map Prod.snd) (zs.map Prod.snd)) (hperm : zs.Perm ys) :
    Reordered (.obj xs) (.obj ys)

theorem reordered_obj_iff {xs ys : List (String × Json)} :
    Reordered (.obj xs) (.obj ys) ↔ Entries.Reordered Reordered xs ys := by
  constructor
  · intro h
    cases h with
    | obj hkeys hdata hperm => exact ⟨_, Entries.forall₂_iff.2 ⟨hkeys, hdata⟩, hperm⟩
  · rintro ⟨zs, hzs, hperm⟩
    exact .obj (Entries.forall₂_iff.1 hzs).1 (Entries.forall₂_iff.1 hzs).2 hperm

end Json

/-! ## Values -/

namespace Value

/-- Whether values differ in nothing but the order of the entries of their maps. -/
inductive Reordered : Value R E → Value R E → Prop where
  | scalar (s : Scalar) : Reordered (.scalar s) (.scalar s)
  | list {vs ws : List (Value R E)} (h : List.Forall₂ Reordered vs ws) :
    Reordered (.list vs) (.list ws)
  | map {vs us ws : List (String × Value R E)} (hkeys : vs.map Prod.fst = us.map Prod.fst)
    (hdata : List.Forall₂ Reordered (vs.map Prod.snd) (us.map Prod.snd)) (hperm : us.Perm ws) :
    Reordered (.map vs) (.map ws)
  | member (e : E) (m : Member) : Reordered (.member e m) (.member e m)
  | flags (e : E) (bits : Int) : Reordered (.flags e bits) (.flags e bits)
  | unknown (raw : Scalar) : Reordered (.unknown raw) (.unknown raw)
  | record (r : R) {vs ws : List (Value R E)} (h : List.Forall₂ Reordered vs ws) :
    Reordered (.record r vs) (.record r ws)

namespace Reordered

variable {v w : Value R E}

theorem of_entries {vs ws : List (String × Value R E)} (h : Entries.Reordered Reordered vs ws) :
    Reordered (.map vs) (.map ws) := by
  obtain ⟨us, hus, hperm⟩ := h
  exact .map (Entries.forall₂_iff.1 hus).1 (Entries.forall₂_iff.1 hus).2 hperm

@[refl] theorem refl (v : Value R E) : Reordered v v := by
  induction v using Value.induction with
  | scalar s => exact .scalar s
  | list items ih => exact .list (List.forall₂_same.2 ih)
  | map entries ih =>
    exact of_entries (.of_forall₂ (List.forall₂_same.2 fun entry hentry => ⟨rfl, ih entry hentry⟩))
  | member e m => exact .member e m
  | flags e bits => exact .flags e bits
  | unknown raw => exact .unknown raw
  | record r values ih => exact .record r (List.forall₂_same.2 ih)

theorem isNull_eq (h : Reordered v w) : v.isNull = w.isNull := by
  cases h <;> rfl

theorem toInt?_eq (h : Reordered v w) : v.toInt? = w.toInt? := by
  cases h <;> rfl

theorem exceeds?_eq (h : Reordered v w) (bound : Nat) : v.exceeds? bound = w.exceeds? bound := by
  cases h <;> rfl

/-- Free-form data that is reordered stands for values that are. -/
theorem ofJson {x y : Json} (h : x.Reordered y) :
    Reordered (Value.ofJson x : Value R E) (Value.ofJson y) := by
  induction x using Json.induction generalizing y with
  | scalar s =>
    cases h
    exact .refl _
  | arr xs ih =>
    cases h with
    | arr h =>
      rw [Value.ofJson, Value.ofJson, ofItems_eq_map, ofItems_eq_map]
      refine .list (List.forall₂_map_left_iff.2 (List.forall₂_map_right_iff.2 ?_))
      exact Entries.forall₂_imp_of_mem h fun x hx y _ => ih x hx
  | obj xs ih =>
    cases y with
    | obj ys =>
      rw [Value.ofJson, Value.ofJson, ofEntries_eq_map, ofEntries_eq_map]
      exact of_entries ((Json.reordered_obj_iff.1 h).map_values fun x hx y => ih x hx)
    | scalar _ => cases h
    | arr _ => cases h

end Reordered

end Value

end LspWire
