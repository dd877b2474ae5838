import LspWire.Proofs.Association
import LspWire.Proofs.Induction

/-!
# Data up to the order of keys

An object stands for what is found under each of its keys. Two data are the same if they differ in
nothing but the order of the keys of their objects.
-/

namespace LspWire.Json

/-- Equality of data up to the order of keys. -/
inductive Same : Json → Json → Prop where
  | scalar (s : Scalar) : Same (.scalar s) (.scalar s)
  | arr {xs ys : List Json} (hlength : xs.length = ys.length) (h : ∀ p ∈ xs.zip ys, Same p.1 p.2) :
    Same (.arr xs) (.arr ys)
  | obj {xs ys : List (String × Json)}
    (hkeys : ∀ key, (xs.lookup key).isSome = (ys.lookup key).isSome)
    (h : ∀ key x y, xs.lookup key = some x → ys.lookup key = some y → Same x y) :
    Same (.obj xs) (.obj ys)

namespace Same

variable {x y z : Json}

theorem of_forall₂ {xs ys : List Json} (h : List.Forall₂ Same xs ys) : Same (.arr xs) (.arr ys) :=
  .arr h.length_eq fun _ hp => List.forall₂_zip h hp

/-- Objects are the same if the same is found under every key. -/
theorem of_lookup {xs ys : List (String × Json)}
    (h : ∀ key, Option.Rel Same (xs.lookup key) (ys.lookup key)) : Same (.obj xs) (.obj ys) := by
  refine .obj (fun key => ?_) fun key x y hx hy => ?_
  · have hkey := h key
    revert hkey
    cases xs.lookup key <;> cases ys.lookup key <;> intro hkey <;> cases hkey <;> rfl
  · have hkey := h key
    rw [hx, hy] at hkey
    cases hkey with
    | some hxy => exact hxy

theorem of_entries {xs ys : List (String × Json)}
    (h : List.Forall₂ (fun x y => x.1 = y.1 ∧ Same x.2 y.2) xs ys) : Same (.obj xs) (.obj ys) := by
  refine of_lookup fun key => ?_
  induction h with
  | nil => exact .none
  | @cons x y xs ys hxy _ ih =>
    obtain ⟨k, x⟩ := x
    obtain ⟨k', y⟩ := y
    obtain ⟨rfl, hsame⟩ := hxy
    rw [List.lookup_cons, List.lookup_cons]
    cases key == k with
    | true => exact .some hsame
    | false => exact ih

@[refl] theorem refl (x : Json) : Same x x := by
  induction x using Json.induction with
  | scalar s => exact .scalar s
  | arr items ih => exact of_forall₂ (List.forall₂_same.2 ih)
  | obj entries ih =>
    refine of_lookup fun key => ?_
    cases hx : entries.lookup key with
    | none => exact .none
    | some x => exact .some (ih _ (Entries.mem_of_lookup hx))

theorem rel_lookup {xs ys : List (String × Json)} (h : Same (.obj xs) (.obj ys)) (key : String) :
    Option.Rel Same (xs.lookup key) (ys.lookup key) := by
  cases h with
  | obj hkeys h =>
    have hkey := hkeys key
    cases hx : xs.lookup key with
    | none =>
      rw [hx, Option.isSome_none, eq_comm, Option.isSome_eq_false_iff, Option.isNone_iff_eq_none]
        at hkey
      rw [hkey]
      exact .none
    | some x =>
      rw [hx] at hkey
      obtain ⟨y, hy⟩ := Option.isSome_iff_exists.1 hkey.symm
      rw [hy]
      exact .some (h key x y hx hy)

theorem of_eq (h : x = y) : Same x y := h ▸ refl x

theorem null_iff (h : Same x y) : x = .null ↔ y = .null := by
  cases h <;> simp

@[trans] theorem trans (hxy : Same x y) (hyz : Same y z) : Same x z := by
  induction x using Json.induction generalizing y z with
  | scalar s =>
    cases hxy
    exact hyz
  | arr xs ih =>
    cases hxy with
    | arr hlength hxy =>
      cases hyz with
      | arr hlength' hyz =>
        have hxs := List.forall₂_iff_zip.2 ⟨hlength, fun h => hxy _ h⟩
        have hys := List.forall₂_iff_zip.2 ⟨hlength', fun h => hyz _ h⟩
        exact of_forall₂ (Entries.forall₂_trans_of_mem hxs hys fun x hx y z => ih x hx)
  | obj xs ih =>
    cases hxy with
    | obj hkeys hxy =>
      cases hyz with
      | obj hkeys' hyz =>
        refine .obj (fun key => (hkeys key).trans (hkeys' key)) fun key x z hx hz => ?_
        have hkey := hkeys' key
        rw [hz] at hkey
        obtain ⟨y, hy⟩ := Option.isSome_iff_exists.1 hkey
        exact ih _ (Entries.mem_of_lookup hx) (hxy key x y hx hy) (hyz key y z hy hz)

end Same

end LspWire.Json
