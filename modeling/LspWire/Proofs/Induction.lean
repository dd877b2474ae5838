import LspWire.Value.Basic

/-!
# Induction over types, data and values

Types, data and values hold lists of themselves. `Ty.induction`, `Json.induction` and
`Value.induction` give the hypothesis for every part of a list at once, so that a proof has one case
for each constructor. Where the case does not matter, `Json.partsInduction` gives the hypothesis for
the parts of data alone.

`Ty.every` is a condition on a type and on all types in it.
-/

namespace LspWire

/-- Induction over data, with the hypothesis for every item and every entry. -/
@[elab_as_elim] theorem Json.induction {motive : Json → Prop}
    (scalar : ∀ s, motive (.scalar s))
    (arr : ∀ items, (∀ x ∈ items, motive x) → motive (.arr items))
    (obj : ∀ entries, (∀ entry ∈ entries, motive entry.2) → motive (.obj entries)) (x : Json) :
    motive x :=
  go x
where
  go : ∀ x, motive x
    | .scalar s => scalar s
    | .arr items => arr items (goItems items)
    | .obj entries => obj entries (goEntries entries)
  goItems : ∀ (items : List Json), ∀ x ∈ items, motive x
    | [] => List.forall_mem_nil _
    | x :: xs => List.forall_mem_cons.2 ⟨go x, goItems xs⟩
  goEntries : ∀ (entries : List (String × Json)), ∀ entry ∈ entries, motive entry.2
    | [] => List.forall_mem_nil _
    | (_, x) :: entries => List.forall_mem_cons.2 ⟨go x, goEntries entries⟩

/-- The items or the data of the entries. -/
def Json.parts : Json → List Json
  | .scalar _ => []
  | .arr items => items
  | .obj entries => entries.map Prod.snd

/-- Induction over data, with the hypothesis for its parts. -/
theorem Json.partsInduction {motive : Json → Prop}
    (step : ∀ x : Json, (∀ part ∈ x.parts, motive part) → motive x) (x : Json) : motive x := by
  induction x using Json.induction with
  | scalar s => exact step _ (List.forall_mem_nil _)
  | arr items ih => exact step _ ih
  | obj entries ih =>
    refine step _ fun part hpart => ?_
    obtain ⟨entry, hentry, rfl⟩ := List.mem_map.1 hpart
    exact ih entry hentry

variable {R E : Type}

/-- Induction over types, with the hypothesis for every alternative. -/
@[elab_as_elim] theorem Ty.induction {motive : Ty R E → Prop}
    (any : motive .any) (null : motive .null) (str : motive .str) (int : motive .int)
    (bool : motive .bool) (float : motive .float) (listOfAny : motive .listOfAny)
    (unknown : motive .unknown) (literal : ∀ text, motive (.literal text))
    (enumeration : ∀ e, motive (.enumeration e)) (record : ∀ r, motive (.record r))
    (list : ∀ item, motive item → motive (.list item))
    (map : ∀ item, motive item → motive (.map item))
    (union : ∀ ts, (∀ t ∈ ts, motive t) → motive (.union ts))
    (packed : ∀ r, motive (.packed r))
    (recordOrFlag : ∀ r label, motive (.recordOrFlag r label)) (t : Ty R E) : motive t :=
  go t
where
  go : ∀ t, motive t
    | .any => any
    | .null => null
    | .str => str
    | .int => int
    | .bool => bool
    | .float => float
    | .listOfAny => listOfAny
    | .unknown => unknown
    | .literal text => literal text
    | .enumeration e => enumeration e
    | .record r => record r
    | .list item => list item (go item)
    | .map item => map item (go item)
    | .union ts => union ts (goAll ts)
    | .packed r => packed r
    | .recordOrFlag r label => recordOrFlag r label
  goAll : ∀ (ts : List (Ty R E)), ∀ t ∈ ts, motive t
    | [] => List.forall_mem_nil _
    | t :: ts => List.forall_mem_cons.2 ⟨go t, goAll ts⟩

/-- Induction over values, with the hypothesis for every item, entry and field. -/
@[elab_as_elim] theorem Value.induction {motive : Value R E → Prop}
    (scalar : ∀ s, motive (.scalar s))
    (list : ∀ items, (∀ v ∈ items, motive v) → motive (.list items))
    (map : ∀ entries, (∀ entry ∈ entries, motive entry.2) → motive (.map entries))
    (member : ∀ e m, motive (.member e m)) (flags : ∀ e bits, motive (.flags e bits))
    (unknown : ∀ raw, motive (.unknown raw))
    (record : ∀ r values, (∀ v ∈ values, motive v) → motive (.record r values))
    (v : Value R E) : motive v :=
  go v
where
  go : ∀ v, motive v
    | .scalar s => scalar s
    | .list items => list items (goItems items)
    | .map entries => map entries (goEntries entries)
    | .member e m => member e m
    | .flags e bits => flags e bits
    | .unknown raw => unknown raw
    | .record r values => record r values (goItems values)
  goItems : ∀ (items : List (Value R E)), ∀ v ∈ items, motive v
    | [] => List.forall_mem_nil _
    | v :: vs => List.forall_mem_cons.2 ⟨go v, goItems vs⟩
  goEntries : ∀ (entries : List (String × Value R E)), ∀ entry ∈ entries, motive entry.2
    | [] => List.forall_mem_nil _
    | (_, v) :: entries => List.forall_mem_cons.2 ⟨go v, goEntries entries⟩

namespace Ty

mutual

/-- Whether a type and all types in it meet a condition. -/
def every (p : Ty R E → Bool) : Ty R E → Bool
  | .list item => p (.list item) && every p item
  | .map item => p (.map item) && every p item
  | .union ts => p (.union ts) && everyAll p ts
  | t => p t

def everyAll (p : Ty R E → Bool) : List (Ty R E) → Bool
  | [] => true
  | t :: ts => every p t && everyAll p ts

end

variable {p q : Ty R E → Bool}

theorem everyAll_eq_all (ts : List (Ty R E)) : everyAll p ts = ts.all (every p) := by
  induction ts with
  | nil => rfl
  | cons t ts ih => rw [everyAll, ih, List.all_cons]

@[simp] theorem every_list (item : Ty R E) :
    every p (.list item) = (p (.list item) && every p item) :=
  rfl

@[simp] theorem every_map (item : Ty R E) :
    every p (.map item) = (p (.map item) && every p item) :=
  rfl

@[simp] theorem every_union (ts : List (Ty R E)) :
    every p (.union ts) = (p (.union ts) && ts.all (every p)) :=
  congrArg (p (.union ts) && ·) (everyAll_eq_all ts)

theorem of_every {t : Ty R E} (h : t.every p = true) : p t = true := by
  cases t <;> simp_all [every]

theorem every_of_forall (h : ∀ t, p t = true) (t : Ty R E) : t.every p = true := by
  induction t using Ty.induction with
  | list item ih => rw [every_list, h, ih, Bool.and_self]
  | map item ih => rw [every_map, h, ih, Bool.and_self]
  | union ts ih =>
    rw [every_union, Bool.and_eq_true, List.all_eq_true]
    exact ⟨h _, ih⟩
  | _ => exact h _

theorem every_of_every_list {item : Ty R E} (h : (Ty.list item).every p = true) :
    item.every p = true := by
  rw [every_list, Bool.and_eq_true] at h
  exact h.2

theorem every_of_every_map {item : Ty R E} (h : (Ty.map item).every p = true) :
    item.every p = true := by
  rw [every_map, Bool.and_eq_true] at h
  exact h.2

theorem every_of_every_union {ts : List (Ty R E)} (h : (Ty.union ts).every p = true) :
    ∀ t ∈ ts, t.every p = true := by
  rw [every_union, Bool.and_eq_true, List.all_eq_true] at h
  exact h.2

/-- What two conditions imply together is met everywhere if both are. -/
theorem every_imp₂ {r : Ty R E → Bool} (h : ∀ t, p t = true → q t = true → r t = true) {t : Ty R E}
    (hp : t.every p = true) (hq : t.every q = true) : t.every r = true := by
  induction t using Ty.induction with
  | list item ih =>
    rw [every_list, Bool.and_eq_true] at *
    exact ⟨h _ hp.1 hq.1, ih hp.2 hq.2⟩
  | map item ih =>
    rw [every_map, Bool.and_eq_true] at *
    exact ⟨h _ hp.1 hq.1, ih hp.2 hq.2⟩
  | union ts ih =>
    rw [every_union, Bool.and_eq_true, List.all_eq_true] at *
    exact ⟨h _ hp.1 hq.1, fun t ht => ih t ht (hp.2 t ht) (hq.2 t ht)⟩
  | _ => exact h _ hp hq

theorem every_mono (hpq : ∀ t, p t = true → q t = true) {t : Ty R E} (h : t.every p = true) :
    t.every q = true :=
  every_imp₂ (fun t ht _ => hpq t ht) h h

theorem same_self [BEq R] [ReflBEq R] [BEq E] [ReflBEq E] (t : Ty R E) : t.same t = true := by
  induction t using Ty.induction with
  | list item ih => rwa [same]
  | map item ih => rwa [same]
  | union ts ih =>
    rw [same]
    induction ts with
    | nil => rfl
    | cons t ts ihts =>
      rw [List.forall_mem_cons] at ih
      rw [sameAll, ih.1, ihts ih.2, Bool.and_self]
  | _ => simp [same]

theorem eq_of_same [BEq R] [LawfulBEq R] [BEq E] [LawfulBEq E] {t u : Ty R E}
    (h : t.same u = true) : t = u := by
  induction t using Ty.induction generalizing u with
  | list item ih =>
    cases u <;> simp [same] at h
    rw [ih h]
  | map item ih =>
    cases u <;> simp [same] at h
    rw [ih h]
  | union ts ih =>
    cases u with
    | union us =>
      rw [same] at h
      have hall : ts = us := by
        induction ts generalizing us with
        | nil => cases us <;> simp [sameAll] at h ⊢
        | cons t ts ihts =>
          cases us with
          | nil => simp [sameAll] at h
          | cons u us =>
            rw [sameAll, Bool.and_eq_true] at h
            rw [ih t List.mem_cons_self h.1,
              ihts (fun t ht => ih t (List.mem_cons_of_mem _ ht)) us h.2]
      rw [hall]
    | _ => simp [same] at h
  | _ => cases u <;> simp_all [same]

end Ty

end LspWire
