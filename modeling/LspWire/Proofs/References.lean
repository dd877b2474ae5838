import LspWire.Proofs.Declarations
import LspWire.Protocol.Catalog
import Mathlib.Data.List.Induction

/-!
# Types that references stand for

A reference names a type, or it is a list, a map, an optional or an opened type over another one. An
optional or an opened type leaves out the alternatives that it holds already. What every named type
meets, and lists and maps of such types too, every type meets that a reference stands for.
-/

namespace LspWire

variable {R E : Type}

namespace Ty

variable [BEq R] [BEq E]

theorem distinct_append_singleton (ts : List (Ty R E)) (t : Ty R E) :
    distinct (ts ++ [t]) =
      if (distinct ts).any (same t) then distinct ts else distinct ts ++ [t] := by
  rw [distinct, List.foldl_append]
  rfl

theorem distinct_sublist (ts : List (Ty R E)) : (distinct ts).Sublist ts := by
  induction ts using List.reverseRecOn with
  | nil => exact .slnil
  | append_singleton ts t ih =>
    rw [distinct_append_singleton]
    split
    · exact ih.trans (List.sublist_append_left ts [t])
    · exact ih.append (List.Sublist.refl [t])

theorem mem_distinct [LawfulBEq R] [LawfulBEq E] {ts : List (Ty R E)} {t : Ty R E} (h : t ∈ ts) :
    t ∈ distinct ts := by
  induction ts using List.reverseRecOn with
  | nil => cases h
  | append_singleton ts u ih =>
    rw [distinct_append_singleton]
    rcases List.mem_append.1 h with h | h
    · split
      · exact ih h
      · exact List.mem_append_left _ (ih h)
    · rw [List.mem_singleton.1 h]
      split
      · rename_i hany
        obtain ⟨u', hu', hsame⟩ := List.any_eq_true.1 hany
        rw [eq_of_same hsame]
        exact hu'
      · exact List.mem_append_right _ List.mem_cons_self

/-- A type of any of some types is one of them or their union. -/
theorem oneOf_cases (ts : List (Ty R E)) :
    (∃ t, distinct (ts.flatMap alternatives) = [t] ∧ oneOf ts = t) ∨
      oneOf ts = .union (distinct (ts.flatMap alternatives)) := by
  unfold oneOf
  split
  · rename_i t heq
    exact .inl ⟨t, heq, rfl⟩
  · exact .inr rfl

end Ty

namespace Protocol

/-- The name that a reference is made up from. -/
def TypeRef.base : TypeRef → String
  | .named text => text
  | .list item | .optional item | .map item | .opened item => item.base

/-- What is added to a type by null or by raw values: nothing that clashes with an alternative. -/
def IsAdded (u : DataType) : Prop := u = .null ∨ u = .unknown

theorem flatMap_alternatives {t u : DataType} (h : IsAdded u) :
    [t, u].flatMap Ty.alternatives = t.alternatives ++ [u] := by
  obtain rfl | rfl := h <;> simp [Ty.alternatives]

/-- A condition is met everywhere in a type with null or raw values besides, if it is in the type
and adding them keeps it. -/
theorem every_oneOf {p : DataType → Bool}
    (hsingle : ∀ t, t.isUnion = false → p t = true → p (.union [t]) = true)
    (hadded : ∀ ts u, IsAdded u → p (.union ts) = true →
      p (.union (Ty.distinct (ts ++ [u]))) = true) {t u : DataType} (hu : IsAdded u)
    (hpu : p u = true) (ht : t.every p = true) : (Ty.oneOf [t, u]).every p = true := by
  have halternatives : p (.union t.alternatives) = true ∧ ∀ v ∈ t.alternatives, v.every p = true := by
    cases t with
    | union ts => exact ⟨Ty.of_every ht, Ty.every_of_every_union ht⟩
    | _ => exact ⟨hsingle _ rfl (Ty.of_every ht), List.forall_mem_singleton.2 ht⟩
  have hmem : ∀ v ∈ Ty.distinct (t.alternatives ++ [u]), v.every p = true := by
    intro v hv
    rcases List.mem_append.1 ((Ty.distinct_sublist _).subset hv) with hv | hv
    · exact halternatives.2 v hv
    · rw [List.mem_singleton.1 hv]
      obtain rfl | rfl := hu <;> exact hpu
  obtain ⟨v, hone, heq⟩ | heq := Ty.oneOf_cases [t, u]
  · rw [flatMap_alternatives hu] at hone
    rw [heq]
    exact hmem v (hone ▸ List.mem_cons_self)
  · rw [heq, flatMap_alternatives hu, Ty.every_union, Bool.and_eq_true, List.all_eq_true]
    exact ⟨hadded _ u hu halternatives.1, hmem⟩

/-- A condition that lists and maps meet anyway, and that null or raw values besides do not harm, is
met everywhere in the type that a reference stands for, if it is in the type that it is made up
from. -/
theorem every_of_resolve {p : DataType → Bool}
    (hsingle : ∀ t, t.isUnion = false → p t = true → p (.union [t]) = true)
    (hadded : ∀ ts u, IsAdded u → p (.union ts) = true →
      p (.union (Ty.distinct (ts ++ [u]))) = true)
    (hlist : ∀ t, p (.list t) = true) (hmap : ∀ t, p (.map t) = true) (hnull : p .null = true)
    (hunknown : p .unknown = true) {type : TypeRef}
    (hbase : ∀ t, TypeRef.ofName type.base = .ok t → t.every p = true) {t : DataType}
    (h : type.resolve = .ok t) : t.every p = true := by
  induction type generalizing t with
  | named text => exact hbase t h
  | list item ih =>
    obtain ⟨item, hitem, rfl⟩ := map_eq_ok_iff.1 h
    rw [Ty.every_list, hlist, Bool.true_and]
    exact ih hbase hitem
  | map item ih =>
    obtain ⟨item, hitem, rfl⟩ := map_eq_ok_iff.1 h
    rw [Ty.every_map, hmap, Bool.true_and]
    exact ih hbase hitem
  | optional base ih =>
    obtain ⟨base, hresolve, rfl⟩ := map_eq_ok_iff.1 h
    exact every_oneOf hsingle hadded (.inl rfl) hnull (ih hbase hresolve)
  | opened base ih =>
    obtain ⟨base, hresolve, rfl⟩ := map_eq_ok_iff.1 h
    exact every_oneOf hsingle hadded (.inr rfl) hunknown (ih hbase hresolve)

theorem text_of_findType {text : String} {name : TypeName} (h : findType text = .ok name) :
    name.text = text := by
  rw [findType] at h
  split at h
  · rename_i name' hfind
    cases h
    rw [TypeName.find?] at hfind
    simpa using List.find?_some hfind
  · cases h

/-- A condition that a table of all types with a name and all names of the catalog meets, is met by
everything that a text names. -/
theorem every_of_ofName {p : DataType → Bool}
    (hall : ((TypeRef.primitives ++ namedTypes).all fun named => named.2.every p) = true)
    (hrecord : ∀ r, p (.record r) = true) (henumeration : ∀ e, p (.enumeration e) = true)
    {text : String} {t : DataType} (h : TypeRef.ofName text = .ok t) : t.every p = true := by
  rw [TypeRef.ofName] at h
  split at h
  · rename_i t' hlookup
    cases h
    exact List.all_eq_true.1 hall _ (Entries.mem_of_lookup hlookup)
  · obtain ⟨name, -, rfl⟩ := map_eq_ok_iff.1 h
    cases name with
    | record r => exact hrecord r
    | enumeration e => exact henumeration e

theorem isPortable_of_resolve {type : TypeRef} {t : DataType} (h : type.resolve = .ok t) :
    t.isPortable = true :=
  every_of_resolve (fun _ _ _ => rfl) (fun _ _ _ _ => rfl) (fun _ => rfl) (fun _ => rfl) rfl rfl
    (fun _ h => every_of_ofName rfl (fun _ => rfl) (fun _ => rfl) h) h

end Protocol

end LspWire
