import LspWire.Proofs.Notation.Values
import LspWire.Proofs.Reading.Basic

/-!
# What is read from a text

Whatever a text is read as has a notation: no integer exceeds the limit of digits, what is rounded
from digits is a number, and a repeated key is put in its first place. The induction is on the fuel.
One lemma for each of the three readers says what it keeps.
-/

namespace LspWire

namespace Json

variable {cs after : List Char} {s : Scalar}

theorem mem_of_mem_put {key : String} {x : Json} {acc : List (String × Json)}
    {entry : String × Json} (h : entry ∈ put key x acc) : entry = (key, x) ∨ entry ∈ acc := by
  induction acc with
  | nil => exact .inl (List.mem_singleton.1 h)
  | cons first acc ih =>
    rw [put] at h
    split at h
    · exact (List.mem_cons.1 h).imp_right (List.mem_cons_of_mem _)
    · obtain rfl | h := List.mem_cons.1 h
      · exact .inr List.mem_cons_self
      · exact (ih h).imp_right (List.mem_cons_of_mem _)

/-- An object keeps every key once when an entry is put into it. -/
theorem HasNotation.put {acc : List (String × Json)} {x : Json} (hacc : (Json.obj acc).HasNotation)
    (hx : x.HasNotation) (key : String) : (Json.obj (Json.put key x acc)).HasNotation := by
  cases hacc with
  | obj hkeys h =>
    refine .obj ?_ fun entry hentry => ?_
    · rw [map_fst_put]
      split
      · exact hkeys
      · rename_i hnew
        exact hkeys.append (List.nodup_singleton key) (List.disjoint_singleton.2 hnew)
    · obtain rfl | hentry := mem_of_mem_put hentry
      · exact hx
      · exact h entry hentry

namespace Reader

/-! ## What is read -/

theorem toNat_sub_lt {c : Char} (h : c.isDigit = true) : c.toNat - '0'.toNat < 10 := by
  have hle : c.toNat ≤ 57 := by
    simp only [Char.isDigit, Bool.and_eq_true, decide_eq_true_eq] at h
    exact h.2
  have hzero : '0'.toNat = 48 := rfl
  omega

theorem ofDigitChars_lt {ds : List Char} (h : ∀ c ∈ ds, c.isDigit = true) (n : Nat) :
    Nat.ofDigitChars 10 ds n < (n + 1) * 10 ^ ds.length := by
  induction ds generalizing n with
  | nil => simp
  | cons c ds ih =>
    rw [List.forall_mem_cons] at h
    rw [Nat.ofDigitChars_cons, List.length_cons, Nat.pow_succ', ← Nat.mul_assoc]
    refine (ih h.2 _).trans_le (Nat.mul_le_mul_right _ ?_)
    have hdigit := toNat_sub_lt h.1
    omega

theorem length_toDigits_le {ds : List Char} (h : ∀ c ∈ ds, c.isDigit = true) {k : Nat}
    (hpos : 0 < k) (hk : ds.length ≤ k) :
    (Nat.toDigits 10 (Text.ofDigits 0 (digitValues ds))).length ≤ k := by
  rw [ofDigits_digitValues, Nat.length_toDigits_le_iff (by decide) hpos]
  have hlt := ofDigitChars_lt h 0
  rw [Nat.zero_add, Nat.one_mul] at hlt
  exact hlt.trans_le (Nat.pow_le_pow_right (by decide) hk)

theorem isDigit_of_mem_integerPart? {whole : List Char}
    (h : integerPart? cs = some (whole, after)) : ∀ c ∈ whole, c.isDigit = true := by
  cases cs with
  | nil => cases h
  | cons c cs =>
    by_cases hzero : c = '0'
    · subst hzero
      cases h
      exact fun c hc => List.mem_singleton.1 hc ▸ rfl
    · rw [integerPart?_of_ne hzero] at h
      split at h
      · cases h
      · rw [Option.some.injEq, digits, Prod.mk.injEq] at h
        rw [← h.1]
        exact fun c hc => List.mem_takeWhile_imp hc

theorem hasNotation_of_numeral {negative : Bool} {whole fraction : List Char}
    {exponent? : Option Int} (hwhole : ∀ c ∈ whole, c.isDigit = true)
    (h : numeral negative whole fraction exponent? = .ok s) : s.HasNotation := by
  rw [numeral] at h
  split at h
  · split at h
    · cases h
    · rename_i hlimit
      have hlength := length_toDigits_le hwhole (k := Number.digitLimit) (by decide)
        (Nat.not_lt.1 hlimit)
      cases h
      cases negative with
      | false => exact hlength
      | true =>
        change (Nat.toDigits 10 (-(_ : Int)).natAbs).length ≤ _
        rwa [Int.natAbs_neg]
  · cases h
    intro hnan
    rw [Binary64.isNaN_ofDecimal] at hnan
    cases hnan

theorem hasNotation_of_number (h : number cs = .ok (s, after)) : s.HasNotation := by
  rw [number_eq] at h
  cases hwhole : integerPart? (minusPart cs).2 with
  | none =>
    rw [hwhole] at h
    cases h
  | some found =>
    obtain ⟨whole, afterWhole⟩ := found
    rw [hwhole] at h
    obtain ⟨s', hs, heq⟩ := map_eq_ok_iff.1 h
    cases heq
    exact hasNotation_of_numeral (isDigit_of_mem_integerPart? hwhole) hs

theorem hasNotation_of_plain (h : plain cs = .ok (s, after)) : s.HasNotation := by
  obtain ⟨word, hword, -⟩ | hnumber := cases_of_plain h
  · simp only [words, List.mem_cons, List.not_mem_nil, or_false, Prod.mk.injEq] at hword
    obtain ⟨-, rfl⟩ | ⟨-, rfl⟩ | ⟨-, rfl⟩ | ⟨-, rfl⟩ | ⟨-, rfl⟩ | ⟨-, rfl⟩ := hword
    · trivial
    · trivial
    · trivial
    · exact fun _ => rfl
    · exact fun h => absurd h (by decide)
    · exact fun h => absurd h (by decide)
  · exact hasNotation_of_number hnumber

section Step

variable {fuel : Nat} {x : Json}

variable (hvalue : ∀ {cs x after}, value fuel cs = .ok (x, after) → x.HasNotation)
  (hitems : ∀ {cs xs after}, items fuel cs = .ok (xs, after) → ∀ x ∈ xs, x.HasNotation)
  (hentries : ∀ {cs acc x after}, entries fuel acc cs = .ok (x, after) →
    (Json.obj acc).HasNotation → x.HasNotation)

include hitems hentries in
theorem hasNotation_of_value_succ (h : value (fuel + 1) cs = .ok (x, after)) :
    x.HasNotation := by
  have hempty : (Json.obj []).HasNotation := .obj List.nodup_nil (List.forall_mem_nil _)
  unfold value at h
  split at h
  · obtain ⟨_, -, heq⟩ := map_eq_ok_iff.1 h
    cases heq
    exact .scalar trivial
  · split at h
    · cases h
      exact .arr (List.forall_mem_nil _)
    · obtain ⟨⟨xs, after'⟩, hxs, heq⟩ := map_eq_ok_iff.1 h
      cases heq
      exact .arr (hitems hxs)
  · split at h
    · cases h
      exact hempty
    · exact hentries h hempty
  · obtain ⟨⟨s, after'⟩, hs, heq⟩ := map_eq_ok_iff.1 h
    cases heq
    exact .scalar (hasNotation_of_plain hs)

include hvalue hitems in
theorem hasNotation_of_items_succ {xs : List Json} (h : items (fuel + 1) cs = .ok (xs, after)) :
    ∀ x ∈ xs, x.HasNotation := by
  rw [items, bind_eq_ok_iff] at h
  obtain ⟨⟨x, after'⟩, hx, h⟩ := h
  dsimp only at h
  split at h
  · cases h
    exact List.forall_mem_singleton.2 (hvalue hx)
  · obtain ⟨⟨xs, rest⟩, hxs, heq⟩ := bind_eq_ok_iff.1 h
    cases heq
    exact List.forall_mem_cons.2 ⟨hvalue hx, hitems hxs⟩
  · cases h

include hvalue hentries in
theorem hasNotation_of_entries_succ {acc : List (String × Json)}
    (h : entries (fuel + 1) acc cs = .ok (x, after)) (hacc : (Json.obj acc).HasNotation) :
    x.HasNotation := by
  unfold entries at h
  split at h
  · obtain ⟨⟨key, afterKey⟩, -, h⟩ := bind_eq_ok_iff.1 h
    dsimp only at h
    split at h
    · obtain ⟨⟨y, afterValue⟩, hy, h⟩ := bind_eq_ok_iff.1 h
      dsimp only at h
      split at h
      · cases h
        exact hacc.put (hvalue hy) key
      · exact hentries h (hacc.put (hvalue hy) key)
      · cases h
    · cases h
  · cases h

end Step

/-- What is read has a notation: values, items, and objects whose entries so far have one. -/
theorem hasNotation_of_reader (fuel : Nat) :
    (∀ {cs x after}, value fuel cs = .ok (x, after) → x.HasNotation) ∧
    (∀ {cs xs after}, items fuel cs = .ok (xs, after) → ∀ x ∈ xs, x.HasNotation) ∧
    (∀ {cs acc x after}, entries fuel acc cs = .ok (x, after) → (Json.obj acc).HasNotation →
      x.HasNotation) := by
  induction fuel with
  | zero =>
    refine ⟨?_, ?_, ?_⟩
    · intro cs x after h
      cases h
    · intro cs xs after h
      cases h
    · intro cs acc x after h
      cases h
  | succ fuel ih =>
    obtain ⟨hvalue, hitems, hentries⟩ := ih
    exact ⟨hasNotation_of_value_succ hitems hentries, hasNotation_of_items_succ hvalue hitems,
      hasNotation_of_entries_succ hvalue hentries⟩

end Reader

open Reader

/-- What is read from a text has a notation. -/
theorem hasNotation_of_read {text : List Char} {x : Json} (h : read text = .ok x) :
    x.HasNotation := by
  unfold read at h
  split at h
  · cases h
  · obtain ⟨⟨y, after⟩, hy, h⟩ := bind_eq_ok_iff.1 h
    dsimp only at h
    split at h
    · cases h
      exact (hasNotation_of_reader _).1 hy
    · cases h

end Json

end LspWire
