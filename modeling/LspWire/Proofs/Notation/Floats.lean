import LspWire.Number.Decimal
import LspWire.Proofs.Notation.Numbers
import LspWire.Proofs.Notation.Rounding
import Mathlib.Data.List.DropRight

/-!
# Floating-point numbers in notation

The text of a floating-point number is read as the number. The decimal of the text has been chosen
because it rounds to the number; where no short one does, the text has all digits of the number. The
notation of a decimal moves its point and drops zeros, which does not change the quotient that it
stands for.
-/

namespace LspWire

open Json.Reader

/-! ## Values of digits -/

/-- The number written by some digits. -/
def valueOf (ds : List Char) : Nat := Text.ofDigits 0 (digitValues ds)

theorem valueOf_toDigits (n : Nat) : valueOf (Nat.toDigits 10 n) = n := by
  rw [valueOf, ofDigits_digitValues, Nat.ofDigitChars_toDigits (by decide) (by decide)]

theorem valueOf_zeros_append (k : Nat) (ds : List Char) :
    valueOf (List.replicate k '0' ++ ds) = valueOf ds := by
  rw [valueOf, valueOf, ofDigits_digitValues, ofDigits_digitValues, Nat.ofDigitChars_append,
    Nat.ofDigitChars_replicate_zero, Nat.mul_zero]

theorem valueOf_append_zeros (ds : List Char) (k : Nat) :
    valueOf (ds ++ List.replicate k '0') = valueOf ds * 10 ^ k := by
  rw [valueOf, valueOf, ofDigits_digitValues, ofDigits_digitValues, Nat.ofDigitChars_append,
    Nat.ofDigitChars_replicate_zero, Nat.mul_comm]

namespace Decimal

/-- Decimals with digits of which the first is not zero. -/
structure IsNormal (d : Decimal) : Prop where
  digits : ∀ c ∈ d.digits, c.isDigit = true
  head : ∃ c cs, d.digits = c :: cs ∧ c ≠ '0'
  value : 0 < valueOf d.digits

/-- The number nearest to a decimal. -/
def rounded (negative : Bool) (d : Decimal) : Binary64 :=
  Binary64.ofDecimal negative (valueOf d.digits) (d.point - d.digits.length)

/-! ## Decimals of numbers -/

theorem trim_eq {ds : List Char} (h : ∃ c ∈ ds, c ≠ '0') :
    trim ds = ds.rdropWhile (· = '0') := by
  unfold trim
  rw [← List.rdropWhile]
  split
  · rename_i hnil
    rw [List.rdropWhile_eq_nil_iff] at hnil
    obtain ⟨c, hc, hzero⟩ := h
    exact absurd (of_decide_eq_true (hnil c hc)) hzero
  · rename_i hcons
    exact hcons.symm

theorem exists_trim {ds : List Char} (h : ∃ c ∈ ds, c ≠ '0') :
    ∃ k, ds = trim ds ++ List.replicate k '0' := by
  have hzeros : ∀ c ∈ ds.rtakeWhile (· = '0'), c = '0' := by
    intro c hc
    have hzero := List.mem_rtakeWhile_imp hc
    exact of_decide_eq_true hzero
  refine ⟨(ds.rtakeWhile (· = '0')).length, ?_⟩
  rw [trim_eq h, ← List.eq_replicate_of_mem hzeros, List.rdropWhile_append_rtakeWhile]

/-- The decimal of a scaled number has its digits without the zeros at the end, and rounds alike. -/
theorem isNormal_ofScaled {n : Nat} (h : 0 < n) (exponent : Int) :
    (ofScaled n exponent).IsNormal ∧
      ∀ negative, (ofScaled n exponent).rounded negative =
        Binary64.ofDecimal negative n exponent := by
  obtain ⟨c, cs, hcs, hc⟩ := head_toDigits h
  obtain ⟨k, hk⟩ := exists_trim ⟨c, hcs ▸ List.mem_cons_self, hc⟩
  have hvalue : n = valueOf (trim (Nat.toDigits 10 n)) * 10 ^ k := by
    rw [← valueOf_append_zeros, ← hk, valueOf_toDigits]
  have hpos : 0 < valueOf (trim (Nat.toDigits 10 n)) :=
    Nat.pos_of_mul_pos_right (hvalue ▸ h)
  refine ⟨⟨fun c hc => ?_, ?_, hpos⟩, fun negative => ?_⟩
  · refine isDigit_of_mem_toDigits (n := n) c ?_
    rw [hk]
    exact List.mem_append_left _ hc
  · cases htrim : trim (Nat.toDigits 10 n) with
    | nil =>
      rw [htrim] at hpos
      exact absurd hpos (Nat.lt_irrefl 0)
    | cons d ds =>
      rw [htrim, hcs, List.cons_append] at hk
      exact ⟨d, ds, htrim, (List.cons.inj hk).1 ▸ hc⟩
  · have hlength := congrArg List.length hk
    rw [List.length_append, List.length_replicate] at hlength
    conv_rhs => rw [hvalue, Binary64.ofDecimal_mul_pow _ hpos]
    rw [rounded, ofScaled]
    dsimp only
    congr 1
    omega

theorem isNormal_shortest {x : Binary64} (h : x.isFinite = true) (hzero : x.code ≠ 0) :
    (shortest x).IsNormal ∧ (shortest x).rounded x.isNegative = x := by
  have hscaled : ∃ n exponent, shortest x = ofScaled n exponent ∧
      Binary64.ofDecimal x.isNegative n exponent = x := by
    rw [shortest, if_neg hzero]
    cases hfound : (List.range 17).findSome? fun n => ofLength? x (n + 1) with
    | none => exact ⟨_, _, rfl, Binary64.ofDecimal_units h hzero⟩
    | some d =>
      obtain ⟨count, -, hd⟩ := List.exists_of_findSome?_eq_some hfound
      rw [ofLength?, Option.map_eq_some_iff] at hd
      obtain ⟨n, hn, rfl⟩ := hd
      have hread := List.find?_some hn
      exact ⟨n, _, rfl, of_decide_eq_true hread⟩
  obtain ⟨n, exponent, hshortest, hn⟩ := hscaled
  have hpos : 0 < n := by
    refine Nat.pos_of_ne_zero fun hn0 => hzero ?_
    rw [← hn, hn0]
    exact Binary64.code_ofCode _ (by decide)
  obtain ⟨hnormal, hrounded⟩ := isNormal_ofScaled hpos exponent
  rw [hshortest]
  exact ⟨hnormal, (hrounded _).trans hn⟩

end Decimal

/-! ## Texts of decimals -/

namespace Json.Reader

variable {negative : Bool} {whole fraction after : List Char}

/-- The sign of a number as text. -/
def signText (negative : Bool) : List Char := if negative then ['-'] else []

theorem minusPart_signText (negative : Bool) {c : Char} (hc : c.isDigit = true) (cs : List Char) :
    minusPart (signText negative ++ c :: cs) = (negative, c :: cs) := by
  cases negative with
  | true => rfl
  | false => exact minusPart_of_isDigit hc cs

/-- The digits of an integer part are zero alone or begin with another digit. -/
def IsWhole (whole : List Char) : Prop :=
  whole = ['0'] ∨ (∀ c ∈ whole, c.isDigit = true) ∧ ∃ c cs, whole = c :: cs ∧ c ≠ '0'

theorem IsWhole.exists_digit (h : IsWhole whole) : ∃ c cs, whole = c :: cs ∧ c.isDigit = true := by
  obtain rfl | ⟨hdigits, c, cs, rfl, -⟩ := h
  · exact ⟨'0', [], rfl, rfl⟩
  · exact ⟨c, cs, rfl, hdigits c List.mem_cons_self⟩

theorem integerPart?_of_isWhole (h : IsWhole whole)
    (hafter : ∀ c ∈ after.head?, c.isDigit = false) :
    integerPart? (whole ++ after) = some (whole, after) := by
  obtain rfl | ⟨hdigits, c, cs, rfl, hc⟩ := h
  · rfl
  · rw [List.cons_append, integerPart?_of_ne hc, ← List.cons_append, digits_of_all hdigits hafter]
    rfl

/-- A number with a fraction or an exponent is read as the number nearest to its decimal. -/
theorem number_of_parts (hwhole : IsWhole whole) (hafter : ∀ c ∈ after.head?, c.isDigit = false)
    {rest : List Char} {exponent? : Option Int} (hfraction : fractionPart after = (fraction, rest))
    (hexponent : exponentPart rest = (exponent?, [])) (hfloat : fraction ≠ [] ∨ exponent? ≠ none) :
    number (signText negative ++ (whole ++ after)) =
      .ok (.float (Binary64.ofDecimal negative (valueOf (whole ++ fraction))
        (exponent?.getD 0 - fraction.length)), []) := by
  obtain ⟨c, cs, hcs, hc⟩ := hwhole.exists_digit
  have hminus : minusPart (signText negative ++ (whole ++ after)) = (negative, whole ++ after) := by
    rw [hcs]
    exact minusPart_signText negative hc (cs ++ after)
  have hnumeral : (fraction.isEmpty && exponent?.isNone) = false := by
    cases fraction <;> cases exponent? <;> simp_all
  rw [number_eq, hminus, integerPart?_of_isWhole hwhole hafter]
  dsimp only
  rw [hfraction, hexponent, numeral, hnumeral]
  rfl

theorem fractionPart_cons {ds rest : List Char} (hds : ∀ c ∈ ds, c.isDigit = true) (hne : ds ≠ [])
    (hrest : ∀ c ∈ rest.head?, c.isDigit = false) :
    fractionPart ('.' :: (ds ++ rest)) = (ds, rest) := by
  rw [fractionPart, digits_of_all hds hrest]
  exact if_neg (by simpa using hne)

theorem exponentPart_exponentText (e : Int) :
    exponentPart ('e' :: Decimal.exponentText e) = (some e, []) := by
  have hds : ∀ c ∈ List.replicate (2 - (Nat.toDigits 10 e.natAbs).length) '0' ++
      Nat.toDigits 10 e.natAbs, c.isDigit = true := by
    intro c hc
    obtain hc | hc := List.mem_append.1 hc
    · rw [(List.mem_replicate.1 hc).2]
      rfl
    · exact isDigit_of_mem_toDigits c hc
  have hsign : signPart (Decimal.exponentText e) = (decide (e < 0),
      List.replicate (2 - (Nat.toDigits 10 e.natAbs).length) '0' ++ Nat.toDigits 10 e.natAbs) := by
    rw [Decimal.exponentText]
    by_cases he : e < 0
    · rw [if_pos he, decide_eq_true he]
      rfl
    · rw [if_neg he, decide_eq_false he]
      rfl
  have hdigits := digits_append_nil hds
  have hvalue : Text.ofDigits 0 (digitValues (List.replicate
      (2 - (Nat.toDigits 10 e.natAbs).length) '0' ++ Nat.toDigits 10 e.natAbs)) = e.natAbs :=
    (valueOf_zeros_append _ _).trans (valueOf_toDigits _)
  rw [exponentPart_cons, hsign, hdigits, if_pos ⟨.inl rfl, by simp⟩, hvalue, signed_natAbs]

theorem number_fraction (hwhole : IsWhole whole) (hfraction : ∀ c ∈ fraction, c.isDigit = true)
    (hne : fraction ≠ []) :
    number (signText negative ++ (whole ++ '.' :: fraction)) =
      .ok (.float (Binary64.ofDecimal negative (valueOf (whole ++ fraction)) (-fraction.length)),
        []) := by
  have hpart : fractionPart ('.' :: (fraction ++ [])) = (fraction, []) :=
    fractionPart_cons hfraction hne nofun
  rw [List.append_nil] at hpart
  rw [number_of_parts hwhole (by simp) hpart rfl (.inl hne), Option.getD_none, Int.zero_sub]

theorem number_exponent {c : Char} (hdigit : c.isDigit = true) (hc : c ≠ '0')
    (hfraction : ∀ c ∈ fraction, c.isDigit = true) (e : Int) :
    number (signText negative ++ (c :: (if fraction.isEmpty then [] else '.' :: fraction) ++
        'e' :: Decimal.exponentText e)) =
      .ok (.float (Binary64.ofDecimal negative (valueOf (c :: fraction)) (e - fraction.length)),
        []) := by
  have hwhole : IsWhole [c] := .inr ⟨by simpa using hdigit, c, [], rfl, hc⟩
  have hexponent := exponentPart_exponentText e
  cases fraction with
  | nil =>
    have hpart := fractionPart_of_ne (c := 'e') (by decide) (Decimal.exponentText e)
    exact number_of_parts hwhole (by simp) hpart hexponent (.inr nofun)
  | cons d ds =>
    have hpart : fractionPart ('.' :: (d :: ds ++ 'e' :: Decimal.exponentText e)) =
        (d :: ds, 'e' :: Decimal.exponentText e) :=
      fractionPart_cons hfraction nofun (by simp)
    exact number_of_parts hwhole (by simp) hpart hexponent (.inr nofun)

end Json.Reader

namespace Decimal

/-- The notation of a decimal is read as the number nearest to it. -/
theorem number_layout {d : Decimal} (h : d.IsNormal) (negative : Bool) :
    number (signText negative ++ d.layout) = .ok (.float (d.rounded negative), []) := by
  obtain ⟨ds, point⟩ := d
  obtain ⟨hdigits, ⟨c, cs, hcs, hc⟩, hpos⟩ := h
  dsimp only at hdigits hcs hpos
  have hzeros (k : Nat) : ∀ z ∈ List.replicate k '0', z.isDigit = true := by
    intro z hz
    rw [(List.mem_replicate.1 hz).2]
    rfl
  rw [rounded, layout]
  dsimp only
  by_cases hplace : -4 < point ∧ point ≤ 16
  · rw [if_pos hplace]
    by_cases hpoint : point ≤ 0
    · -- The digits stand behind the point, after some zeros.
      have hvalue : valueOf (['0'] ++ (List.replicate point.natAbs '0' ++ ds)) = valueOf ds :=
        valueOf_zeros_append (point.natAbs + 1) ds
      rw [if_pos hpoint]
      refine (number_fraction (.inl rfl) (List.forall_mem_append.2 ⟨hzeros _, hdigits⟩)
        (by simp [hcs])).trans ?_
      rw [hvalue, List.length_append, List.length_replicate]
      congr 4
      omega
    · rw [if_neg hpoint]
      by_cases hlength : ds.length ≤ point.toNat
      · -- The digits stand before the point, with some zeros.
        have hwhole : IsWhole (ds ++ List.replicate (point.toNat - ds.length) '0') :=
          .inr ⟨List.forall_mem_append.2 ⟨hdigits, hzeros _⟩, c, _, by rw [hcs]; rfl, hc⟩
        rw [List.drop_eq_nil_of_le hlength, List.take_of_length_le hlength]
        refine (number_fraction hwhole (hzeros 1) nofun).trans ?_
        rw [List.append_assoc, List.replicate_append_replicate, valueOf_append_zeros,
          Binary64.ofDecimal_mul_pow _ hpos, List.length_replicate]
        congr 4
        omega
      · -- The point stands among the digits.
        obtain ⟨k, hk⟩ : ∃ k, point.toNat = k + 1 := ⟨point.toNat - 1, by omega⟩
        have hne : ds.drop point.toNat ≠ [] := by simpa using hlength
        have hwhole : IsWhole (ds.take point.toNat) :=
          .inr ⟨fun z hz => hdigits z (List.mem_of_mem_take hz), c, _, by rw [hk, hcs]; rfl, hc⟩
        rw [Nat.sub_eq_zero_of_le (Nat.le_of_not_le hlength), List.replicate_zero, List.append_nil,
          if_neg (by simpa using hne)]
        have hfraction : ∀ z ∈ ds.drop point.toNat, z.isDigit = true := fun z hz =>
          hdigits z (List.mem_of_mem_drop hz)
        refine (number_fraction hwhole hfraction hne).trans ?_
        rw [List.take_append_drop, List.length_drop]
        congr 4
        omega
  · -- One digit stands before the point.
    rw [hcs, List.forall_mem_cons] at hdigits
    rw [if_neg hplace, hcs]
    refine (number_exponent hdigits.1 hc hdigits.2 (point - 1)).trans ?_
    rw [List.length_cons]
    congr 4
    omega

end Decimal

namespace Binary64

open Decimal

/-- A finite number is read from its text. -/
theorem number_text {x : Binary64} (h : x.isFinite = true) :
    number x.text.toList = .ok (.float x, []) := by
  have hnan : x.isNaN = false := by
    have hcode : x.code < infinityCode := of_decide_eq_true h
    exact decide_eq_false (Nat.not_lt.2 (Nat.le_of_lt hcode))
  have htext : x.text.toList = signText x.isNegative ++ (shortest x).layout := by
    rw [text, hnan, h]
    cases x.isNegative <;> simp [signText]
  rw [htext]
  by_cases hzero : x.code = 0
  · have hx : zero x.isNegative = x := by rw [zero, ← hzero, ofCode_code]
    have hread : number (signText x.isNegative ++ (['0'] ++ '.' :: ['0'])) =
        .ok (.float (zero x.isNegative), []) :=
      number_fraction (.inl rfl) (by simp) (fun h => by cases h)
    rw [hx] at hread
    rw [shortest, if_pos hzero]
    exact hread
  · obtain ⟨hnormal, hrounded⟩ := isNormal_shortest h hzero
    rw [number_layout hnormal, hrounded]

end Binary64

end LspWire
