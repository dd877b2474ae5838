import LspWire.Number.Binary64
import Mathlib.Tactic.Positivity
import Mathlib.Tactic.Ring

/-!
# Rounding of decimals

The number nearest to a decimal depends on the quotient that the decimal stands for, not on how it
is written: common factors cancel, and the shortcuts for magnitudes far out of range decide what
rounding would give. A finite number is the number nearest to its own magnitude.
-/

namespace LspWire.Binary64

variable {negative : Bool} {num den : Nat}

/-! ## Quotients -/

theorem roundDiv_mul_right (num den : Nat) {k : Nat} (hk : 0 < k) :
    roundDiv (num * k) (den * k) = roundDiv num den := by
  have htwice : (den * k < 2 * (num % den * k)) ↔ den < 2 * (num % den) := by
    rw [← Nat.mul_assoc, Nat.mul_lt_mul_right hk]
  have hhalf : (2 * (num % den * k) = den * k) ↔ 2 * (num % den) = den := by
    rw [← Nat.mul_assoc, Nat.mul_left_inj (Nat.ne_of_gt hk)]
  simp only [roundDiv, Nat.mul_div_mul_right num den hk, Nat.mul_mod_mul_right, htwice, hhalf]

theorem roundDiv_one (n : Nat) : roundDiv n 1 = n := by
  simp [roundDiv, Nat.mod_one]

theorem ofRatio_mul_right (negative : Bool) (num den : Nat) {k : Nat} (hk : 0 < k) :
    ofRatio negative (num * k) (den * k) = ofRatio negative num den := by
  have hscaled : num * k * 2 ^ unitExponent = num * 2 ^ unitExponent * k := by ring
  have hden (p : Nat) : den * k * 2 ^ p = den * 2 ^ p * k := by ring
  simp only [ofRatio, hscaled, hden, Nat.mul_div_mul_right _ _ hk, roundDiv_mul_right _ _ hk]

theorem ofRatio_congr {num' den' : Nat} (hden : 0 < den) (hden' : 0 < den')
    (h : num * den' = num' * den) : ofRatio negative num den = ofRatio negative num' den' := by
  rw [← ofRatio_mul_right negative num den hden', ← ofRatio_mul_right negative num' den' hden, h,
    Nat.mul_comm den den']

/-- A quotient that is large enough is rounded to infinity. -/
theorem ofRatio_eq_infinity {n : Nat} (hn : 1025 ≤ n) (hden : 0 < den) (h : 2 ^ n * den ≤ num) :
    ofRatio negative num den = infinity negative := by
  have hquotient : 2 ^ (n + unitExponent) ≤ num * 2 ^ unitExponent / den := by
    rw [Nat.le_div_iff_mul_le hden, Nat.pow_add, Nat.mul_right_comm]
    exact Nat.mul_le_mul_right _ h
  have hpos : num * 2 ^ unitExponent / den ≠ 0 :=
    Nat.ne_of_gt (Nat.lt_of_lt_of_le (Nat.two_pow_pos _) hquotient)
  have hlog : 1025 + 1074 ≤ (num * 2 ^ unitExponent / den).log2 :=
    Nat.le_trans (Nat.add_le_add_right hn _) ((Nat.le_log2 hpos).2 hquotient)
  have hcode : infinityCode ≤ ((num * 2 ^ unitExponent / den).log2 - 52) * 2 ^ 52 :=
    Nat.mul_le_mul_right _ (Nat.le_sub_of_add_le hlog)
  exact congrArg (ofCode negative) (Nat.min_eq_left (Nat.le_add_right_of_le hcode))

theorem ofRatio_eq_zero (h : num * 2 ^ unitExponent * 2 < den) :
    ofRatio negative num den = zero negative := by
  have hlt : num * 2 ^ unitExponent < den :=
    Nat.lt_of_le_of_lt (Nat.le_mul_of_pos_right _ (by decide)) h
  have hround : roundDiv (num * 2 ^ unitExponent) den = 0 := by
    rw [roundDiv, Nat.div_eq_of_lt hlt, Nat.mod_eq_of_lt hlt]
    exact if_neg (by omega)
  simp only [ofRatio, Nat.div_eq_of_lt hlt, Nat.log2_zero, Nat.zero_sub, Nat.pow_zero, Nat.mul_one,
    hround, Nat.zero_mul, Nat.add_zero, Nat.min_zero, zero]

/-! ## Decimals -/

theorem two_pow_le_ten_pow {n t : Nat} (h : n ≤ 3 * t) : 2 ^ n ≤ 10 ^ t :=
  calc 2 ^ n ≤ 2 ^ (3 * t) := Nat.pow_le_pow_right (by decide) h
    _ = (2 ^ 3) ^ t := by rw [Nat.pow_mul]
    _ ≤ 10 ^ t := Nat.pow_le_pow_left (by decide) t

/-- Ten binary digits are worth more than three decimal ones. -/
theorem ten_pow_le_two_pow {t n : Nat} (h : 10 * t ≤ 3 * n) : 10 ^ t ≤ 2 ^ n := by
  have hpow : (10 ^ t) ^ 10 ≤ (2 ^ n) ^ 10 := by
    calc (10 ^ t) ^ 10 = 10 ^ (10 * t) := by rw [← Nat.pow_mul, Nat.mul_comm]
      _ ≤ 10 ^ (3 * n) := Nat.pow_le_pow_right (by decide) h
      _ = (10 ^ 3) ^ n := by rw [Nat.pow_mul]
      _ ≤ (2 ^ 10) ^ n := Nat.pow_le_pow_left (by decide) n
      _ = (2 ^ n) ^ 10 := by rw [← Nat.pow_mul, ← Nat.pow_mul, Nat.mul_comm]
  exact (Nat.pow_le_pow_iff_left (by decide)).1 hpow

/-- The number nearest to a decimal is the one nearest to its quotient: what is decided by the size
alone is decided alike. -/
theorem ofDecimal_eq_ofRatio (negative : Bool) {digits : Nat} (h : 0 < digits) (exponent : Int) :
    ofDecimal negative digits exponent =
      ofRatio negative (digits * 10 ^ exponent.toNat) (10 ^ (-exponent).toNat) := by
  have hlow := Nat.log2_self_le (Nat.ne_of_gt h)
  have hhigh := Nat.lt_log2_self (n := digits)
  generalize hlog : digits.log2 = log at hlow hhigh
  unfold ofDecimal
  rw [if_neg (Nat.ne_of_gt h), hlog]
  split_ifs with hlarge hsmall
  · refine (ofRatio_eq_infinity (n := 1025) (Nat.le_refl _) (by positivity) ?_).symm
    have hten : 10 ^ (log * 3 / 10) ≤ digits :=
      Nat.le_trans (ten_pow_le_two_pow (by omega)) hlow
    calc 2 ^ 1025 * 10 ^ (-exponent).toNat ≤ 10 ^ 401 * 10 ^ (-exponent).toNat :=
          Nat.mul_le_mul_right _ (two_pow_le_ten_pow (by decide))
      _ = 10 ^ (401 + (-exponent).toNat) := by rw [Nat.pow_add]
      _ ≤ 10 ^ (log * 3 / 10 + exponent.toNat) := Nat.pow_le_pow_right (by decide) (by omega)
      _ = 10 ^ (log * 3 / 10) * 10 ^ exponent.toNat := by rw [Nat.pow_add]
      _ ≤ digits * 10 ^ exponent.toNat := Nat.mul_le_mul_right _ hten
  · refine (ofRatio_eq_zero ?_).symm
    have hexponent : exponent.toNat = 0 := by omega
    rw [hexponent, Nat.pow_zero, Nat.mul_one]
    calc digits * 2 ^ unitExponent * 2 < 2 ^ (log + 1) * 2 ^ unitExponent * 2 := by
          have hpos := Nat.two_pow_pos unitExponent
          exact Nat.mul_lt_mul_of_pos_right (Nat.mul_lt_mul_of_pos_right hhigh hpos) (by decide)
      _ = 2 ^ log * 2 ^ (unitExponent + 2) := by rw [Nat.pow_succ, Nat.pow_add]; ring
      _ ≤ 10 ^ log * 10 ^ 401 :=
          Nat.mul_le_mul (Nat.pow_le_pow_left (by decide) _) (two_pow_le_ten_pow (by decide))
      _ = 10 ^ (log + 401) := by rw [Nat.pow_add]
      _ ≤ 10 ^ (-exponent).toNat := Nat.pow_le_pow_right (by decide) (by omega)
  · cases exponent with
    | ofNat e =>
      change _ = ofRatio negative (digits * 10 ^ e) (10 ^ (-(e : Int)).toNat)
      rw [show (-(e : Int)).toNat = 0 by omega, Nat.pow_zero]
    | negSucc e =>
      change _ = ofRatio negative (digits * 10 ^ 0) (10 ^ (e + 1))
      rw [Nat.pow_zero, Nat.mul_one]

theorem ofDecimal_mul_pow (negative : Bool) {digits : Nat} (h : 0 < digits) (k : Nat)
    (exponent : Int) :
    ofDecimal negative (digits * 10 ^ k) exponent = ofDecimal negative digits (exponent + k) := by
  rw [ofDecimal_eq_ofRatio _ (by positivity), ofDecimal_eq_ofRatio _ h]
  refine ofRatio_congr (by positivity) (by positivity) ?_
  rw [Nat.mul_assoc, Nat.mul_assoc, Nat.mul_assoc, ← Nat.pow_add, ← Nat.pow_add, ← Nat.pow_add]
  congr 2
  omega

/-! ## Finite numbers -/

theorem ofCode_code (x : Binary64) : ofCode x.isNegative x.code = x := by
  obtain ⟨bits⟩ := x
  have hbits := bits.toNat_lt
  refine congrArg Binary64.mk (UInt64.toNat_inj.1 ?_)
  rw [UInt64.toNat_ofNat', isNegative, code]
  dsimp only
  split <;> simp_all <;> omega

/-- The code of a number is the power of two that its leading bit stands for and its significand. -/
theorem code_of_units (x : Binary64) :
    (x.units.log2 - 52) * 2 ^ 52 + roundDiv x.units (2 ^ (x.units.log2 - 52)) = x.code := by
  rw [units, scale, significand]
  split
  · rename_i hlt
    have hlog : x.code.log2 - 52 = 0 := by
      by_cases hzero : x.code = 0
      · rw [hzero, Nat.log2_zero]
      · exact Nat.sub_eq_zero_of_le (Nat.le_of_lt ((Nat.log2_lt hzero).2 hlt))
    rw [Nat.div_eq_of_lt hlt, Nat.zero_sub, Nat.pow_zero, Nat.mul_one, hlog, Nat.zero_mul,
      Nat.pow_zero, roundDiv_one, Nat.zero_add]
  · rename_i hge
    generalize hscale : x.code / 2 ^ 52 - 1 = s
    generalize hsignificand : x.code % 2 ^ 52 + 2 ^ 52 = m
    have hcode : s * 2 ^ 52 + m = x.code := by omega
    have hlow : 2 ^ 52 ≤ m := by omega
    have hhigh : m < 2 ^ 53 := by omega
    have hlog : (m * 2 ^ s).log2 = 52 + s := by
      rw [Nat.log2_eq_iff (by positivity), Nat.pow_add, Nat.add_right_comm, Nat.pow_add _ (52 + 1)]
      exact ⟨Nat.mul_le_mul_right _ hlow, Nat.mul_lt_mul_of_pos_right hhigh (Nat.two_pow_pos s)⟩
    have hround := roundDiv_mul_right m 1 (Nat.two_pow_pos s)
    rw [Nat.one_mul, roundDiv_one] at hround
    rw [hlog, Nat.add_sub_cancel_left, hround, hcode]

theorem ofRatio_units {x : Binary64} (h : x.isFinite = true) :
    ofRatio x.isNegative x.units (2 ^ unitExponent) = x := by
  have hfinite : x.code < infinityCode := of_decide_eq_true h
  have hpos := Nat.two_pow_pos unitExponent
  have hround (p : Nat) : roundDiv (x.units * 2 ^ unitExponent) (2 ^ unitExponent * 2 ^ p) =
      roundDiv x.units (2 ^ p) := by
    rw [Nat.mul_comm (2 ^ unitExponent), roundDiv_mul_right _ _ hpos]
  simp only [ofRatio, Nat.mul_div_cancel _ hpos, hround, code_of_units,
    Nat.min_eq_right (Nat.le_of_lt hfinite), ofCode_code]

theorem units_pos {x : Binary64} (h : x.code ≠ 0) : 0 < x.units := by
  refine Nat.mul_pos ?_ (Nat.two_pow_pos _)
  rw [significand]
  split
  · exact Nat.pos_of_ne_zero h
  · exact Nat.add_pos_right _ (Nat.two_pow_pos 52)

/-- A finite number is the number nearest to its decimal with all digits. -/
theorem ofDecimal_units {x : Binary64} (h : x.isFinite = true) (hzero : x.code ≠ 0) :
    ofDecimal x.isNegative (x.units * 10 ^ unitExponent / 2 ^ unitExponent) (-unitExponent) =
      x := by
  have hpos := Nat.two_pow_pos unitExponent
  have hunits := units_pos hzero
  have hdigits : x.units * 10 ^ unitExponent / 2 ^ unitExponent = x.units * 5 ^ unitExponent := by
    rw [show 10 = 5 * 2 from rfl, Nat.mul_pow, ← Nat.mul_assoc, Nat.mul_div_cancel _ hpos]
  rw [hdigits, ofDecimal_eq_ofRatio _ (Nat.mul_pos hunits (Nat.pow_pos (by decide))), Int.neg_neg,
    Int.toNat_natCast, Int.toNat_neg_natCast, Nat.pow_zero, Nat.mul_one]
  refine (ofRatio_congr (Nat.pow_pos (by decide)) hpos ?_).trans (ofRatio_units h)
  rw [Nat.mul_assoc, ← Nat.mul_pow]

/-! ## No number -/

theorem code_ofCode (negative : Bool) {code : Nat} (h : code < 2 ^ 63) :
    (ofCode negative code).code = code := by
  rw [Binary64.code, ofCode, UInt64.toNat_ofNat']
  split <;> omega

theorem isNaN_ofCode (negative : Bool) {code : Nat} (h : code ≤ infinityCode) :
    (ofCode negative code).isNaN = false := by
  rw [isNaN, code_ofCode negative (Nat.lt_of_le_of_lt h (by decide))]
  exact decide_eq_false (Nat.not_lt.2 h)

theorem isNaN_ofDecimal (negative : Bool) (digits : Nat) (exponent : Int) :
    (ofDecimal negative digits exponent).isNaN = false := by
  unfold ofDecimal
  dsimp only
  split_ifs
  · exact isNaN_ofCode negative (Nat.zero_le _)
  · exact isNaN_ofCode negative (Nat.le_refl _)
  · exact isNaN_ofCode negative (Nat.zero_le _)
  · split <;> exact isNaN_ofCode negative (Nat.min_le_left _ _)

end LspWire.Binary64
