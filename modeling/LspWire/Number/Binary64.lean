/-!
# Binary floating-point numbers

A number of the 64-bit binary format is its bits. A finite number is `m * 2 ^ p` units of
`2 ^ (-1074)`, where `p` is one less than the exponent field, or zero, and `m` is below `2 ^ 53`;
so all values are compared and rounded as natural numbers. `ofRatio` rounds a quotient to the
nearest number, a tie to the even significand.
-/

-- Powers are those of the core library, also where those of monoids are in scope.
attribute [instance (high), default_instance (high + 1)] instPowNat

namespace LspWire

/-- A number of the 64-bit binary floating-point format. -/
structure Binary64 where
  bits : UInt64
deriving DecidableEq, Repr

namespace Binary64

/-- The number of units in one, as a power of two. -/
def unitExponent : Nat := 1074

/-- The code of a magnitude: the bits without the sign. -/
def code (x : Binary64) : Nat := x.bits.toNat % 2 ^ 63

/-- Whether the sign bit is set. -/
def isNegative (x : Binary64) : Bool := 2 ^ 63 ≤ x.bits.toNat

/-- The code of infinity, the least that is no finite number. -/
def infinityCode : Nat := 2047 * 2 ^ 52

def isFinite (x : Binary64) : Bool := x.code < infinityCode

def isNaN (x : Binary64) : Bool := infinityCode < x.code

/-- The power of two that the significand is scaled by. -/
def scale (x : Binary64) : Nat := x.code / 2 ^ 52 - 1

/-- The significand, with its leading one where the format leaves it out. -/
def significand (x : Binary64) : Nat :=
  if x.code < 2 ^ 52 then x.code else x.code % 2 ^ 52 + 2 ^ 52

/-- The magnitude of a finite number, in units. -/
def units (x : Binary64) : Nat := x.significand * 2 ^ x.scale

/-- A number with its sign, in units. -/
def signedUnits (x : Binary64) : Int := if x.isNegative then -(x.units : Int) else x.units

/-- The number with a sign and the code of a magnitude. -/
def ofCode (negative : Bool) (code : Nat) : Binary64 :=
  ⟨UInt64.ofNat ((if negative then 2 ^ 63 else 0) + code)⟩

def infinity (negative : Bool) : Binary64 := ofCode negative infinityCode

def nan : Binary64 := ofCode false (infinityCode + 2 ^ 51)

def zero (negative : Bool) : Binary64 := ofCode negative 0

/-- A quotient rounded to a natural number, a tie to the even one. -/
def roundDiv (num den : Nat) : Nat :=
  let q := num / den
  let r := num % den
  if den < 2 * r ∨ (2 * r = den ∧ q % 2 = 1) then q + 1 else q

/-- The number nearest to `num / den`, a tie to the even significand. Past the largest finite
number it is infinity. The code of `m * 2 ^ p` is `p * 2 ^ 52 + m`, also when rounding carries
`m` to `2 ^ 53`. -/
def ofRatio (negative : Bool) (num den : Nat) : Binary64 :=
  let scaled := num * 2 ^ unitExponent
  let p := (scaled / den).log2 - 52
  ofCode negative (min infinityCode (p * 2 ^ 52 + roundDiv scaled (den * 2 ^ p)))

/-- The number nearest to an integer. -/
def ofInt (n : Int) : Binary64 := ofRatio (n < 0) n.natAbs 1

/-- The number nearest to `digits * 10 ^ exponent`. A magnitude that is far out of range, as the
number of binary digits shows, is decided without computing a power: `2 ^ 10` is above `10 ^ 3`
and below `10 ^ 10`. -/
def ofDecimal (negative : Bool) (digits : Nat) (exponent : Int) : Binary64 :=
  let size : Int := (digits.log2 : Int) * 3 / 10 + exponent
  if digits = 0 then zero negative
  else if 400 < size then infinity negative
  else if exponent + digits.log2 < -400 then zero negative
  else match exponent with
    | .ofNat e => ofRatio negative (digits * 10 ^ e) 1
    | .negSucc e => ofRatio negative digits (10 ^ (e + 1))

/-- The integer that a number is, if it is one. -/
def toInt? (x : Binary64) : Option Int :=
  if x.isFinite && x.units % 2 ^ unitExponent == 0 then
    let n := x.units / 2 ^ unitExponent
    some (if x.isNegative then -(n : Int) else n)
  else none

/-- Equality of values: the zeros are equal, and a number that is none equals nothing. -/
def sameValue (x y : Binary64) : Bool :=
  !x.isNaN && !y.isNaN && (x == y || (x.code == 0 && y.code == 0))

end Binary64

end LspWire
