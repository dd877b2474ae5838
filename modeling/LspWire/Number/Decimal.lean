import LspWire.Number.Binary64

/-!
# Decimal notation of binary numbers

A finite number is written with the fewest significant digits that read back as the same number;
among texts of that length the nearest one is taken. Positional notation is used while the decimal
point stands less than four places before the first digit and at most sixteen after it, otherwise
scientific notation.
-/

namespace LspWire

/-- Decimal digits, most significant first, with the place of the decimal point counted from
before the first digit. -/
structure Decimal where
  digits : List Char
  point : Int
deriving DecidableEq, Repr

namespace Decimal

/-- Digits without the zeros at their end, but at least one. -/
def trim (digits : List Char) : List Char :=
  match (digits.reverse.dropWhile (· = '0')).reverse with
  | [] => ['0']
  | c :: cs => c :: cs

/-- The decimal of `n * 10 ^ exponent`. -/
def ofScaled (n : Nat) (exponent : Int) : Decimal :=
  let digits := Nat.toDigits 10 n
  ⟨trim digits, digits.length + exponent⟩

/-- Where the decimal point of a positive finite number stands. The quotient has more than seventy
digits for the smallest number already. -/
def pointOf (x : Binary64) : Int :=
  let n := x.units * 10 ^ 400 / 2 ^ Binary64.unitExponent
  (Nat.toDigits 10 n).length - 400

/-- The two neighbours of `x * 10 ^ shift` among the natural numbers, the nearer one first and the
even one first on a tie. -/
def neighbours (x : Binary64) (shift : Int) : List Nat :=
  let (num, den) := match shift with
    | .ofNat s => (x.units * 10 ^ s, 2 ^ Binary64.unitExponent)
    | .negSucc s => (x.units, 2 ^ Binary64.unitExponent * 10 ^ (s + 1))
  let near := Binary64.roundDiv num den
  if near = num / den then [near, near + 1] else [near, near - 1]

/-- The nearest text of `count` digits that reads back as `x`. -/
def ofLength? (x : Binary64) (count : Nat) : Option Decimal :=
  let shift := (count : Int) - pointOf x
  ((neighbours x shift).find? fun n =>
    Binary64.ofDecimal x.isNegative n (-shift) = x).map fun n => ofScaled n (-shift)

/-- The shortest text of a finite number that reads back. Seventeen digits are always enough. -/
def shortest (x : Binary64) : Decimal :=
  if x.code = 0 then ⟨['0'], 1⟩
  else
    ((List.range 17).findSome? fun n => ofLength? x (n + 1)).getD
      (ofScaled (x.units * 10 ^ Binary64.unitExponent / 2 ^ Binary64.unitExponent)
        (-Binary64.unitExponent))

/-- The exponent of scientific notation: a sign and at least two digits. -/
def exponentText (e : Int) : List Char :=
  let digits := Nat.toDigits 10 e.natAbs
  (if e < 0 then '-' else '+') :: List.replicate (2 - digits.length) '0' ++ digits

/-- The notation of a decimal. -/
def layout (d : Decimal) : List Char :=
  if -4 < d.point ∧ d.point ≤ 16 then
    if d.point ≤ 0 then
      '0' :: '.' :: (List.replicate d.point.natAbs '0' ++ d.digits)
    else
      let before := d.digits.take d.point.toNat
      let zeros := List.replicate (d.point.toNat - d.digits.length) '0'
      let after := d.digits.drop d.point.toNat
      before ++ zeros ++ '.' :: (if after.isEmpty then ['0'] else after)
  else
    let after := d.digits.drop 1
    d.digits.take 1 ++ (if after.isEmpty then [] else '.' :: after) ++
      'e' :: exponentText (d.point - 1)

end Decimal

namespace Binary64

/-- The text of a number. -/
def text (x : Binary64) : String :=
  let sign := if x.isNegative then "-" else ""
  if x.isNaN then "nan"
  else if x.isFinite then sign ++ String.ofList (Decimal.shortest x).layout
  else sign ++ "inf"

end Binary64

end LspWire
