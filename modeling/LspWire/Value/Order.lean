import LspWire.Value.Equality

/-!
# Order of values

Numbers of all kinds are ordered by value, texts by their characters, and the members of an
enumeration with an order by their raw values, among themselves. Lists are ordered by their first
items that are not equal, or else by their lengths. No other values are ordered.
-/

namespace LspWire

namespace Value

variable {R E : Type} [DecidableEq R] [DecidableEq E]

/-- The number that a value is, in units of the least floating-point number. -/
def units? : Value R E → Option Int
  | .scalar (.float x) => if x.isNaN then none else some x.signedUnits
  | v => v.toInt?.map (· * 2 ^ Binary64.unitExponent)

mutual

/-- How a value compares with another one, if the two are ordered. -/
def compare? (S : Schema R E) : Value R E → Value R E → Option Ordering
  | .scalar (.str s), .scalar (.str t) => some (compare s t)
  | .member e m, .member f n =>
    match m.raw, n.raw with
    | .int i, .int j =>
      if e = f ∧ (S.enumeration e).isOrdered then some (compare i j) else none
    | _, _ => none
  | .list xs, .list ys => compareItems? S xs ys
  | v, w => do
    let i ← v.units?
    let j ← w.units?
    pure (compare i j)

/-- How lists compare: items that are equal decide nothing, and need no order. -/
def compareItems? (S : Schema R E) : List (Value R E) → List (Value R E) → Option Ordering
  | [], [] => some .eq
  | [], _ :: _ => some .lt
  | _ :: _, [] => some .gt
  | x :: xs, y :: ys => if x.equal y then compareItems? S xs ys else compare? S x y

end

end Value

end LspWire
