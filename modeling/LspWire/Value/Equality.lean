import LspWire.Value.Basic

/-!
# Equality of values

Values are equal by structure. Numbers are compared by value across their kinds, so a floating-point
number equals the integer of the same value, and the Boolean constants count as one and zero. Maps
are compared as maps, without regard to the order of their keys. Records, members and raw values
without a member equal only their own sort.
-/

namespace LspWire

namespace Scalar

/-- Whether a floating-point number has the value of an integer. -/
def floatIsInt (x : Binary64) (n : Int) : Bool := x.toInt? = some n

/-- The number that a Boolean constant counts as. -/
def numberOfBool (b : Bool) : Int := if b then 1 else 0

/-- Equality of scalars. -/
def equal : Scalar → Scalar → Bool
  | .null, .null => true
  | .str s, .str t => s == t
  | .int m, .int n => m == n
  | .bool a, .bool b => a == b
  | .float x, .float y => x.sameValue y
  | .bool b, .int n | .int n, .bool b => numberOfBool b == n
  | .float x, .int n | .int n, .float x => floatIsInt x n
  | .float x, .bool b | .bool b, .float x => floatIsInt x (numberOfBool b)
  | _, _ => false

end Scalar

namespace Value

variable {R E : Type} [DecidableEq R] [DecidableEq E]

mutual

/-- Equality of values. -/
def equal : Value R E → Value R E → Bool
  | .scalar s, .scalar t => s.equal t
  | .flags _ m, .flags _ n => m == n
  | .flags _ n, .scalar s | .scalar s, .flags _ n => s.equal (.int n)
  | .member e m, .member f n => e = f && m.name == n.name
  | .unknown s, .unknown t => s.equal t
  | .list xs, .list ys => equalItems xs ys
  | .record r xs, .record s ys => r = s && equalItems xs ys
  | .map xs, .map ys => xs.length == ys.length && equalEntries xs ys
  | _, _ => false

def equalItems : List (Value R E) → List (Value R E) → Bool
  | [], [] => true
  | x :: xs, y :: ys => equal x y && equalItems xs ys
  | _, _ => false

/-- Whether a map has every entry of another one. -/
def equalEntries : List (String × Value R E) → List (String × Value R E) → Bool
  | [], _ => true
  | (key, x) :: xs, ys =>
    (match ys.lookup key with
      | some y => equal x y
      | none => false) && equalEntries xs ys

end

end Value

end LspWire
