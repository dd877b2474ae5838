import LspWire.Schema.Declaration

/-!
# Values

A `Value` is data with the types that decoding chose for it: records with their fields in
declaration order, members of enumerations, raw values that have no member, and free-form data. The
names of records and enumerations are the parameters.
-/

namespace LspWire

/-- A value over record names `R` and enumeration names `E`. -/
inductive Value (R E : Type) where
  | scalar (s : Scalar)
  | list (items : List (Value R E))
  | map (entries : List (String × Value R E))
  | member (e : E) (m : Member)
  /-- A sum of members of an enumeration of flags. -/
  | flags (e : E) (bits : Int)
  /-- A raw value of an enumeration that has no member for it. -/
  | unknown (raw : Scalar)
  | record (r : R) (fields : List (Value R E))
deriving Repr

namespace Value

variable {R E : Type}

instance : Inhabited (Value R E) := ⟨.scalar .null⟩

@[match_pattern] abbrev null : Value R E := .scalar .null
@[match_pattern] abbrev bool (b : Bool) : Value R E := .scalar (.bool b)
@[match_pattern] abbrev int (n : Int) : Value R E := .scalar (.int n)
@[match_pattern] abbrev float (x : Binary64) : Value R E := .scalar (.float x)
@[match_pattern] abbrev str (s : String) : Value R E := .scalar (.str s)

def isNull : Value R E → Bool
  | .scalar .null => true
  | _ => false

/-- The integer that a value counts as. -/
def toInt? : Value R E → Option Int
  | .scalar (.int n) => some n
  | .scalar (.bool b) => some (if b then 1 else 0)
  | .flags _ bits => some bits
  | _ => none

mutual

/-- Data as a free-form value. -/
def ofJson : Json → Value R E
  | .scalar s => .scalar s
  | .arr items => .list (ofItems items)
  | .obj entries => .map (ofEntries entries)

def ofItems : List Json → List (Value R E)
  | [] => []
  | x :: xs => ofJson x :: ofItems xs

def ofEntries : List (String × Json) → List (String × Value R E)
  | [] => []
  | (key, x) :: entries => (key, ofJson x) :: ofEntries entries

end

theorem ofItems_eq_map (items : List Json) :
    ofItems (R := R) (E := E) items = items.map ofJson := by
  induction items with
  | nil => rfl
  | cons x xs ih => rw [ofItems, ih, List.map_cons]

theorem ofEntries_eq_map (entries : List (String × Json)) :
    ofEntries (R := R) (E := E) entries = entries.map fun (key, x) => (key, ofJson x) := by
  induction entries with
  | nil => rfl
  | cons entry entries ih => rw [ofEntries, ih, List.map_cons]

end Value

namespace EnumDecl

/-- The bit patterns of flags that a pattern consists of, with the names of their members. -/
def parts (d : EnumDecl) (bits : Int) : List (String × Nat) :=
  d.members.filterMap fun m =>
    match m.raw with
    | .int n => if bits.toNat &&& n.toNat = n.toNat then some (m.name, n.toNat) else none
    | _ => none

/-- The bit pattern that a sum of flags is kept as. A negative number counts down from the least
power of two that is above both its digits and all flags. -/
def normalBits (d : EnumDecl) (bits : Int) : Int :=
  let top := d.members.foldl (fun n m => match m.raw with
    | .int k => max n k.toNat
    | _ => n) 0
  let span : Nat := 2 ^ (top.log2 + 1)
  if bits < 0 then
    if -(span : Int) ≤ bits then bits + span
    else bits + (2 ^ (bits.natAbs.log2 + 1) : Nat)
  else bits

/-- The name of a sum of flags: those of its members, with bars between them, and the number that
is left over. A sum without any member has no name. -/
def flagsName (d : EnumDecl) (bits : Int) : Option String :=
  let found := d.parts bits
  let rest := bits - found.foldl (fun total (_, n) => total + (n : Int)) 0
  if found.isEmpty then none
  else
    some ("|".intercalate
      (found.map Prod.fst ++ if rest = 0 then [] else [toString rest]))

end EnumDecl

end LspWire
