import LspWire.Number.Binary64

/-!
# Structured data

`Json` is the data that messages consist of: scalars, arrays and objects. Integers are unbounded and
kept apart from floating-point numbers, and objects keep the order of their keys. Readers of text
never give an object with a repeated key (`Json.put`).
-/

namespace LspWire

/-- A datum without parts. -/
inductive Scalar where
  | null
  | bool (b : Bool)
  | int (n : Int)
  | float (x : Binary64)
  | str (s : String)
deriving DecidableEq, Repr

/-- Structured data. -/
inductive Json where
  | scalar (s : Scalar)
  | arr (items : List Json)
  | obj (entries : List (String × Json))
deriving Repr

instance : Inhabited Json := ⟨.scalar .null⟩

/-- The sorts of data that error messages tell apart. -/
inductive Kind where
  | null
  | bool
  | int
  | float
  | str
  | list
  | map
deriving DecidableEq, Repr

namespace Kind

/-- The word for a sort of data. -/
def word : Kind → String
  | .null => "null"
  | .bool => "bool"
  | .int => "int"
  | .float => "float"
  | .str => "str"
  | .list => "list"
  | .map => "dict"

/-- The word for a sort of data where null is named by its type. -/
def typeWord : Kind → String
  | .null => "NoneType"
  | kind => kind.word

end Kind

namespace Scalar

def kind : Scalar → Kind
  | .null => .null
  | .bool _ => .bool
  | .int _ => .int
  | .float _ => .float
  | .str _ => .str

end Scalar

namespace Json

@[match_pattern] abbrev null : Json := .scalar .null
@[match_pattern] abbrev bool (b : Bool) : Json := .scalar (.bool b)
@[match_pattern] abbrev int (n : Int) : Json := .scalar (.int n)
@[match_pattern] abbrev float (x : Binary64) : Json := .scalar (.float x)
@[match_pattern] abbrev str (s : String) : Json := .scalar (.str s)

def kind : Json → Kind
  | .scalar s => s.kind
  | .arr _ => .list
  | .obj _ => .map

mutual

/-- Equality of data, the order of keys included. -/
def decEq : (a b : Json) → Decidable (a = b)
  | .scalar a, .scalar b =>
    if h : a = b then isTrue (by rw [h]) else isFalse (by simpa using h)
  | .arr a, .arr b =>
    match decEqItems a b with
    | isTrue h => isTrue (by rw [h])
    | isFalse h => isFalse (by simpa using h)
  | .obj a, .obj b =>
    match decEqEntries a b with
    | isTrue h => isTrue (by rw [h])
    | isFalse h => isFalse (by simpa using h)
  | .scalar _, .arr _ => isFalse nofun
  | .scalar _, .obj _ => isFalse nofun
  | .arr _, .scalar _ => isFalse nofun
  | .arr _, .obj _ => isFalse nofun
  | .obj _, .scalar _ => isFalse nofun
  | .obj _, .arr _ => isFalse nofun

def decEqItems : (a b : List Json) → Decidable (a = b)
  | [], [] => isTrue rfl
  | [], _ :: _ => isFalse nofun
  | _ :: _, [] => isFalse nofun
  | a :: as, b :: bs =>
    match decEq a b, decEqItems as bs with
    | isTrue h, isTrue hs => isTrue (by rw [h, hs])
    | isFalse h, _ => isFalse (by simp [h])
    | _, isFalse hs => isFalse (by simp [hs])

def decEqEntries : (a b : List (String × Json)) → Decidable (a = b)
  | [], [] => isTrue rfl
  | [], _ :: _ => isFalse nofun
  | _ :: _, [] => isFalse nofun
  | (j, a) :: as, (k, b) :: bs =>
    match instDecidableEqString j k, decEq a b, decEqEntries as bs with
    | isTrue h₀, isTrue h, isTrue hs => isTrue (by rw [h₀, h, hs])
    | isFalse h₀, _, _ => isFalse (by simp [h₀])
    | _, isFalse h, _ => isFalse (by simp [h])
    | _, _, isFalse hs => isFalse (by simp [hs])

end

instance : DecidableEq Json := decEq

/-- An entry put into an object: a key that is there already keeps its place and takes the new
value. -/
def put {α : Type} (key : String) (value : α) : List (String × α) → List (String × α)
  | [] => [(key, value)]
  | (k, v) :: entries =>
    if k = key then (key, value) :: entries else (k, v) :: put key value entries

@[simp] theorem put_nil {α : Type} (key : String) (value : α) :
    put key value [] = [(key, value)] := rfl

/-- Putting an entry adds its key at the end unless it is there already. -/
theorem map_fst_put {α : Type} (key : String) (value : α) (entries : List (String × α)) :
    (put key value entries).map Prod.fst =
      if key ∈ entries.map Prod.fst then entries.map Prod.fst
      else entries.map Prod.fst ++ [key] := by
  induction entries with
  | nil => rfl
  | cons entry entries ih =>
    obtain ⟨k, v⟩ := entry
    by_cases h : k = key
    · simp [put, h]
    · have h' : ¬key = k := fun e => h e.symm
      simp only [put, h, if_false, List.map_cons, ih, List.mem_cons, h', false_or]
      split <;> rfl

end Json

end LspWire
