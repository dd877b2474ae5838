import LspWire.Json.Reader

/-!
# The outline of a text

How deep a text nests can be told from its brackets and quotes alone, without reading it, and so can
whether the escapes of halves of pairs belong together. The reader has no limit of its own on the
first, and puts the replacement character for a half that stands alone.
-/

namespace LspWire.Json

/-! ## Nesting -/

/-- How many arrays and objects are open at once, at most, in a text or before it, where `level` are
open before it. Within a string nothing is opened or closed. -/
def nestingFrom : Bool → Nat → List Char → Nat
  | _, level, [] => level
  | true, level, '\\' :: _ :: cs => nestingFrom true level cs
  | true, level, c :: cs => nestingFrom (c ≠ '"') level cs
  | false, level, c :: cs =>
    if c = '"' then nestingFrom true level cs
    else if c = '[' ∨ c = '{' then nestingFrom false (level + 1) cs
    else if c = ']' ∨ c = '}' then max level (nestingFrom false (level - 1) cs)
    else nestingFrom false level cs

/-- How deep a text nests. -/
def nesting (text : List Char) : Nat := nestingFrom false 0 text

mutual

/-- How deep data nests. Scalars do not. -/
def depth : Json → Nat
  | .scalar _ => 0
  | .arr items => depthItems items + 1
  | .obj entries => depthEntries entries + 1

def depthItems : List Json → Nat
  | [] => 0
  | x :: xs => max x.depth (depthItems xs)

def depthEntries : List (String × Json) → Nat
  | [] => 0
  | (_, x) :: entries => max x.depth (depthEntries entries)

end

/-! ## Pairs -/

/-- The codes that a text escapes, in order, with nothing in place of all other characters. -/
def escapedCodes : List Char → List (Option Nat)
  | '\\' :: 'u' :: a :: b :: c :: d :: cs => Reader.code? a b c d :: escapedCodes cs
  | '\\' :: _ :: cs => none :: escapedCodes cs
  | _ :: cs => none :: escapedCodes cs
  | [] => []

/-- Whether each half of a pair among codes stands beside its other half. -/
def arePaired : List (Option Nat) → Bool
  | [] => true
  | none :: codes => arePaired codes
  | some m :: some n :: codes =>
    if Reader.isHighSurrogate m && Reader.isLowSurrogate n then arePaired codes
    else !(Reader.isHighSurrogate m || Reader.isLowSurrogate m) && arePaired (some n :: codes)
  | some m :: codes => !(Reader.isHighSurrogate m || Reader.isLowSurrogate m) && arePaired codes

/-- Whether no escape in a text is half of a pair by itself. -/
def isPaired (text : List Char) : Bool := arePaired (escapedCodes text)

end LspWire.Json
