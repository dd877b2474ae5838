import LspWire.Number.Integer
import LspWire.Text.Blank

/-!
# Versions of the protocol

`Version` is a major and a minor number. `SpecVersion` lists the versions that data can be decoded
as; the last one is proposed and covers the drafts up to its ceiling. A `Tag` says which version
introduced a part of the protocol and whether the part is proposed. The `Surface` is what is in
force when data is decoded: a version, and whether the proposed parts are enabled.
-/

namespace LspWire

/-- A version number. Patch levels play no part. -/
structure Version where
  major : Int
  minor : Int
deriving DecidableEq, Repr

/-- What keeps a text from being a version number. -/
inductive VersionError where
  | noMinor
  /-- A part that is no number. -/
  | badNumber (part : String) (fault : Number.IntegerFault)
deriving DecidableEq, Repr

namespace VersionError

def message : VersionError → String
  | .noMinor => "not enough values to unpack (expected at least 2, got 1)"
  | .badNumber part fault => fault.message part

end VersionError

namespace Version

/-- One number of a version. -/
def component (part : List Char) : Except VersionError Int :=
  (Number.readInteger part).mapError (.badNumber (String.ofList part))

/-- Reads the first two numbers of a text with points between its parts. -/
def parse (text : String) : Except VersionError Version :=
  match Text.splitAt '.' text.toList with
  | major :: minor :: _ => do
    let major ← component major
    let minor ← component minor
    pure ⟨major, minor⟩
  | _ => .error .noMinor

/-- Versions are ordered by their major number, then by their minor number. -/
def le (a b : Version) : Bool := a.major < b.major || (a.major == b.major && a.minor ≤ b.minor)

/-- The last version that is not proposed. -/
def lastStable : Version := ⟨3, 16⟩

/-- Whether a version comes after the last stable one. -/
def isProposed (v : Version) : Bool := !v.le lastStable

theorem le_refl (a : Version) : a.le a = true := by simp [le]

theorem le_trans {a b c : Version} (hab : a.le b = true) (hbc : b.le c = true) :
    a.le c = true := by
  simp only [le, Bool.or_eq_true, decide_eq_true_eq, Bool.and_eq_true, beq_iff_eq] at *
  omega

end Version

/-- The versions that data can be decoded as. -/
inductive SpecVersion where
  | v3_13
  | v3_16
  | v3_17
deriving DecidableEq, Repr

namespace SpecVersion

def all : List SpecVersion := [.v3_13, .v3_16, .v3_17]

/-- The name a version is called by. -/
def name : SpecVersion → String
  | .v3_13 => "V3_13"
  | .v3_16 => "V3_16"
  | .v3_17 => "PROPOSED"

/-- The short number a version is asked for by. -/
def label : SpecVersion → String
  | .v3_13 => "3.13"
  | .v3_16 => "3.16"
  | .v3_17 => "3.17"

/-- The full number of a version. -/
def value : SpecVersion → String
  | .v3_13 => "3.13.0"
  | .v3_16 => "3.16.0"
  | .v3_17 => "3.17.0"

/-- The number of a version. -/
def base : SpecVersion → Version
  | .v3_13 => ⟨3, 13⟩
  | .v3_16 => ⟨3, 16⟩
  | .v3_17 => ⟨3, 17⟩

/-- The last version number that a version covers. The proposed version also covers the drafts of
the next one. -/
def ceiling : SpecVersion → Version
  | .v3_17 => ⟨3, 18⟩
  | v => v.base

def isProposed (v : SpecVersion) : Bool := v.ceiling.isProposed

@[simp] theorem isProposed_eq_true_iff (v : SpecVersion) : v.isProposed = true ↔ v = .v3_17 := by
  cases v <;> decide

/-- The version with a short number. -/
def ofLabel? (label : String) : Option SpecVersion := all.find? (·.label = label)

/-- Why a text names no version. -/
inductive ParseError where
  | invalid (text : String)
  | unsupported (text : String)
deriving DecidableEq, Repr

def ParseError.message : ParseError → String
  | .invalid text => "invalid LSP version: " ++ text
  | .unsupported text => "unsupported LSP version: " ++ text

/-- The version that a text names: by the word for the proposed one, or by a number that is a
version's own or its ceiling. -/
def parse (text : String) : Except ParseError SpecVersion :=
  if Text.lowerAscii (Text.strip text.toList) = "proposed".toList then .ok .v3_17
  else
    match Version.parse text with
    | .error _ => .error (.invalid text)
    | .ok wanted =>
      match all.find? fun v => wanted = v.base || wanted = v.ceiling with
      | some v => .ok v
      | none => .error (.unsupported text)

/-- Versions are ordered by their ceilings. -/
def le (a b : SpecVersion) : Bool := a.ceiling.le b.ceiling

/-- How a version compares with another one. -/
def order (a b : SpecVersion) : Ordering :=
  if a.le b then if b.le a then .eq else .lt else .gt

end SpecVersion

/-- Which version introduced a part of the protocol, and whether the part is proposed. -/
structure Tag where
  text : String
  version : Version
  proposed : Bool
deriving DecidableEq, Repr

namespace Tag

/-- The tag for a version text. A part that came after the last stable version is proposed unless
`proposed?` says otherwise. -/
def parse (text : String) (proposed? : Option Bool := none) : Except VersionError Tag :=
  (Version.parse text).map fun v => ⟨text, v, proposed?.getD v.isProposed⟩

/-- The tag of a part introduced with a minor version of the third major version. -/
def since (minor : Nat) (proposed : Bool := 16 < minor) : Tag :=
  ⟨"3." ++ toString minor ++ ".0", ⟨3, minor⟩, proposed⟩

end Tag

/-- What is in force when data is decoded. -/
structure Surface where
  version : SpecVersion
  proposed : Bool
deriving DecidableEq, Repr

namespace Surface

/-- The version that data is decoded as unless another one is asked for. -/
def defaultVersion (proposed : Bool) : SpecVersion := if proposed then .v3_17 else .v3_16

/-- Whether a version covers a part with a tag. A part without one is always covered. -/
def covers (v : SpecVersion) (tag? : Option Tag) : Bool :=
  tag?.all fun tag => tag.version.le v.ceiling

/-- Whether a part is proposed. -/
def isProposed (tag? : Option Tag) : Bool := tag?.any (·.proposed)

/-- Whether a part with a tag belongs to the surface. -/
def admits (σ : Surface) (tag? : Option Tag) : Bool :=
  (σ.proposed || !isProposed tag?) && covers σ.version tag?

@[simp] theorem admits_none (σ : Surface) : σ.admits none = true := by
  simp [admits, isProposed, covers]

/-- The variable of the environment that enables the proposed parts. -/
def variableName : String := "LSP_TYPES_PROPOSED"

/-- The wording for a proposed part that is not enabled. -/
def disabledMessage (what : String) : String :=
  what ++ " belongs to the proposed protocol surface; set " ++ variableName ++ "=1 to enable it"

/-- The values of the variable that enable the proposed parts. -/
def enablingValues : List String := ["1", "true", "yes", "on"]

/-- Whether an environment enables the proposed parts. -/
def enabledBy (environment : List (String × String)) : Bool :=
  let value := (environment.lookup variableName).getD ""
  enablingValues.contains (String.ofList (Text.lowerAscii (Text.strip value.toList)))

end Surface

end LspWire
