import LspWire.Decode

/-!
# Samples

Schemas of one declaration, called `Probe`, whose tags are given as texts. They show what tags do
apart from the protocol: `Sample.record` has a required integer `a` and an optional integer `b`, and
`Sample.enumeration` has members that count from one.

A text that is no version is refused at once if it has to tell whether the part is proposed.
Otherwise it is refused where the version is looked at: a record is compared with all versions when
it is shown, and its field when data is decoded.
-/

namespace LspWire.Sample

/-- The name of the only declaration. -/
def probeName : String := "Probe"

/-- What introduces a part: a version text, and whether the part is proposed if it does not follow
from the version. -/
structure Since where
  text? : Option String
  proposed? : Option Bool
deriving DecidableEq, Repr

/-- A tag, and what keeps its text from being a version. The version of a tag with such a text plays
no part. -/
structure LooseTag where
  tag? : Option Tag
  fault? : Option VersionError
deriving DecidableEq, Repr

/-- The tag that a part is given. -/
def Since.tag (s : Since) : Except VersionError LooseTag :=
  match s.text? with
  | none => .ok ⟨none, none⟩
  | some text =>
    match Tag.parse text s.proposed?, s.proposed? with
    | .ok tag, _ => .ok ⟨some tag, none⟩
    | .error e, none => .error e
    | .error e, some proposed => .ok ⟨some ⟨text, ⟨0, 0⟩, proposed⟩, some e⟩

/-- The bound of a limited field. -/
def limit : Nat := 100

/-- A record with one tagged field. -/
structure RecordSample where
  tag? : Option Tag
  field : Field Unit Empty
  /-- Whether the text of the field's tag is no version. -/
  isUnreadable : Bool
deriving Repr

namespace RecordSample

/-- The schema of a record with some fields. -/
def schemaOf (tag? : Option Tag) (fields : List (Field Unit Empty)) : Schema Unit Empty :=
  ⟨fun _ => ⟨probeName, tag?, .plain fields⟩, nofun⟩

/-- The schema of the record. -/
def schema (s : RecordSample) : Schema Unit Empty :=
  schemaOf s.tag? [.required "a" .int, s.field]

/-- Whether decoding looks at the version of the field: the field of a proposed part is hidden
without that unless the proposed parts are enabled. -/
def looksAtField (s : RecordSample) (enabled : Bool) : Bool :=
  enabled || !Surface.isProposed s.field.tag

/-- Reads data as the record. The version of the field is looked at before any field is read. -/
def decode (s : RecordSample) (enabled : Bool) (version? : Option SpecVersion) (x : Json) :
    Except Error (Value Unit Empty) :=
  if s.isUnreadable && s.looksAtField enabled then do
    let _ ← (schemaOf s.tag? []).decode enabled version? (.record ()) x
    throw (.mismatch (.type probeName [.here (.unreadableTag probeName)]))
  else s.schema.decode enabled version? (.record ()) x

end RecordSample

/-- A record whose field has a tag that may be limited to a hundred. A field with an empty text for
its tag belongs to all versions, and is checked where it is proposed. -/
def record (type field : Since) (limited : Bool) : Except VersionError RecordSample := do
  let part ← field.tag
  let whole ← type.tag
  match whole.fault? with
  | some e => throw e
  | none =>
    let limits := if limited && field.text?.isSome then [Check.atMost limit] else []
    if field.text? = some "" then
      let checks := if Surface.isProposed part.tag? then [Check.proposed] else []
      pure ⟨whole.tag?, ⟨"b", Ty.orNull .int, .null, none, checks ++ limits⟩, false⟩
    else
      pure ⟨whole.tag?, ⟨"b", Ty.orNull .int, .null, part.tag?, limits⟩, part.fault?.isSome⟩

/-- What keeps texts from declaring an enumeration. -/
inductive EnumError where
  | version (e : VersionError)
  /-- Tags for names that no member has. -/
  | noMembers (names : List String)
deriving DecidableEq, Repr

/-- The wording of an error. -/
def EnumError.message : EnumError → String
  | .version e => e.message
  | .noMembers names => probeName ++ " has no members " ++ Text.quotedList names

/-- Whether a version covers a member by its own tag, so that the tag of the enumeration decides. -/
def leavesToType (tag? : Option Tag) : Bool :=
  SpecVersion.all.any fun v => Surface.covers v tag?

/-- The members with their tags, counting from a number. The tag of the enumeration has to be read
for every member that leaves the matter to it. -/
def members (fault? : Option VersionError) (tags : List (String × String)) :
    Nat → List String → Except VersionError (List Member)
  | _, [] => .ok []
  | n, name :: names => do
    let own ← (Since.mk (tags.lookup name) none).tag
    match fault?.filter fun _ => leavesToType own.tag? with
    | some e => throw e
    | none =>
      let rest ← members fault? tags (n + 1) names
      pure (⟨name, .int n, own.tag?⟩ :: rest)

/-- The schema of an enumeration whose members may have tags of their own. -/
def enumeration (type : Since) (names : List String) (tags : List (String × String)) :
    Except EnumError (Schema Empty Unit) := do
  let whole ← type.tag.mapError .version
  let unknown := (tags.map Prod.fst).filter fun name => !names.contains name
  if !unknown.isEmpty then throw (.noMembers (unknown.mergeSort (· ≤ ·)))
  let members ← (members whole.fault? tags 1 names).mapError .version
  pure ⟨nofun, fun _ => ⟨probeName, whole.tag?, false, false, members⟩⟩

end LspWire.Sample
