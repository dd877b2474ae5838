import LspWire.Proofs.Induction
import LspWire.Proofs.Reading.Record
import LspWire.Protocol.Schema

/-!
# What the declarations have in common

The declarations of the protocol keep some rules that no type checks: the fields of a record have
distinct names, a field that belongs to a version may be left out, and a wire form of its own stands
nowhere but at a field. Every rule is a Boolean condition on single fields that is computed for all
records.
-/

namespace LspWire

variable {R E : Type}

namespace Ty

def isUnion : Ty R E → Bool
  | .union _ => true
  | _ => false

def isUnknown : Ty R E → Bool
  | .unknown => true
  | _ => false

def isEnumeration : Ty R E → Bool
  | .enumeration _ => true
  | _ => false

def isFloat : Ty R E → Bool
  | .float => true
  | _ => false

/-- Whether a type is not built over numbers with a fraction. -/
def isFloatless (t : Ty R E) : Bool := t.every fun u => !u.isFloat

end Ty

/-- Whether a type has a wire form of its own. -/
def Ty.isCodec : Ty R E → Bool
  | .packed _ | .recordOrFlag .. => true
  | _ => false

/-- Whether data of a type may stand anywhere: no type in it has a wire form of its own. -/
def Ty.isPortable (t : Ty R E) : Bool := t.every fun u => !u.isCodec

namespace Protocol

/-- The condition that a field meets, for each field of each record. -/
theorem of_all_fields {p : Field RecordName EnumName → Bool} {r : RecordName}
    (h : (schema.record r).fields.all p = true) {f : Field RecordName EnumName}
    (hf : f ∈ (schema.record r).fields) : p f = true :=
  List.all_eq_true.1 h f hf

theorem decide_nodup_names (r : RecordName) :
    decide ((schema.record r).fields.map (·.name)).Nodup = true := by
  cases r <;> rfl

theorem nodup_names (r : RecordName) : ((schema.record r).fields.map (·.name)).Nodup :=
  of_decide_eq_true (decide_nodup_names r)

theorem all_omittable_or_untagged (r : RecordName) :
    ((schema.record r).fields.all fun f => f.isOmittable || f.tag.isNone) = true := by
  cases r <;> rfl

theorem isVisible_of_not_omittable {r : RecordName} {f : Field RecordName EnumName}
    (hf : f ∈ (schema.record r).fields) (h : f.isOmittable = false) (σ : Surface) :
    f.isVisible σ = true := by
  have htag := of_all_fields (all_omittable_or_untagged r) hf
  rw [h, Bool.false_or, Option.isNone_iff_eq_none] at htag
  rw [Field.isVisible, htag, Surface.admits_none]

/-- Whether the record that a field holds when it is left out belongs to every version. -/
def hasStableDefault (f : Field RecordName EnumName) : Bool :=
  match f.default with
  | .blank r => (schema.record r).tag.isNone
  | _ => true

theorem all_hasStableDefault (r : RecordName) :
    (schema.record r).fields.all hasStableDefault = true := by
  cases r <;> rfl

/-- Whether the records of a wire form of its own belong to every surface that a field belongs to,
with all their fields. -/
def hasStableCodec (f : Field RecordName EnumName) : Bool :=
  match f.ty with
  | .packed r => (schema.record r).tag.isNone && (schema.record r).fields.all (·.tag.isNone)
  | .recordOrFlag r _ =>
    (schema.record r).tag = f.tag && (schema.record r).fields.all (·.tag.isNone)
  | t => t.isPortable

theorem all_hasStableCodec (r : RecordName) :
    (schema.record r).fields.all hasStableCodec = true := by
  cases r <;> rfl

/-- Whether the members of an enumeration of flags belong to every version. -/
def hasStableFlags (d : EnumDecl) : Bool :=
  !d.isFlags || (d.tag.isNone && d.members.all (·.tag.isNone))

theorem hasStableFlags_enumeration (e : EnumName) :
    hasStableFlags (schema.enumeration e) = true := by
  cases e <;> rfl

/-! ## Members of enumerations -/

theorem all_kind_members (e : EnumName) :
    ((schema.enumeration e).members.all fun m =>
      decide (m.raw.kind = (schema.enumeration e).kind)) = true := by
  cases e <;> rfl

theorem kind_of_mem {e : EnumName} {m : Member} (hm : m ∈ (schema.enumeration e).members) :
    m.raw.kind = (schema.enumeration e).kind :=
  of_decide_eq_true (List.all_eq_true.1 (all_kind_members e) m hm)

theorem decide_nodup_raws (e : EnumName) :
    decide ((schema.enumeration e).members.map (·.raw)).Nodup = true := by
  cases e <;> rfl

/-- Members of an enumeration are told apart by their raw values. -/
theorem withRaw?_of_mem {e : EnumName} {m : Member} (hm : m ∈ (schema.enumeration e).members) :
    (schema.enumeration e).withRaw? m.raw = some m := by
  have hfound : ((schema.enumeration e).withRaw? m.raw).isSome := by
    rw [EnumDecl.withRaw?, List.find?_isSome]
    exact ⟨m, hm, decide_eq_true rfl⟩
  obtain ⟨m', hm'⟩ := Option.isSome_iff_exists.1 hfound
  obtain ⟨hmem, hraw⟩ := Schema.raw_of_withRaw? hm'
  rw [hm', List.inj_on_of_nodup_map (of_decide_eq_true (decide_nodup_raws e)) hmem hm hraw]

theorem decodeAt_member {σ : Surface} {e : EnumName} {m : Member}
    (hflags : (schema.enumeration e).isFlags = false)
    (hm : m ∈ (schema.enumeration e).members)
    (hadmits : EnumDecl.admits σ (schema.enumeration e) m = true) :
    schema.decodeAt σ (.enumeration e) (.scalar m.raw) = .ok (.member e m) :=
  (Schema.decodeAt_enumeration_eq_ok_iff hflags).2 ⟨m.raw, m, rfl, kind_of_mem hm,
    Schema.admittedMember?_eq_some_iff.2 ⟨withRaw?_of_mem hm, hadmits⟩, rfl⟩

/-! ## Records with a map among their keys -/

/-- Whether a record whose keys are the entries of a map belongs to every version, with its field,
and no wire form of its own stands in it. -/
def hasStableSpread (d : Decl) : Bool :=
  match d.form with
  | .spread key _ _ item => d.tag.isNone && key.tag.isNone && key.ty.isPortable && item.isPortable
  | _ => true

theorem hasStableSpread_record (r : RecordName) : hasStableSpread (schema.record r) = true := by
  cases r <;> rfl

theorem spread_declaration {r : RecordName} {key : Field RecordName EnumName} {rest : String}
    {restTag : Option Tag} {item : DataType}
    (h : (schema.record r).form = .spread key rest restTag item) :
    (schema.record r).tag = none ∧ (∀ σ, key.isVisible σ = true) ∧ key.ty.isPortable = true ∧
      item.isPortable = true := by
  have hstable := hasStableSpread_record r
  simp only [hasStableSpread, h, Bool.and_eq_true, Option.isNone_iff_eq_none] at hstable
  obtain ⟨⟨⟨htag, hkey⟩, htitle⟩, hitem⟩ := hstable
  exact ⟨htag, fun σ => by rw [Field.isVisible, hkey, Surface.admits_none], htitle, hitem⟩

end Protocol

end LspWire
