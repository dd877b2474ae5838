import LspWire.Proofs.Checks
import LspWire.Protocol.Draft

/-!
# Well-typed drafts

A draft is well typed if the drafts of its parts are, its records have arguments for fields of their
own, and its tokens keep their range; free-form parts are plain data. It holds something proposed if
a record in it is of a proposed type, a proposed field is set, or a member is proposed. A draft is
built as the same value with the proposed parts and without them, or not at all.
-/

namespace LspWire.Protocol

namespace Draft

/-! ## Well-typed drafts -/

/-- Drafts of plain data. -/
inductive IsData : Draft → Prop where
  | scalar (s : Scalar) : IsData (.scalar s)
  | list {items : List Draft} (h : ∀ d ∈ items, IsData d) : IsData (.list items)
  | map {entries : List (String × Draft)} (h : ∀ entry ∈ entries, IsData entry.2) :
    IsData (.map entries)

/-- A draft for a field keeps the range that the field asks for: it is a natural number of so many
bits. -/
def KeepsRange (f : Field RecordName EnumName) (d : Draft) : Prop :=
  ∀ bits, Check.unsigned bits ∈ f.checks → ∃ n : Nat, d = .scalar (.int n) ∧ n < 2 ^ bits

/-- The arguments of a record are for fields that it has, each for another one, and none is missing
that is required. Those for numbers keep their range. -/
structure Fits (r : RecordName) (arguments : List (String × Draft)) : Prop where
  distinct : (arguments.map Prod.fst).Nodup
  known : ∀ argument ∈ arguments, ∃ f ∈ (schema.record r).fields, f.name = argument.1
  required : ∀ f ∈ (schema.record r).fields, f.default = .required →
    f.name ∈ arguments.map Prod.fst
  range : ∀ f ∈ (schema.record r).fields, ∀ d, arguments.lookup f.name = some d → d.KeepsRange f

/-- The drafts of the values of a type. -/
inductive HasType : DataType → Draft → Prop where
  | any {d : Draft} (h : d.IsData) : HasType .any d
  | null : HasType .null (.scalar .null)
  | str (s : String) : HasType .str (.scalar (.str s))
  | int (n : Int) : HasType .int (.scalar (.int n))
  /-- A member of an enumeration of flags is an integer. -/
  | flag {type name : String} {e : EnumName} {m : Member}
    (htype : findType type = .ok (.enumeration e)) (hflags : (schema.enumeration e).isFlags = true)
    (hm : (schema.enumeration e).withName? name = some m) : HasType .int (.member type name)
  | bool (b : Bool) : HasType .bool (.scalar (.bool b))
  | float (y : Binary64) : HasType .float (.scalar (.float y))
  | listOfAny {items : List Draft} (h : ∀ d ∈ items, d.IsData) : HasType .listOfAny (.list items)
  | unknown (raw : Scalar) : HasType .unknown (.unknown raw)
  | literal (text : String) : HasType (.literal text) (.scalar (.str text))
  | member {type name : String} {e : EnumName} {m : Member}
    (htype : findType type = .ok (.enumeration e))
    (hm : (schema.enumeration e).withName? name = some m) :
    HasType (.enumeration e) (.member type name)
  | record {type : String} {r : RecordName} {arguments : List (String × Draft)}
    (htype : findType type = .ok (.record r)) (hfits : Fits r arguments)
    (hfields : ∀ f ∈ (schema.record r).fields, ∀ d, arguments.lookup f.name = some d →
      HasType f.ty d) : HasType (.record r) (.record type arguments)
  | list {item : DataType} {items : List Draft} (h : ∀ d ∈ items, HasType item d) :
    HasType (.list item) (.list items)
  | map {item : DataType} {entries : List (String × Draft)}
    (h : ∀ entry ∈ entries, HasType item entry.2) : HasType (.map item) (.map entries)
  | union {ts : List DataType} {t : DataType} {d : Draft} (ht : t ∈ ts) (h : HasType t d) :
    HasType (.union ts) d
  | noTokens (r : RecordName) : HasType (.packed r) (.scalar .null)
  | tokens {r : RecordName} {items : List Draft} (h : ∀ d ∈ items, HasType (.record r) d) :
    HasType (.packed r) (.list items)
  | noRecord (r : RecordName) (label : String) : HasType (.recordOrFlag r label) (.scalar .null)
  | recordOfFlag {r : RecordName} {d : Draft} (label : String) (h : HasType (.record r) d) :
    HasType (.recordOrFlag r label) d

/-- Drafts with a proposed part: a record of a proposed type, anything but null for a proposed field,
or a proposed member. -/
inductive HoldsProposed : Draft → Prop where
  | record {type : String} {r : RecordName} (arguments : List (String × Draft))
    (htype : findType type = .ok (.record r))
    (h : Surface.isProposed (schema.record r).tag = true) :
    HoldsProposed (.record type arguments)
  | field {type : String} {r : RecordName} {f : Field RecordName EnumName} {d : Draft}
    {arguments : List (String × Draft)} (htype : findType type = .ok (.record r))
    (hf : f ∈ (schema.record r).fields) (hd : (f.name, d) ∈ arguments) (hset : d ≠ .scalar .null)
    (h : Surface.isProposed f.tag = true) : HoldsProposed (.record type arguments)
  | member {type name : String} {e : EnumName} {m : Member}
    (htype : findType type = .ok (.enumeration e))
    (hm : (schema.enumeration e).withName? name = some m)
    (h : (schema.enumeration e).isProposed m = true) : HoldsProposed (.member type name)
  | argument (type : String) {argument : String × Draft} {arguments : List (String × Draft)}
    (hmem : argument ∈ arguments) (h : HoldsProposed argument.2) :
    HoldsProposed (.record type arguments)
  | item {d : Draft} {items : List Draft} (hmem : d ∈ items) (h : HoldsProposed d) :
    HoldsProposed (.list items)
  | entry {entry : String × Draft} {entries : List (String × Draft)} (hmem : entry ∈ entries)
    (h : HoldsProposed entry.2) : HoldsProposed (.map entries)

/-! ## Building drafts -/

/-- Induction over drafts, with the hypothesis for every item, entry and argument. -/
@[elab_as_elim] theorem induction {motive : Draft → Prop}
    (scalar : ∀ s, motive (.scalar s))
    (list : ∀ items, (∀ d ∈ items, motive d) → motive (.list items))
    (map : ∀ entries, (∀ entry ∈ entries, motive entry.2) → motive (.map entries))
    (unknown : ∀ raw, motive (.unknown raw)) (member : ∀ type name, motive (.member type name))
    (record : ∀ type arguments, (∀ argument ∈ arguments, motive argument.2) →
      motive (.record type arguments)) (d : Draft) : motive d :=
  go d
where
  go : ∀ d, motive d
    | .scalar s => scalar s
    | .list items => list items (goItems items)
    | .map entries => map entries (goEntries entries)
    | .unknown raw => unknown raw
    | .member type name => member type name
    | .record type arguments => record type arguments (goEntries arguments)
  goItems : ∀ (items : List Draft), ∀ d ∈ items, motive d
    | [] => List.forall_mem_nil _
    | d :: ds => List.forall_mem_cons.2 ⟨go d, goItems ds⟩
  goEntries : ∀ (entries : List (String × Draft)), ∀ entry ∈ entries, motive entry.2
    | [] => List.forall_mem_nil _
    | (_, d) :: entries => List.forall_mem_cons.2 ⟨go d, goEntries entries⟩

theorem buildItems_eq_mapM (enabled : Bool) (items : List Draft) :
    buildItems enabled items = items.mapM (build enabled) := by
  induction items with
  | nil => rfl
  | cons d ds ih => rw [buildItems, ih, List.mapM_cons]

theorem buildEntries_eq_mapM (enabled : Bool) (entries : List (String × Draft)) :
    buildEntries enabled entries =
      entries.mapM fun entry => (entry.2.build enabled).map (entry.1, ·) := by
  induction entries with
  | nil => rfl
  | cons entry entries ih =>
    rw [buildEntries, ih, List.mapM_cons]
    cases entry.2.build enabled <;> rfl

theorem buildItems_eq_ok_iff {enabled : Bool} {items : List Draft} {values : List Datum} :
    buildItems enabled items = .ok values ↔
      List.Forall₂ (fun d v => d.build enabled = .ok v) items values := by
  rw [buildItems_eq_mapM, mapM_eq_ok_iff]

theorem buildEntries_eq_ok_iff {enabled : Bool} {entries : List (String × Draft)}
    {values : List (String × Datum)} :
    buildEntries enabled entries = .ok values ↔
      List.Forall₂ (fun entry value => entry.1 = value.1 ∧ entry.2.build enabled = .ok value.2)
        entries values := by
  rw [buildEntries_eq_mapM, mapM_eq_ok_iff]
  refine iff_of_eq (congrArg (fun r => List.Forall₂ r entries values) ?_)
  funext ⟨key, d⟩ ⟨key', v⟩
  simp only [map_eq_ok_iff, Prod.mk.injEq, eq_iff_iff]
  constructor
  · rintro ⟨w, hw, rfl, rfl⟩
    exact ⟨rfl, hw⟩
  · rintro ⟨rfl, hv⟩
    exact ⟨v, hv, rfl, rfl⟩

theorem build_member {type name : String} {e : EnumName} {m : Member}
    (htype : findType type = .ok (.enumeration e))
    (hm : (schema.enumeration e).withName? name = some m) (enabled : Bool) :
    (Draft.member type name).build enabled = .ok (schema.memberValue e m) := by
  rw [build, findMember, htype]
  simp only [hm]

theorem build_record {type : String} {r : RecordName} (htype : findType type = .ok (.record r))
    (enabled : Bool) (arguments : List (String × Draft)) :
    (Draft.record type arguments).build enabled = (do
      let values ← buildEntries enabled arguments
      (schema.construct enabled r values).mapError .refused) := by
  rw [build, htype]
  rfl

/-- Enabling the proposed parts makes no draft fail and changes no value. -/
theorem build_enabled {d : Draft} {v : Datum} (h : d.build false = .ok v) :
    d.build true = .ok v := by
  induction d using Draft.induction generalizing v with
  | scalar s => exact h
  | unknown raw => exact h
  | member type name => exact h
  | list items ih =>
    rw [build, map_eq_ok_iff] at h ⊢
    obtain ⟨values, hvalues, rfl⟩ := h
    rw [buildItems_eq_ok_iff] at hvalues
    exact ⟨values, buildItems_eq_ok_iff.2
      (Entries.forall₂_imp_of_mem hvalues fun d hd v _ hv => ih d hd hv), rfl⟩
  | map entries ih =>
    rw [build, map_eq_ok_iff] at h ⊢
    obtain ⟨values, hvalues, rfl⟩ := h
    rw [buildEntries_eq_ok_iff] at hvalues
    exact ⟨values, buildEntries_eq_ok_iff.2
      (Entries.forall₂_imp_of_mem hvalues fun d hd v _ hv => ⟨hv.1, ih d hd hv.2⟩), rfl⟩
  | record type arguments ih =>
    rw [build] at h ⊢
    obtain ⟨name, hname, h⟩ := bind_eq_ok_iff.1 h
    obtain ⟨values, hvalues, h⟩ := bind_eq_ok_iff.1 h
    rw [buildEntries_eq_ok_iff] at hvalues
    refine bind_eq_ok_iff.2 ⟨name, hname, bind_eq_ok_iff.2 ⟨values, buildEntries_eq_ok_iff.2
      (Entries.forall₂_imp_of_mem hvalues fun d hd v _ hv => ⟨hv.1, ih d hd hv.2⟩), ?_⟩⟩
    cases name with
    | enumeration e => exact h
    | record r =>
      rw [constructNamed, mapError_eq_ok_iff] at h ⊢
      exact Schema.construct_enabled h

theorem buildEntries_enabled {arguments : List (String × Draft)} {values : List (String × Datum)}
    (h : buildEntries false arguments = .ok values) : buildEntries true arguments = .ok values :=
  buildEntries_eq_ok_iff.2
    ((buildEntries_eq_ok_iff.1 h).imp fun _ _ hv => ⟨hv.1, build_enabled hv.2⟩)

end Draft

end LspWire.Protocol
