import LspWire.Proofs.Drafts
import LspWire.Proofs.Typing

/-!
# What the constructors let through

Of a well-typed draft the constructors refuse just the proposed parts. Records are gated as a whole
and fields by their tags, but members only where a field asks for the check, so every field that may
hold a proposed member must be guarded. `Draft.Builds` says what building a draft gives with the
proposed parts and without them, and the induction is on the types of the parts.
-/

namespace LspWire

/-! ## Ways to fail -/

/-- Whether a computation fails in certain ways only. -/
def FailsAs {ε α : Type} (p : ε → Prop) (x : Except ε α) : Prop := ∀ e, x = .error e → p e

namespace FailsAs

variable {ε α β : Type} {p : ε → Prop}

theorem ok (v : α) : FailsAs p (.ok v) := nofun

theorem error {e : ε} (h : p e) : FailsAs p (.error e : Except ε α) := by
  intro e' he
  exact Except.error.inj he ▸ h

theorem bind {x : Except ε α} {f : α → Except ε β} (hx : FailsAs p x)
    (hf : ∀ v, x = .ok v → FailsAs p (f v)) : FailsAs p (x >>= f) := by
  cases x with
  | error e => exact .error (hx e rfl)
  | ok v => exact hf v rfl

theorem map {x : Except ε α} (f : α → β) (hx : FailsAs p x) : FailsAs p (x.map f) := by
  cases x with
  | error e => exact .error (hx e rfl)
  | ok v => exact .ok (f v)

theorem mapM {f : α → Except ε β} {xs : List α} (h : ∀ x ∈ xs, FailsAs p (f x)) :
    FailsAs p (xs.mapM f) := by
  induction xs with
  | nil => exact .ok []
  | cons x xs ih =>
    rw [List.forall_mem_cons] at h
    rw [List.mapM_cons]
    exact h.1.bind fun v _ => (ih h.2).bind fun vs _ => .ok (v :: vs)

theorem forM {f : α → Except ε Unit} {xs : List α} (h : ∀ x ∈ xs, FailsAs p (f x)) :
    FailsAs p (xs.forM f) := by
  intro e he
  obtain ⟨x, hx, hfx⟩ := exists_of_forM_eq_error he
  exact h x hx e hfx

theorem mapError {ε' : Type} {q : ε' → Prop} {x : Except ε α} {f : ε → ε'} (hx : FailsAs p x)
    (hf : ∀ e, p e → q (f e)) : FailsAs q (x.mapError f) := by
  cases x with
  | error e => exact .error (hf e (hx e rfl))
  | ok v => exact .ok v

end FailsAs

namespace Protocol

/-! ## Where proposed parts may stand -/

/-- Whether a part belongs to the last stable version unless it is proposed. -/
def isStableOrProposed (tag? : Option Tag) : Bool :=
  Surface.isProposed tag? || Surface.covers .v3_16 tag?

theorem admits_of_isStableOrProposed {tag? : Option Tag} (h : isStableOrProposed tag? = true)
    (hproposed : Surface.isProposed tag? = false) :
    Surface.admits ⟨.v3_16, false⟩ tag? = true := by
  rw [isStableOrProposed, hproposed, Bool.false_or] at h
  simp [Surface.admits, hproposed, h]

theorem isStableOrProposed_record (r : RecordName) :
    (isStableOrProposed (schema.record r).tag &&
      (schema.record r).fields.all fun f => isStableOrProposed f.tag) = true := by
  cases r <;> rfl

theorem isStableOrProposed_enumeration (e : EnumName) :
    (isStableOrProposed (schema.enumeration e).tag &&
      (schema.enumeration e).members.all fun m => isStableOrProposed m.tag) = true := by
  cases e <;> rfl

/-- Whether no enumeration in a type has proposed members. -/
def hasStableMembers (t : DataType) : Bool :=
  t.every fun
    | .enumeration e =>
      (schema.enumeration e).members.all fun m => !(schema.enumeration e).isProposed m
    | _ => true

/-- Whether a value of a type that is a member of an enumeration is not inside of another value. -/
def isBareEnumeration : DataType → Bool
  | .enumeration e | .union [.enumeration e, .unknown] => !(schema.enumeration e).isFlags
  | _ => false

/-- Whether a field of a record refuses proposed members: there are none, it is checked for bare
ones, or the field or the record is proposed. -/
def isGuarded (r : RecordName) (f : Field RecordName EnumName) : Bool :=
  hasStableMembers f.ty || f.checks.contains .stable && isBareEnumeration f.ty ||
    Surface.isProposed f.tag || Surface.isProposed (schema.record r).tag

theorem all_isGuarded (r : RecordName) : (schema.record r).fields.all (isGuarded r) = true := by
  cases r <;> rfl

/-! ## Building parts -/

/-- Whether an error is the refusal of a proposed part. -/
def IsGate (e : Error) : Prop := ∃ what, e = .refused (.disabled what)

namespace Draft

/-- What building a draft as a type gives. With the proposed parts it is a value. Without them
nothing else is refused than a proposed part, and nothing at all if the draft holds none. -/
structure Builds (t : DataType) (d : Draft) (v : Datum) : Prop where
  enabled : d.build true = .ok v
  isNull_iff : v.isNull = true ↔ d = .scalar .null
  fails : FailsAs IsGate (d.build false)
  stable : ¬d.HoldsProposed → d.build false = .ok v ∧ v.Available schema ⟨.v3_16, false⟩
  /-- Only members may be proposed without being refused. -/
  refuses : hasStableMembers t = true → d.build false = .ok v → ¬d.HoldsProposed

/-- Without the proposed parts a draft is built as the same value or not at all. -/
theorem Builds.agrees {t : DataType} {d : Draft} {v w : Datum} (h : Builds t d v)
    (hw : d.build false = .ok w) : w = v :=
  Except.ok.inj ((build_enabled hw).symm.trans h.enabled)

theorem Builds.of_const {t : DataType} {d : Draft} {v : Datum}
    (hbuild : ∀ enabled, d.build enabled = .ok v) (hnull : v.isNull = true ↔ d = .scalar .null)
    (hv : ¬d.HoldsProposed → v.Available schema ⟨.v3_16, false⟩)
    (hrefuses : hasStableMembers t = true → ¬d.HoldsProposed) : Builds t d v where
  enabled := hbuild true
  isNull_iff := hnull
  fails := hbuild false ▸ .ok v
  stable h := ⟨hbuild false, hv h⟩
  refuses h _ := hrefuses h

theorem builds_scalar (t : DataType) (s : Scalar) : Builds t (.scalar s) (.scalar s) := by
  refine .of_const (fun _ => rfl) ?_ (fun _ => .scalar s) fun _ => nofun
  cases s <;> simp [Value.isNull]

theorem holdsProposed_member_iff {type name : String} {e : EnumName} {m : Member}
    (htype : findType type = .ok (.enumeration e))
    (hm : (schema.enumeration e).withName? name = some m) :
    (Draft.member type name).HoldsProposed ↔ (schema.enumeration e).isProposed m = true := by
  refine ⟨fun h => ?_, .member htype hm⟩
  cases h with
  | member htype' hm' h =>
    rw [htype] at htype'
    cases htype'
    rw [hm] at hm'
    cases hm'
    exact h

theorem isProposed_of_isFlags {e : EnumName} {m : Member}
    (hflags : (schema.enumeration e).isFlags = true) (hm : m ∈ (schema.enumeration e).members) :
    (schema.enumeration e).isProposed m = false := by
  have hstable := hasStableFlags_enumeration e
  rw [hasStableFlags, hflags, Bool.not_true, Bool.false_or, Bool.and_eq_true,
    Option.isNone_iff_eq_none, List.all_eq_true] at hstable
  rw [EnumDecl.isProposed, hstable.1, Option.isNone_iff_eq_none.1 (hstable.2 m hm)]
  rfl

theorem available_memberValue {e : EnumName} {m : Member} (hm : m ∈ (schema.enumeration e).members)
    (h : (schema.enumeration e).isProposed m = false) :
    (schema.memberValue e m).Available schema ⟨.v3_16, false⟩ := by
  have hadmits {m : Member} (hm : m ∈ (schema.enumeration e).members)
      (h : (schema.enumeration e).isProposed m = false) :
      EnumDecl.admits ⟨.v3_16, false⟩ (schema.enumeration e) m = true := by
    have hall := isStableOrProposed_enumeration e
    rw [Bool.and_eq_true, List.all_eq_true] at hall
    rw [EnumDecl.isProposed, Bool.or_eq_false_iff] at h
    rw [EnumDecl.admits, admits_of_isStableOrProposed (hall.2 m hm) h.1,
      admits_of_isStableOrProposed hall.1 h.2, Bool.and_self]
  rw [Schema.memberValue]
  split
  · rename_i bits hflags _
    exact .flags bits fun m hm => hadmits hm (isProposed_of_isFlags hflags hm)
  · exact .member (hadmits hm h)

theorem builds_member {t : DataType} {type name : String} {e : EnumName} {m : Member}
    (htype : findType type = .ok (.enumeration e))
    (hm : (schema.enumeration e).withName? name = some m)
    (ht : hasStableMembers t = true → (schema.enumeration e).isProposed m = false) :
    Builds t (.member type name) (schema.memberValue e m) := by
  have hiff := holdsProposed_member_iff htype hm
  refine .of_const (build_member htype hm) ⟨fun h => ?_, nofun⟩ (fun h => ?_) fun hstable h => ?_
  · rw [Schema.memberValue] at h
    split at h <;> cases h
  · rw [hiff, Bool.not_eq_true] at h
    exact available_memberValue (List.mem_of_find?_eq_some hm) h
  · rw [hiff, ht hstable] at h
    cases h

theorem builds_list {item t : DataType} {items : List Draft} {values : List Datum}
    (h : List.Forall₂ (Builds item) items values)
    (ht : hasStableMembers t = true → hasStableMembers item = true) :
    Builds t (.list items) (.list values) where
  enabled := map_eq_ok_iff.2
    ⟨values, buildItems_eq_ok_iff.2 (h.imp fun _ _ hd => hd.enabled), rfl⟩
  isNull_iff := ⟨nofun, nofun⟩
  fails := by
    rw [build, buildItems_eq_mapM]
    refine .map _ (.mapM fun d hd => ?_)
    obtain ⟨v, -, hv⟩ := Entries.exists_right_of_forall₂ h hd
    exact hv.fails
  stable hnone := by
    have hstable := Entries.forall₂_imp_of_mem h fun d hd v _ hv =>
      hv.stable fun hd' => hnone (.item hd hd')
    refine ⟨map_eq_ok_iff.2 ⟨values, buildItems_eq_ok_iff.2 (hstable.imp fun _ _ hd => hd.1), rfl⟩,
      .list fun v hv => ?_⟩
    obtain ⟨d, -, hd⟩ := Entries.exists_left_of_forall₂ hstable hv
    exact hd.2
  refuses hstable hbuild hholds := by
    obtain ⟨ws, hws, -⟩ := map_eq_ok_iff.1 hbuild
    cases hholds with
    | item hmem hd =>
      obtain ⟨w, -, hw⟩ := Entries.exists_right_of_forall₂ (buildItems_eq_ok_iff.1 hws) hmem
      obtain ⟨v, -, hv⟩ := Entries.exists_right_of_forall₂ h hmem
      exact hv.refuses (ht hstable) (hv.agrees hw ▸ hw) hd

theorem builds_map {item t : DataType} {entries : List (String × Draft)}
    {values : List (String × Datum)}
    (h : List.Forall₂ (fun entry value => entry.1 = value.1 ∧ Builds item entry.2 value.2)
      entries values)
    (ht : hasStableMembers t = true → hasStableMembers item = true) :
    Builds t (.map entries) (.map values) where
  enabled := map_eq_ok_iff.2
    ⟨values, buildEntries_eq_ok_iff.2 (h.imp fun _ _ hd => ⟨hd.1, hd.2.enabled⟩), rfl⟩
  isNull_iff := ⟨nofun, nofun⟩
  fails := by
    rw [build, buildEntries_eq_mapM]
    refine .map _ (.mapM fun entry hentry => .map _ ?_)
    obtain ⟨value, -, hvalue⟩ := Entries.exists_right_of_forall₂ h hentry
    exact hvalue.2.fails
  stable hnone := by
    have hstable := Entries.forall₂_imp_of_mem h fun entry hentry value _ hv =>
      And.intro hv.1 (hv.2.stable fun hd => hnone (.entry hentry hd))
    refine ⟨map_eq_ok_iff.2 ⟨values,
      buildEntries_eq_ok_iff.2 (hstable.imp fun _ _ hd => ⟨hd.1, hd.2.1⟩), rfl⟩,
      .map fun value hvalue => ?_⟩
    obtain ⟨entry, -, hentry⟩ := Entries.exists_left_of_forall₂ hstable hvalue
    exact hentry.2.2
  refuses hstable hbuild hholds := by
    obtain ⟨ws, hws, -⟩ := map_eq_ok_iff.1 hbuild
    cases hholds with
    | entry hmem hd =>
      obtain ⟨w, -, -, hw⟩ := Entries.exists_right_of_forall₂ (buildEntries_eq_ok_iff.1 hws) hmem
      obtain ⟨v, -, -, hv⟩ := Entries.exists_right_of_forall₂ h hmem
      exact hv.refuses (ht hstable) (hv.agrees hw ▸ hw) hd

/-- Plain data is built as it is. -/
theorem IsData.exists_builds {d : Draft} (h : d.IsData) : ∃ v, Builds .any d v := by
  induction h with
  | scalar s => exact ⟨_, builds_scalar .any s⟩
  | list _ ih =>
    obtain ⟨values, hvalues⟩ := Entries.exists_forall₂ ih
    exact ⟨_, builds_list hvalues id⟩
  | map _ ih =>
    obtain ⟨values, hvalues⟩ := Entries.exists_forall₂_values ih
    exact ⟨_, builds_map hvalues id⟩

/-! ## Building records -/

section

variable {r : RecordName} {f : Field RecordName EnumName} {v : Datum}
  {arguments : List (String × Draft)}

/-- What a field of a record holds: what its argument is built of, or what it holds when it is left
out. -/
def IsBuilt (arguments : List (String × Draft)) (f : Field RecordName EnumName) (v : Datum) : Prop :=
  match arguments.lookup f.name with
  | some d => Builds f.ty d v ∧ d.KeepsRange f
  | none => schema.defaultValue? f.default = some v

theorem holdsProposed_record_iff {type : String} (htype : findType type = .ok (.record r)) :
    (Draft.record type arguments).HoldsProposed ↔
      Surface.isProposed (schema.record r).tag = true ∨
        (∃ f ∈ (schema.record r).fields, ∃ d, (f.name, d) ∈ arguments ∧ d ≠ .scalar .null ∧
          Surface.isProposed f.tag = true) ∨
        ∃ argument ∈ arguments, argument.2.HoldsProposed := by
  constructor
  · intro h
    cases h with
    | record _ htype' h =>
      rw [htype] at htype'
      cases htype'
      exact .inl h
    | field htype' hf hd hset h =>
      rw [htype] at htype'
      cases htype'
      exact .inr (.inl ⟨_, hf, _, hd, hset, h⟩)
    | argument _ hmem h => exact .inr (.inr ⟨_, hmem, h⟩)
  · rintro (h | ⟨f, hf, d, hd, hset, h⟩ | ⟨argument, hmem, h⟩)
    · exact .record arguments htype h
    · exact .field htype hf hd hset h
    · exact .argument type hmem h

theorem run_unsigned_of_isBuilt (hf : f ∈ (schema.record r).fields) (hv : IsBuilt arguments f v)
    {bits : Nat} (hc : Check.unsigned bits ∈ f.checks) (enabled : Bool) (record : String) :
    (Check.unsigned bits).run schema enabled record f.name v = .ok () := by
  rw [IsBuilt] at hv
  split at hv
  · obtain ⟨n, rfl, hn⟩ := hv.2 bits hc
    cases Except.ok.inj hv.1.enabled
    exact Schema.run_unsigned_eq_ok_iff.2 ⟨n, rfl, hn⟩
  · have hknown := List.all_eq_true.1 (of_all_fields (all_hasKnownChecks r) hf) _ hc
    refine absurd ?_ (ne_int_of_default hf hv)
    revert hknown
    cases f.ty <;> simp

theorem checkField_of_isBuilt (hf : f ∈ (schema.record r).fields) (hv : IsBuilt arguments f v)
    (record : String) : schema.checkField true record f v = .ok () := by
  refine Schema.checkField_eq_ok_iff.2 ⟨fun _ _ => rfl, fun c hc => ?_⟩
  have hknown := List.all_eq_true.1 (of_all_fields (all_hasKnownChecks r) hf) c hc
  cases c with
  | stable => cases v <;> simp [Check.run]
  | unsigned bits => exact run_unsigned_of_isBuilt hf hv hc true record
  | proposed => cases hknown
  | atMost bound => cases hknown

/-- Whether a refusal is that of a proposed part. -/
def IsDisabled (refusal : Refusal) : Prop := ∃ what, refusal = .disabled what

theorem failsAs_checkField (hf : f ∈ (schema.record r).fields) (hv : IsBuilt arguments f v)
    (record : String) : FailsAs IsDisabled (schema.checkField false record f v) := by
  unfold Schema.checkField
  split
  · exact .error ⟨_, rfl⟩
  · refine .forM fun c hc => ?_
    have hknown := List.all_eq_true.1 (of_all_fields (all_hasKnownChecks r) hf) c hc
    cases c with
    | stable =>
      unfold Check.run
      dsimp only
      split
      · split
        · exact .error ⟨_, rfl⟩
        · exact .ok ()
      · exact .ok ()
    | unsigned bits => exact run_unsigned_of_isBuilt hf hv hc false record ▸ .ok ()
    | proposed => cases hknown
    | atMost bound => cases hknown

theorem available_of_isBuilt (hf : f ∈ (schema.record r).fields) (hv : IsBuilt arguments f v)
    (hset : ∀ d, (f.name, d) ∈ arguments → d ≠ .scalar .null → Surface.isProposed f.tag = false)
    (hnone : ∀ argument ∈ arguments, ¬argument.2.HoldsProposed) :
    (v.isNull = false → f.isVisible ⟨.v3_16, false⟩ = true) ∧
      v.Available schema ⟨.v3_16, false⟩ := by
  rw [IsBuilt] at hv
  split at hv
  · rename_i d hd
    have hmem := Entries.mem_of_lookup hd
    refine ⟨fun hnull => ?_, (hv.1.stable (hnone _ hmem)).2⟩
    have htag := isStableOrProposed_record r
    rw [Bool.and_eq_true, List.all_eq_true] at htag
    refine admits_of_isStableOrProposed (htag.2 f hf) (hset d hmem fun h => ?_)
    rw [hv.1.isNull_iff.2 h] at hnull
    cases hnull
  · exact ⟨isVisible_of_default hf hv, available_of_default hf hv⟩

/-- A proposed member that stands alone is what its draft is built as. -/
theorem exists_member_of_isBare {t : DataType} {d : Draft} (ht : isBareEnumeration t = true)
    (hd : HasType t d) (hv : Builds t d v) (hproposed : d.HoldsProposed) :
    ∃ e m, v = .member e m ∧ (schema.enumeration e).isProposed m = true := by
  have hmember {t' : DataType} {e : EnumName} (hflags : (schema.enumeration e).isFlags = false)
      (hd : HasType (.enumeration e) d) (hv : Builds t' d v) :
      ∃ e m, v = .member e m ∧ (schema.enumeration e).isProposed m = true := by
    cases hd with
    | @member _ _ _ m htype hm =>
      refine ⟨e, m, ?_, (holdsProposed_member_iff htype hm).1 hproposed⟩
      rw [← Except.ok.inj ((build_member htype hm true).symm.trans hv.enabled), Schema.memberValue,
        hflags]
  unfold isBareEnumeration at ht
  split at ht
  · exact hmember (by simpa using ht) hd hv
  · cases hd with
    | union ht' hd =>
      rcases List.mem_cons.1 ht' with rfl | ht'
      · exact hmember (by simpa using ht) hd hv
      · obtain rfl := List.mem_singleton.1 ht'
        cases hd
        cases hproposed
  · cases ht

theorem Fits.exists_field (h : Fits r arguments) {argument : String × Draft}
    (hmem : argument ∈ arguments) :
    ∃ f ∈ (schema.record r).fields, f.name = argument.1 ∧
      arguments.lookup f.name = some argument.2 := by
  obtain ⟨f, hf, hname⟩ := h.known argument hmem
  refine ⟨f, hf, hname, Entries.lookup_of_mem h.distinct ?_⟩
  rw [hname]
  exact hmem

theorem Fits.exists_arranged (h : Fits r arguments)
    (hbuilds : ∀ f ∈ (schema.record r).fields, ∀ d, arguments.lookup f.name = some d →
      ∃ v, Builds f.ty d v) :
    ∃ built values, buildEntries true arguments = .ok built ∧
      schema.arrange r built = .ok values ∧
      List.Forall₂ (IsBuilt arguments) (schema.record r).fields values := by
  have hargument : ∀ argument ∈ arguments, ∃ v, argument.2.build true = .ok v := by
    intro argument hmem
    obtain ⟨f, hf, -, hlookup⟩ := h.exists_field hmem
    obtain ⟨v, hv⟩ := hbuilds f hf _ hlookup
    exact ⟨v, hv.enabled⟩
  obtain ⟨built, hbuilt⟩ := Entries.exists_forall₂_values
    (r := fun (d : Draft) (v : Datum) => d.build true = .ok v) hargument
  have hvalue : ∀ f ∈ (schema.record r).fields, ∃ v,
      (built.lookup f.name).or (schema.defaultValue? f.default) = some v ∧
        IsBuilt arguments f v := by
    intro f hf
    have hrel := Entries.rel_lookup (r := fun (d : Draft) (v : Datum) => d.build true = .ok v)
      hbuilt f.name
    unfold IsBuilt
    cases hlookup : arguments.lookup f.name with
    | some d =>
      rw [hlookup] at hrel
      obtain ⟨v, hv⟩ := hbuilds f hf d hlookup
      cases hw : built.lookup f.name with
      | none =>
        rw [hw] at hrel
        cases hrel
      | some w =>
        rw [hw, Option.rel_some_some, hv.enabled, Except.ok.injEq] at hrel
        exact ⟨w, rfl, hrel ▸ hv, h.range f hf d hlookup⟩
    | none =>
      rw [hlookup] at hrel
      cases hw : built.lookup f.name with
      | some w =>
        rw [hw] at hrel
        cases hrel
      | none =>
        cases hdefault : f.default with
        | required =>
          have hpresent := Entries.isSome_lookup_iff.2 (h.required f hf hdefault)
          rw [hlookup] at hpresent
          cases hpresent
        | _ => exact ⟨_, rfl, rfl⟩
  obtain ⟨values, hvalues⟩ := Entries.exists_forall₂ hvalue
  refine ⟨built, values, buildEntries_eq_ok_iff.2 hbuilt, ?_, hvalues.imp fun _ _ hv => hv.2⟩
  have hall : (built.all fun (name, _) => (schema.record r).fields.any (·.name = name)) = true := by
    rw [List.all_eq_true]
    intro value hvalue
    obtain ⟨argument, hmem, hkey, -⟩ := Entries.exists_left_of_forall₂ hbuilt hvalue
    obtain ⟨f, hf, hname⟩ := h.known argument hmem
    exact List.any_eq_true.2 ⟨f, hf, decide_eq_true (hname.trans hkey)⟩
  rw [Schema.arrange, if_pos hall, mapM_eq_ok_iff]
  refine hvalues.imp fun f v hv => ?_
  rw [hv.1]

/-- Without the proposed parts the constructor of a record refuses nothing else. -/
theorem failsAs_construct {built : List (String × Datum)} {values : List Datum}
    (harranged : schema.arrange r built = .ok values)
    (hvalues : List.Forall₂ (IsBuilt arguments) (schema.record r).fields values) :
    FailsAs IsDisabled (schema.construct false r built) := by
  rw [Schema.construct, harranged]
  refine .bind ?_ fun _ _ => .bind (.ok values) fun values' heq => ?_
  · rw [Schema.gate]
    split
    · exact .error ⟨_, rfl⟩
    · exact .ok ()
  · cases heq
    refine .bind (.forM fun p hp => ?_) fun _ _ => .ok _
    exact failsAs_checkField (List.of_mem_zip hp).1 (List.forall₂_zip hvalues hp) _

/-- An argument that passes the gates of its record and of its field holds nothing proposed. -/
theorem not_holdsProposed_of_checkField {d : Draft} {record : String}
    (hf : f ∈ (schema.record r).fields) (hd : HasType f.ty d) (hv : Builds f.ty d v)
    (hbuild : d.build false = .ok v) (hgate : schema.gate false r = .ok ())
    (hcheck : schema.checkField false record f v = .ok ()) : ¬d.HoldsProposed := by
  intro hproposed
  obtain ⟨htag, hchecks⟩ := Schema.checkField_eq_ok_iff.1 hcheck
  have hguarded := of_all_fields (all_isGuarded r) hf
  simp only [isGuarded, Bool.or_eq_true, Bool.and_eq_true] at hguarded
  rcases hguarded with ((hstable | ⟨hchecked, hbare⟩) | hfield) | hrecord
  · exact hv.refuses hstable hbuild hproposed
  · obtain ⟨e, m, rfl, hm⟩ := exists_member_of_isBare hbare hd hv hproposed
    have hrun := hchecks .stable (by simpa using hchecked)
    simp [Check.run, hm] at hrun
  · -- What is set is refused, and null is no proposed part.
    cases hnull : v.isNull with
    | false => cases htag hfield hnull
    | true =>
      rw [hv.isNull_iff.1 hnull] at hproposed
      cases hproposed
  · cases Schema.gate_eq_ok_iff.1 hgate hrecord

/-- A record refuses just what is proposed. -/
theorem builds_record {type : String} (htype : findType type = .ok (.record r))
    (hfits : Fits r arguments)
    (hfields : ∀ f ∈ (schema.record r).fields, ∀ d, arguments.lookup f.name = some d →
      HasType f.ty d)
    (hbuilds : ∀ f ∈ (schema.record r).fields, ∀ d, arguments.lookup f.name = some d →
      ∃ v, Builds f.ty d v) :
    ∃ v, Builds (.record r) (.record type arguments) v := by
  obtain ⟨built, values, hbuilt, harranged, hvalues⟩ := hfits.exists_arranged hbuilds
  have hchecks : ∀ p ∈ (schema.record r).fields.zip values,
      p.1 ∈ (schema.record r).fields ∧ IsBuilt arguments p.1 p.2 := fun p hp =>
    ⟨(List.of_mem_zip hp).1, List.forall₂_zip hvalues hp⟩
  have hbuild {enabled : Bool} {v : Datum} : (Draft.record type arguments).build enabled = .ok v ↔
      buildEntries enabled arguments = .ok built ∧ schema.gate enabled r = .ok () ∧
        schema.checkFields enabled r values = .ok () ∧ v = .record r values := by
    rw [build_record htype, bind_eq_ok_iff]
    simp only [mapError_eq_ok_iff, Schema.construct_eq_ok_iff]
    constructor
    · rintro ⟨built', hbuilt', hgate, values', harranged', hchecks', rfl⟩
      have heq : built' = built := by
        refine Except.ok.inj (Eq.trans ?_ hbuilt)
        cases enabled with
        | true => exact hbuilt'.symm
        | false => exact (buildEntries_enabled hbuilt').symm
      subst heq
      rw [harranged, Except.ok.injEq] at harranged'
      subst harranged'
      exact ⟨hbuilt', hgate, hchecks', rfl⟩
    · rintro ⟨hbuilt', hgate, hchecks', rfl⟩
      exact ⟨built, hbuilt', hgate, values, harranged, hchecks', rfl⟩
  refine ⟨.record r values, ?_, ⟨nofun, nofun⟩, ?_, fun hnone => ?_, fun _ hok hproposed => ?_⟩
  · refine hbuild.2 ⟨hbuilt, Schema.gate_eq_ok_iff.2 fun _ => rfl, ?_, rfl⟩
    exact Schema.checkFields_eq_ok_iff.2 fun p hp =>
      checkField_of_isBuilt (hchecks p hp).1 (hchecks p hp).2 _
  · rw [build_record htype]
    refine .bind ?_ fun built' hbuilt' => .mapError (p := IsDisabled) ?_
      fun _ ⟨what, h⟩ => ⟨what, congrArg Error.refused h⟩
    · rw [buildEntries_eq_mapM]
      refine .mapM fun argument hmem => .map _ ?_
      obtain ⟨f, hf, -, hlookup⟩ := hfits.exists_field hmem
      obtain ⟨v, hv⟩ := hbuilds f hf _ hlookup
      exact hv.fails
    · rw [buildEntries_enabled hbuilt', Except.ok.injEq] at hbuilt
      exact failsAs_construct (hbuilt ▸ harranged) hvalues
  · rw [holdsProposed_record_iff htype, not_or, not_or, Bool.not_eq_true] at hnone
    obtain ⟨htag, hset, hnone⟩ := hnone
    have havailable : ∀ p ∈ (schema.record r).fields.zip values,
        (p.2.isNull = false → p.1.isVisible ⟨.v3_16, false⟩ = true) ∧
          p.2.Available schema ⟨.v3_16, false⟩ := fun p hp => by
      obtain ⟨hf, hv⟩ := hchecks p hp
      refine available_of_isBuilt hf hv (fun d hd hne => ?_) fun a ha h => hnone ⟨a, ha, h⟩
      rw [← Bool.not_eq_true]
      exact fun htag => hset ⟨p.1, hf, d, hd, hne, htag⟩
    refine ⟨hbuild.2 ⟨buildEntries_eq_ok_iff.2 ?_, ?_, ?_, rfl⟩,
      .of_forall₂ (admits_of_isStableOrProposed ?_ htag)
        (List.forall₂_iff_zip.2 ⟨hvalues.length_eq, fun hp => havailable _ hp⟩)⟩
    · refine Entries.forall₂_imp_of_mem (buildEntries_eq_ok_iff.1 hbuilt) fun a ha value _ hv => ?_
      obtain ⟨f, hf, -, hlookup⟩ := hfits.exists_field ha
      obtain ⟨v, hv'⟩ := hbuilds f hf _ hlookup
      rw [← Except.ok.inj (hv'.enabled.symm.trans hv.2)]
      exact ⟨hv.1, (hv'.stable fun h => hnone ⟨a, ha, h⟩).1⟩
    · rw [Schema.gate_eq_ok_iff, htag]
      exact nofun
    · refine Schema.checkFields_eq_ok_iff.2 fun p hp => ?_
      obtain ⟨hf, hv⟩ := hchecks p hp
      obtain ⟨hvisible, hv'⟩ := havailable p hp
      exact checkField_of_available (σ := ⟨.v3_16, false⟩) hf hvisible hv' fun _ =>
        checkField_of_isBuilt hf hv _
    · exact (Bool.and_eq_true_iff.1 (isStableOrProposed_record r)).1
  · obtain ⟨hargs, hgate, hpassed, -⟩ := hbuild.1 hok
    have hfield : ∀ f ∈ (schema.record r).fields, ∀ d, arguments.lookup f.name = some d →
        ∃ v, Builds f.ty d v ∧ schema.checkField false (schema.record r).name f v = .ok () := by
      intro f hf d hlookup
      obtain ⟨v, hp⟩ := Entries.exists_mem_zip_left hvalues.length_eq hf
      have hv := (hchecks _ hp).2
      rw [IsBuilt, hlookup] at hv
      exact ⟨v, hv.1, Schema.checkFields_eq_ok_iff.1 hpassed _ hp⟩
    rcases (holdsProposed_record_iff htype).1 hproposed with
      htag | ⟨f, hf, d, hd, hset, htag⟩ | ⟨a, ha, hholds⟩
    · cases Schema.gate_eq_ok_iff.1 hgate htag
    · obtain ⟨v, hv, hcheck⟩ := hfield f hf d (Entries.lookup_of_mem hfits.distinct hd)
      cases (Schema.checkField_eq_ok_iff.1 hcheck).1 htag
        (Bool.eq_false_iff.2 fun hnull => hset (hv.isNull_iff.1 hnull))
    · obtain ⟨f, hf, -, hlookup⟩ := hfits.exists_field ha
      obtain ⟨v, hv, hcheck⟩ := hfield f hf _ hlookup
      obtain ⟨w, -, -, hw⟩ := Entries.exists_right_of_forall₂ (buildEntries_eq_ok_iff.1 hargs) ha
      exact not_holdsProposed_of_checkField hf (hfields f hf _ hlookup) hv (hv.agrees hw ▸ hw) hgate
        hcheck hholds

end

/-! ## Building by types -/

theorem HasType.exists_builds {t : DataType} {d : Draft} (h : HasType t d) : ∃ v, Builds t d v := by
  induction h with
  | any h => exact h.exists_builds
  | null => exact ⟨_, builds_scalar _ _⟩
  | str s => exact ⟨_, builds_scalar _ _⟩
  | int n => exact ⟨_, builds_scalar _ _⟩
  | bool b => exact ⟨_, builds_scalar _ _⟩
  | float y => exact ⟨_, builds_scalar _ _⟩
  | literal text => exact ⟨_, builds_scalar _ _⟩
  | noTokens r => exact ⟨_, builds_scalar _ _⟩
  | noRecord r label => exact ⟨_, builds_scalar _ _⟩
  | flag htype hflags hm =>
    exact ⟨_, builds_member htype hm fun _ => isProposed_of_isFlags hflags
      (List.mem_of_find?_eq_some hm)⟩
  | listOfAny h =>
    obtain ⟨values, hvalues⟩ := Entries.exists_forall₂ fun d hd => (h d hd).exists_builds
    exact ⟨_, builds_list hvalues fun _ => rfl⟩
  | unknown raw =>
    exact ⟨_, .of_const (fun _ => rfl) ⟨nofun, nofun⟩ (fun _ => .unknown raw) fun _ => nofun⟩
  | member htype hm =>
    refine ⟨_, builds_member htype hm fun hstable => ?_⟩
    have hall := List.all_eq_true.1 (Ty.of_every hstable) _ (List.mem_of_find?_eq_some hm)
    rwa [Bool.not_eq_true'] at hall
  | record htype hfits hfields ih => exact builds_record htype hfits hfields ih
  | list _ ih =>
    obtain ⟨values, hvalues⟩ := Entries.exists_forall₂ ih
    exact ⟨_, builds_list hvalues fun h => Ty.every_of_every_list h⟩
  | map _ ih =>
    obtain ⟨values, hvalues⟩ := Entries.exists_forall₂_values ih
    exact ⟨_, builds_map hvalues fun h => Ty.every_of_every_map h⟩
  | union ht _ ih =>
    obtain ⟨v, hv⟩ := ih
    exact ⟨v, hv.enabled, hv.isNull_iff, hv.fails, hv.stable,
      fun h => hv.refuses (Ty.every_of_every_union h _ ht)⟩
  | tokens _ ih =>
    obtain ⟨values, hvalues⟩ := Entries.exists_forall₂ ih
    exact ⟨_, builds_list hvalues fun _ => rfl⟩
  | recordOfFlag label _ ih =>
    obtain ⟨v, hv⟩ := ih
    exact ⟨v, hv.enabled, hv.isNull_iff, hv.fails, hv.stable, fun _ => hv.refuses rfl⟩

/-- Constructing a well-typed tree of records is complete and exact about the proposed parts: without
them it is refused as such just if it holds one, otherwise it gives a value of the last stable
version; with them it always gives a value. -/
theorem build_refused_iff {r : RecordName} {d : Draft} (h : HasType (.record r) d) :
    ((∃ what, d.build false = .error (.refused (.disabled what))) ↔ d.HoldsProposed) ∧
      (¬d.HoldsProposed →
        ∃ v, d.build false = .ok v ∧ v.Available schema ⟨.v3_16, false⟩) ∧
      ∃ v, d.build true = .ok v := by
  obtain ⟨v, hv⟩ := h.exists_builds
  refine ⟨⟨?_, fun hproposed => ?_⟩, fun hnone => ⟨v, hv.stable hnone⟩, v, hv.enabled⟩
  · rintro ⟨what, hwhat⟩
    by_contra hnone
    rw [(hv.stable hnone).1] at hwhat
    cases hwhat
  · cases hbuild : d.build false with
    | ok w =>
      rw [hv.agrees hbuild] at hbuild
      exact absurd hproposed (hv.refuses rfl hbuild)
    | error e =>
      obtain ⟨what, rfl⟩ := hv.fails e hbuild
      exact ⟨what, rfl⟩

theorem build_refused_showMessageParams :
    HasType (.record .showMessageParams) (.record "ShowMessageParams"
        [("type", .member "MessageType" "DEBUG"), ("message", .scalar (.str "Ready"))]) ∧
      (Draft.record "ShowMessageParams" [("type", .member "MessageType" "DEBUG"),
          ("message", .scalar (.str "Ready"))]).build false =
        .error (.refused (.disabled "MessageType.DEBUG")) ∧
      (Draft.record "ShowMessageParams" [("type", .member "MessageType" "DEBUG"),
        ("message", .scalar (.str "Ready"))]).HoldsProposed := by
  have htyped : HasType (.record .showMessageParams) (.record "ShowMessageParams"
      [("type", .member "MessageType" "DEBUG"), ("message", .scalar (.str "Ready"))]) := by
    have hfields : (schema.record .showMessageParams).fields = [
        .required "type" (.enumeration .messageType) [.stable], .required "message" .str] := rfl
    refine .record rfl ⟨by decide, by decide, by decide, fun f hf d _ bits hbits => ?_⟩
      fun f hf d hd => ?_ <;>
    simp only [hfields, List.mem_cons, List.not_mem_nil, or_false] at hf <;>
    rcases hf with rfl | rfl
    · simp [Field.required] at hbits
    · simp [Field.required] at hbits
    · cases hd
      exact .member rfl rfl
    · cases hd
      exact .str "Ready"
  exact ⟨htyped, rfl, (build_refused_iff htyped).1.1 ⟨_, rfl⟩⟩

end Draft

end Protocol

end LspWire