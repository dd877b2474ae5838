import LspWire.Proofs.Reading.Basic

/-!
# Reading of enumerations

A closed enumeration takes the raw values of the members that belong to the surface, and an open one
every raw value of the right kind. Enumerations of flags are read as plain integers when they are
closed, and as sums of flags when they are open.
-/

namespace LspWire

variable {R E : Type}

namespace Schema

variable {S : Schema R E} {σ : Surface}

/-- Availability is admission to the surface, split into its two reasons. -/
theorem available_eq_ok_iff (name : String) (isProposed isCovered : Bool)
    (introducedIn : Option String) :
    available σ name isProposed isCovered introducedIn = .ok () ↔
      ((σ.proposed || !isProposed) && isCovered) = true := by
  unfold available
  cases isProposed <;> cases isCovered <;> cases σ.proposed <;> simp

theorem available_tag_eq_ok_iff (name : String) (tag? : Option Tag)
    (introducedIn : Option String) :
    available σ name (Surface.isProposed tag?) (Surface.covers σ.version tag?) introducedIn =
        .ok () ↔
      σ.admits tag? = true := by
  rw [available_eq_ok_iff, Surface.admits]

theorem available_member_eq_ok_iff (name : String) (d : EnumDecl) (m : Member)
    (introducedIn : Option String) :
    available σ name (d.isProposed m) (EnumDecl.covers σ.version d m) introducedIn = .ok () ↔
      EnumDecl.admits σ d m = true := by
  rw [available_eq_ok_iff, EnumDecl.admits, Surface.admits, Surface.admits, EnumDecl.isProposed,
    EnumDecl.covers]
  cases σ.proposed <;> cases Surface.isProposed m.tag <;> cases Surface.isProposed d.tag <;>
    cases Surface.covers σ.version m.tag <;> simp

/-- The member that a raw value stands for on a surface. -/
def admittedMember? (S : Schema R E) (σ : Surface) (e : E) (raw : Scalar) : Option Member :=
  ((S.enumeration e).withRaw? raw).filter (EnumDecl.admits σ (S.enumeration e))

/-- The value of an open enumeration that a raw value stands for on a surface. -/
def openValue (S : Schema R E) (σ : Surface) (e : E) (raw : Scalar) : Value R E :=
  match S.admittedMember? σ e raw with
  | some m => .member e m
  | none => .unknown raw

theorem admittedMember?_eq_some_iff {e : E} {raw : Scalar} {m : Member} :
    S.admittedMember? σ e raw = some m ↔
      (S.enumeration e).withRaw? raw = some m ∧
        EnumDecl.admits σ (S.enumeration e) m = true := by
  rw [admittedMember?, Option.filter_eq_some_iff]

theorem raw_of_withRaw? {d : EnumDecl} {raw : Scalar} {m : Member} (h : d.withRaw? raw = some m) :
    m ∈ d.members ∧ m.raw = raw := by
  have hraw := List.find?_some h
  exact ⟨List.mem_of_find?_eq_some h, by simpa using hraw⟩

theorem readMember_scalar {e : E} {raw : Scalar} (hflags : (S.enumeration e).isFlags = false)
    (hkind : raw.kind = (S.enumeration e).kind) {v : Value R E} :
    S.readMember σ e (.scalar raw) = .ok v ↔
      ∃ m, S.admittedMember? σ e raw = some m ∧ v = .member e m := by
  simp only [readMember, hkind, ne_eq, not_true_eq_false, if_false, hflags]
  simp only [admittedMember?_eq_some_iff]
  cases (S.enumeration e).withRaw? raw with
  | none => simp
  | some m =>
    have havailable := available_member_eq_ok_iff (σ := σ)
      ((S.enumeration e).name ++ "." ++ m.name) (S.enumeration e) m
      ((S.enumeration e).introducedIn m)
    rw [bind_eq_ok_iff]
    constructor
    · rintro ⟨⟨⟩, hok, hv⟩
      exact ⟨m, ⟨rfl, havailable.1 hok⟩, (Except.ok.inj hv).symm⟩
    · rintro ⟨m', ⟨heq, hadmits⟩, rfl⟩
      cases heq
      exact ⟨(), havailable.2 hadmits, rfl⟩

theorem decodeAt_enumeration_eq_ok_iff {e : E} (hflags : (S.enumeration e).isFlags = false)
    {x : Json} {v : Value R E} :
    S.decodeAt σ (.enumeration e) x = .ok v ↔
      ∃ raw m, x = .scalar raw ∧ raw.kind = (S.enumeration e).kind ∧
        S.admittedMember? σ e raw = some m ∧ v = .member e m := by
  rw [decodeAt_eq_readAs, readAs]
  simp only [readEnumeration, hflags, Bool.false_eq_true, if_false]
  cases x with
  | scalar raw =>
    by_cases hkind : raw.kind = (S.enumeration e).kind
    · simp [layer, readMember_scalar hflags hkind, hkind]
    · simp [layer, readMember, hkind]
  | arr items => simp [layer, readMember]
  | obj entries => simp [layer, readMember]

theorem decodeAt_flags_eq_ok_iff {e : E} (hflags : (S.enumeration e).isFlags = true) {x : Json}
    {v : Value R E} :
    S.decodeAt σ (.enumeration e) x = .ok v ↔ ∃ n, x = .int n ∧ v = .int n := by
  rw [decodeAt_eq_readAs, readAs]
  simp only [readEnumeration, hflags, if_true]
  cases x with
  | scalar s => cases s <;> simp [layer, eq_comm]
  | arr items => simp [layer]
  | obj entries => simp [layer]

/-- An open enumeration takes every raw value of the right kind. -/
theorem readOpen_eq_ok_iff {e : E} (hflags : (S.enumeration e).isFlags = false) {x : Json}
    {v : Value R E} :
    S.readOpen σ e (S.layer σ x) = .ok v ↔
      ∃ raw, x = .scalar raw ∧ raw.kind = (S.enumeration e).kind ∧ v = S.openValue σ e raw := by
  cases x with
  | scalar raw =>
    by_cases hkind : raw.kind = (S.enumeration e).kind
    · have hread := fun v => readMember_scalar (σ := σ) hflags hkind (v := v)
      simp only [layer, readOpen, hkind, ne_eq, not_true_eq_false, if_false, openValue]
      cases hm : S.admittedMember? σ e raw with
      | some m =>
        rw [(hread (.member e m)).2 ⟨m, hm, rfl⟩]
        simp [hkind, eq_comm, hm]
      | none =>
        cases hr : S.readMember σ e (.scalar raw) with
        | ok w =>
          obtain ⟨m, hm', -⟩ := (hread w).1 hr
          rw [hm] at hm'
          cases hm'
        | error failure => simp [hkind, eq_comm, hm]
    · simp [layer, readOpen, readMember, hkind]
  | arr items => simp [layer, readOpen, readMember]
  | obj entries => simp [layer, readOpen, readMember]

/-- A raw value is read as a sum of flags or as a member that belongs to the surface. -/
theorem readMember_cases {e : E} {layer : Layer (Readable R E)} {v : Value R E}
    (h : S.readMember σ e layer = .ok v) :
    ((S.enumeration e).isFlags = true ∧ ∃ bits, v = .flags e bits) ∨
      ∃ m, v = .member e m ∧ EnumDecl.admits σ (S.enumeration e) m = true := by
  unfold readMember at h
  dsimp only at h
  split at h
  · split at h
    · cases h
    · split at h
      · exact .inl ⟨by assumption, _, (Except.ok.inj h).symm⟩
      · split at h
        · cases h
        · rename_i m _
          obtain ⟨⟨⟩, havailable, hm⟩ := bind_eq_ok_iff.1 h
          exact .inr ⟨m, (Except.ok.inj hm).symm, (available_member_eq_ok_iff ..).1 havailable⟩
  · cases h

theorem readOpen_cases {e : E} {layer : Layer (Readable R E)} {v : Value R E}
    (h : S.readOpen σ e layer = .ok v) :
    S.readMember σ e layer = .ok v ∨ ∃ raw, v = .unknown raw := by
  unfold readOpen at h
  split at h
  · split at h
    · exact .inl h
    · split at h
      · rename_i hread
        exact .inl (hread.trans h)
      · exact .inr ⟨_, (Except.ok.inj h).symm⟩
  · exact .inl h

end Schema

end LspWire
