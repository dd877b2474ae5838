import LspWire.Proofs.Available

/-!
# Checks of constructors

A constructor lets a record through if every check of every field passes. Checks that refuse what is
proposed pass for values of a surface, and enabling the proposed parts never makes a check fail.
-/

namespace LspWire

variable {R E : Type}

theorem forM_eq_ok_iff {ε α : Type} {f : α → Except ε Unit} {xs : List α} :
    xs.forM f = .ok () ↔ ∀ x ∈ xs, f x = .ok () := by
  induction xs with
  | nil => exact iff_of_true rfl (List.forall_mem_nil _)
  | cons x xs ih =>
    rw [List.forM_eq_forM, List.forM_cons, bind_eq_ok_iff, List.forall_mem_cons, ← ih]
    constructor
    · rintro ⟨⟨⟩, hx, hxs⟩
      exact ⟨hx, hxs⟩
    · rintro ⟨hx, hxs⟩
      exact ⟨(), hx, hxs⟩

theorem exists_of_forM_eq_error {ε α : Type} {f : α → Except ε Unit} {xs : List α} {e : ε}
    (h : xs.forM f = .error e) : ∃ x ∈ xs, f x = .error e := by
  induction xs with
  | nil => cases h
  | cons x xs ih =>
    rw [List.forM_eq_forM, List.forM_cons] at h
    cases hx : f x with
    | error e' =>
      rw [hx] at h
      cases h
      exact ⟨x, List.mem_cons_self, hx⟩
    | ok u =>
      rw [hx] at h
      obtain ⟨y, hy, hfy⟩ := ih h
      exact ⟨y, List.mem_cons_of_mem _ hy, hfy⟩

namespace Schema

variable {S : Schema R E} {σ : Surface} {enabled : Bool}

theorem checkFields_eq_ok_iff {r : R} {values : List (Value R E)} :
    S.checkFields enabled r values = .ok () ↔
      ∀ p ∈ (S.record r).fields.zip values,
        S.checkField enabled (S.record r).name p.1 p.2 = .ok () := by
  rw [checkFields]
  exact forM_eq_ok_iff

theorem checkField_eq_ok_iff {record : String} {f : Field R E} {v : Value R E} :
    S.checkField enabled record f v = .ok () ↔
      (Surface.isProposed f.tag = true → v.isNull = false → enabled = true) ∧
        ∀ c ∈ f.checks, c.run S enabled record f.name v = .ok () := by
  unfold checkField
  split
  · rename_i h
    simp only [Bool.and_eq_true, Bool.not_eq_true'] at h
    refine iff_of_false nofun fun h' => ?_
    rw [h'.1 h.1.1 h.1.2] at h
    cases h.2
  · rename_i h
    rw [forM_eq_ok_iff, and_iff_right]
    intro hproposed hnull
    simpa [hproposed, hnull] using h

theorem run_enabled {c : Check} {record field : String} {v : Value R E}
    (h : c.run S enabled record field v = .ok ()) : c.run S true record field v = .ok () := by
  cases c with
  | proposed => simp [Check.run]
  | stable => cases v <;> simp [Check.run]
  | unsigned bits => exact h
  | atMost bound => exact h

theorem checkFields_enabled {r : R} {values : List (Value R E)}
    (h : S.checkFields enabled r values = .ok ()) : S.checkFields true r values = .ok () := by
  rw [checkFields_eq_ok_iff] at h ⊢
  intro p hp
  have hp := checkField_eq_ok_iff.1 (h p hp)
  exact checkField_eq_ok_iff.2 ⟨fun _ _ => rfl, fun c hc => run_enabled (hp.2 c hc)⟩

theorem construct_eq_ok_iff {r : R} {arguments : List (String × Value R E)} {v : Value R E} :
    S.construct enabled r arguments = .ok v ↔
      S.gate enabled r = .ok () ∧ ∃ values, S.arrange r arguments = .ok values ∧
        S.checkFields enabled r values = .ok () ∧ v = .record r values := by
  simp only [construct, bind_eq_ok_iff]
  constructor
  · rintro ⟨⟨⟩, hgate, values, hvalues, ⟨⟩, hchecks, hv⟩
    exact ⟨hgate, values, hvalues, hchecks, (Except.ok.inj hv).symm⟩
  · rintro ⟨hgate, values, hvalues, hchecks, rfl⟩
    exact ⟨(), hgate, values, hvalues, (), hchecks, rfl⟩

theorem gate_eq_ok_iff {r : R} :
    S.gate enabled r = .ok () ↔ (Surface.isProposed (S.record r).tag = true → enabled = true) := by
  rw [gate]
  cases Surface.isProposed (S.record r).tag <;> cases enabled <;> simp

theorem construct_enabled {r : R} {arguments : List (String × Value R E)} {v : Value R E}
    (h : S.construct enabled r arguments = .ok v) : S.construct true r arguments = .ok v := by
  obtain ⟨-, values, hvalues, hchecks, rfl⟩ := construct_eq_ok_iff.1 h
  exact construct_eq_ok_iff.2
    ⟨gate_eq_ok_iff.2 fun _ => rfl, values, hvalues, checkFields_enabled hchecks, rfl⟩

theorem run_unsigned_eq_ok_iff {bits : Nat} {record field : String} {n : Int} :
    (Check.unsigned bits).run S enabled record field (.int n) = .ok () ↔
      ∃ m : Nat, n = m ∧ m < 2 ^ bits := by
  simp only [Check.run, Value.toInt?]
  constructor
  · intro h
    split at h
    · cases h
    · split at h
      · rename_i hfits
        refine ⟨n.toNat, by omega, ?_⟩
        have hcast : ((n.toNat : Nat) : Int) < ((2 ^ bits : Nat) : Int) := by omega
        exact_mod_cast hcast
      · cases h
  · rintro ⟨m, rfl, hm⟩
    have hpos : ¬(m : Int) < 0 := by omega
    have hfits : (m : Int) < (2 ^ bits : Nat) := by exact_mod_cast hm
    rw [if_neg hpos, if_pos hfits]

/-- What belongs to a surface is not proposed unless the proposed parts are enabled. -/
theorem enabled_of_admits {tag? : Option Tag} (h : σ.admits tag? = true)
    (hproposed : Surface.isProposed tag? = true) : σ.proposed = true := by
  rw [Surface.admits, Bool.and_eq_true, Bool.or_eq_true, hproposed, Bool.not_true] at h
  simpa using h.1

theorem run_stable {record field : String} {v : Value R E} (h : v.Available S σ) :
    Check.stable.run S σ.proposed record field v = .ok () := by
  cases h with
  | member h =>
    rename_i e m
    rw [EnumDecl.admits, Bool.and_eq_true] at h
    have hpasses : ((S.enumeration e).isProposed m && !σ.proposed) = false := by
      rw [Bool.and_eq_false_iff, EnumDecl.isProposed, Bool.or_eq_false_iff, Bool.not_eq_false']
      by_cases hm : Surface.isProposed m.tag = true
      · exact .inr (enabled_of_admits h.1 hm)
      · by_cases hd : Surface.isProposed (S.enumeration e).tag = true
        · exact .inr (enabled_of_admits h.2 hd)
        · exact .inl ⟨by simpa using hm, by simpa using hd⟩
    simp [Check.run, hpasses]
  | _ => rfl

end Schema

namespace Protocol

variable {σ : Surface}

/-- Whether a field has no checks but for proposed members and for the range of integers. -/
def hasKnownChecks (f : Field RecordName EnumName) : Bool :=
  f.checks.all fun
    | .stable => true
    | .unsigned _ =>
      match f.ty with
      | .int => true
      | _ => false
    | _ => false

theorem all_hasKnownChecks (r : RecordName) :
    (schema.record r).fields.all hasKnownChecks = true := by
  cases r <;> rfl

/-- A field of available values passes its checks if they are set to what is visible and a number
is checked like another one that passes. -/
theorem checkField_of_available {r : RecordName} {record : String}
    {f : Field RecordName EnumName} {v : Datum} (hf : f ∈ (schema.record r).fields)
    (hvisible : v.isNull = false → f.isVisible σ = true) (hv : v.Available schema σ)
    (hint : f.ty = .int → schema.checkField true record f v = .ok ()) :
    schema.checkField σ.proposed record f v = .ok () := by
  refine Schema.checkField_eq_ok_iff.2 ⟨fun hproposed hnull => ?_, fun c hc => ?_⟩
  · exact Schema.enabled_of_admits (hvisible hnull) hproposed
  · have hknown := List.all_eq_true.1 (of_all_fields (all_hasKnownChecks r) hf) c hc
    cases c with
    | stable => exact Schema.run_stable hv
    | unsigned bits =>
      have hty : f.ty = .int := by
        revert hknown
        cases f.ty <;> simp
      exact (Schema.checkField_eq_ok_iff.1 (hint hty)).2 _ hc
    | proposed => cases hknown
    | atMost bound => cases hknown

theorem checkFields_of_fieldsRead {r : RecordName} {entries : List (String × Json)}
    {values : List Datum} (h : schema.FieldsRead σ entries (schema.record r).fields values)
    (hint : List.Forall₂ (fun f v => f.ty = .int →
      schema.checkField true (schema.record r).name f v = .ok ()) (schema.record r).fields values) :
    schema.checkFields σ.proposed r values = .ok () := by
  refine Schema.checkFields_eq_ok_iff.2 fun p hp => ?_
  have hf := (List.of_mem_zip hp).1
  obtain ⟨hvisible, havailable⟩ := available_of_fieldRead hf
    (fun x _ t v ht hv => available_of_decodeAt ht hv) (List.forall₂_zip h hp)
  exact checkField_of_available hf hvisible havailable (List.forall₂_zip hint hp)

theorem fields_messageActionItem :
    (schema.record .messageActionItem).fields = [.required "title" .str,
      ⟨"properties", .union [.map messageActionItemProperty, .null], .null, some (.since 16 true),
        []⟩] :=
  rfl

/-- An action is let through unless it has properties outside the surface. -/
theorem checkFields_messageActionItem {title rest : Datum}
    (h : rest.isNull = false → σ.admits (some (.since 16 true)) = true) :
    schema.checkFields σ.proposed .messageActionItem [title, rest] = .ok () := by
  rw [Schema.checkFields_eq_ok_iff]
  simp only [fields_messageActionItem, List.zip_cons_cons, List.zip_nil_right,
    List.forall_mem_cons]
  refine ⟨Schema.checkField_eq_ok_iff.2 ⟨nofun, List.forall_mem_nil _⟩,
    Schema.checkField_eq_ok_iff.2 ⟨fun hproposed hnull => ?_, List.forall_mem_nil _⟩,
    List.forall_mem_nil _⟩
  exact Schema.enabled_of_admits (h hnull) hproposed

end Protocol

end LspWire
