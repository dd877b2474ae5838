import LspWire.Command.Invocation
import Mathlib.Data.List.Basic
import Mathlib.Tactic.Cases

/-!
# Reading words

What a grammar does to its state while it reads words is put together from the effects of its
options and of its plain words. `Grammar.scan_induction` says so for every property of the state and
the options that have taken effect; `given` lists these options from the words alone.
-/

namespace LspWire.Command

/-! ## Runs that succeed -/

section

variable {ε σ α β : Type}

theorem run_bind_eq_ok_iff {x : EStateM ε σ α} {f : α → EStateM ε σ β} {s s' : σ} {b : β} :
    (x >>= f).run s = .ok b s' ↔ ∃ a s₁, x.run s = .ok a s₁ ∧ (f a).run s₁ = .ok b s' := by
  rw [EStateM.run_bind]
  cases x.run s with
  | ok a s₁ => simp
  | error e s₁ => simp

theorem run_pure_eq_ok_iff {a b : α} {s s' : σ} :
    (pure a : EStateM ε σ α).run s = .ok b s' ↔ a = b ∧ s = s' := by
  rw [EStateM.run_pure]
  simp

end

/-! ## Options in words -/

section

variable {σ α : Type}

/-- The options that words set, with their values. -/
def given (specs : List (Spec α)) : List (Word α) → List (Spec α × Option String)
  | [] => []
  | w :: ws =>
    match w.role with
    | .option (some found) =>
      match optionsOf specs found ws with
      | .ok (options, taken) =>
        options.map (fun (s, value?) => (s, value?.filter (· ≠ separatorText))) ++
          given specs (ws.drop taken)
      | .error _ => []
    | _ => given specs ws
termination_by ws => ws.length
decreasing_by all_goals (simp only [List.length_cons, List.length_drop]; omega)

namespace Word

/-- Whether a word is no option: a plain one, or the separator. -/
def isBare (w : Word α) : Bool := w.isPlain || w.isSeparator

theorem role_cases (w : Word α) :
    w.isBare = true ∨ w.role = .option none ∨ ∃ found, w.role = .option (some found) := by
  rw [isBare, isPlain, isSeparator]
  rcases w.role with _ | _ | _ | found
  · exact .inl rfl
  · exact .inl rfl
  · exact .inr (.inl rfl)
  · exact .inr (.inr ⟨found, rfl⟩)

theorem isBare_of_isPlain {w : Word α} (h : w.isPlain = true) : w.isBare = true := by
  rw [isBare, h, Bool.true_or]

theorem isBare_of_isSeparator {w : Word α} (h : w.isSeparator = true) : w.isBare = true := by
  rw [isBare, h, Bool.or_true]

end Word

variable {specs : List (Spec α)}

theorem given_cons_of_isBare {w : Word α} (h : w.isBare = true) (ws : List (Word α)) :
    given specs (w :: ws) = given specs ws := by
  rw [given]
  rw [Word.isBare, Word.isPlain, Word.isSeparator] at h
  rcases hrole : w.role with _ | _ | _ | found
  · rfl
  · rfl
  · rfl
  · rw [hrole] at h
    cases h

/-- Words that are no options can be passed over. -/
theorem given_drop {ws : List (Word α)} {n : Nat} (h : ∀ w ∈ ws.take n, w.isBare = true) :
    given specs (ws.drop n) = given specs ws := by
  induction ws generalizing n with
  | nil => rw [List.drop_nil]
  | cons w ws ih =>
    cases n with
    | zero => rfl
    | succ n =>
      rw [List.take_succ_cons, List.forall_mem_cons] at h
      rw [List.drop_succ_cons, ih h.2, given_cons_of_isBare h.1]

/-- Words of which all that follow a separator are plain. -/
def IsMarkedOff (ws : List (Word α)) : Prop :=
  ws.Pairwise fun w w' => w.isSeparator = true → w'.isPlain = true

theorem IsMarkedOff.isBare_of_isSeparator {w : Word α} {ws : List (Word α)}
    (h : IsMarkedOff (w :: ws)) (hw : w.isSeparator = true) : ∀ w' ∈ ws, w'.isBare = true :=
  fun w' hw' => Word.isBare_of_isPlain ((List.pairwise_cons.1 h).1 w' hw' hw)

theorem roleOf_ne_separator (specs : List (Spec α)) (word : String) :
    roleOf specs word ≠ .ok .separator := by
  intro h
  unfold roleOf at h
  split at h
  · split at h
    · cases h
    · dsimp only at h
      split at h
      · cases h
      · split at h
        · cases h
        · split_ifs at h <;> cases h
        · cases h
  · cases h

theorem isMarkedOff_classify {words : List String} {ws : List (Word α)}
    (h : classify specs words = .ok ws) : IsMarkedOff ws := by
  induction words generalizing ws with
  | nil =>
    cases h
    exact .nil
  | cons word words ih =>
    rw [classify] at h
    split_ifs at h with hseparator
    · cases h
      have hplain : ∀ w ∈ words.map fun text => (⟨text, .plain⟩ : Word α), w.isPlain = true := by
        intro w hw
        obtain ⟨text, -, rfl⟩ := List.mem_map.1 hw
        rfl
      exact .cons (fun w hw _ => hplain w hw)
        (List.pairwise_of_forall_mem_list fun _ _ w hw _ => hplain w hw)
    · cases hrole : roleOf specs word with
      | error fault =>
        rw [hrole] at h
        cases h
      | ok role =>
        rw [hrole] at h
        cases hrest : classify specs words with
        | error fault =>
          rw [hrest] at h
          cases h
        | ok rest =>
          rw [hrest] at h
          cases h
          refine .cons (fun w _ hw => ?_) (ih hrest)
          rw [Word.isSeparator] at hw
          cases role with
          | separator => exact absurd hrole (roleOf_ne_separator specs word)
          | plain => cases hw
          | option found? => cases hw

/-! ## Scanning -/

namespace Grammar

variable {g : Grammar σ α} {w : Word α} {ws : List (Word α)} {st st' : σ × FileSystem}
  {leftover : List String}

theorem run_orMisuse_eq_ok_iff {β : Type} {x : Except UsageFault β} {b : β} :
    (g.orMisuse x).run st = .ok b st' ↔ x = .ok b ∧ st = st' := by
  cases x with
  | ok a => rw [orMisuse, run_pure_eq_ok_iff, Except.ok.injEq]
  | error fault =>
    refine iff_of_false (fun h => ?_) fun h => ?_
    · cases h
    · cases h.1

/-- The options of a word take effect one after the other. -/
def applyAll (g : Grammar σ α) (options : List (Spec α × Option String)) : Reading σ PUnit :=
  forIn options PUnit.unit fun option _ => do
    g.apply option.1 (option.2.filter (· ≠ separatorText))
    pure (ForInStep.yield PUnit.unit)

theorem run_scan_nil (h : (g.scan []).run st = .ok leftover st') : st = st' := by
  rw [scan, run_pure_eq_ok_iff] at h
  exact h.2

theorem run_scan_none (hrole : w.role = .option none)
    (h : (g.scan (w :: ws)).run st = .ok leftover st') :
    ∃ others, (g.scan ws).run st = .ok others st' := by
  rw [scan, hrole] at h
  obtain ⟨others, st₁, hscan, hothers⟩ := run_bind_eq_ok_iff.1 h
  obtain ⟨-, rfl⟩ := run_pure_eq_ok_iff.1 hothers
  exact ⟨others, hscan⟩

theorem run_scan_found {found : Found α} (hrole : w.role = .option (some found))
    (h : (g.scan (w :: ws)).run st = .ok leftover st') :
    ∃ options taken st₁, optionsOf g.options found ws = .ok (options, taken) ∧
      (g.applyAll options).run st = .ok PUnit.unit st₁ ∧
      (g.scan (ws.drop taken)).run st₁ = .ok leftover st' := by
  rw [scan, hrole] at h
  obtain ⟨⟨options, taken⟩, st₁, hread, hrest⟩ := run_bind_eq_ok_iff.1 h
  obtain ⟨hoptions, rfl⟩ := run_orMisuse_eq_ok_iff.1 hread
  obtain ⟨⟨⟩, st₂, hloop, hscan⟩ := run_bind_eq_ok_iff.1 hrest
  exact ⟨options, taken, st₂, hoptions, hloop, hscan⟩

theorem run_scan_bare (hbare : w.isBare = true)
    (h : (g.scan (w :: ws)).run st = .ok leftover st') :
    ∃ taken st₁ others, (g.plain (w :: ws)).run st = .ok taken st₁ ∧
      (g.scan (ws.drop (taken - 1))).run st₁ = .ok others st' := by
  rw [scan] at h
  replace h : (do
      let taken ← g.plain (w :: ws)
      if taken = 0 then return w.text :: (← g.scan ws)
      else g.scan (ws.drop (taken - 1)) : Reading σ (List String)).run st = .ok leftover st' := by
    rw [Word.isBare, Word.isPlain, Word.isSeparator] at hbare
    rcases hrole : w.role with _ | _ | found?
    · rwa [hrole] at h
    · rwa [hrole] at h
    · rw [hrole] at hbare
      cases hbare
  obtain ⟨taken, st₁, hplain, hrest⟩ := run_bind_eq_ok_iff.1 h
  split_ifs at hrest with hzero
  · obtain ⟨others, st₂, hscan, hothers⟩ := run_bind_eq_ok_iff.1 hrest
    obtain ⟨-, rfl⟩ := run_pure_eq_ok_iff.1 hothers
    rw [hzero] at hplain
    exact ⟨0, st₁, others, hplain, hscan⟩
  · exact ⟨taken, st₁, leftover, hplain, hrest⟩

variable {motive : List (Spec α × Option String) → σ × FileSystem → Prop}

/-- A property that every option keeps is kept by options one after the other. -/
theorem applyAll_induction
    (happly : ∀ done s value? st st', motive done st →
      (g.apply s value?).run st = .ok () st' → motive (done ++ [(s, value?)]) st')
    {options : List (Spec α × Option String)} (done : List (Spec α × Option String))
    (h : motive done st) (hrun : (g.applyAll options).run st = .ok PUnit.unit st') :
    motive (done ++ options.map fun option =>
      (option.1, option.2.filter (· ≠ separatorText))) st' := by
  rw [applyAll] at hrun
  induction options generalizing done st with
  | nil =>
    rw [List.forIn_nil, run_pure_eq_ok_iff] at hrun
    obtain ⟨-, rfl⟩ := hrun
    rwa [List.map_nil, List.append_nil]
  | cons option options ih =>
    rw [List.forIn_cons, run_bind_eq_ok_iff] at hrun
    obtain ⟨step, st₁, hstep, hrest⟩ := hrun
    rw [run_bind_eq_ok_iff] at hstep
    obtain ⟨⟨⟩, st₂, hoption, hyield⟩ := hstep
    rw [run_pure_eq_ok_iff] at hyield
    obtain ⟨rfl, rfl⟩ := hyield
    have hmore := ih _ (happly _ _ _ _ _ h hoption) hrest
    rwa [List.append_assoc] at hmore

/-- A property of the state and the options so far holds after words have been read if every option
and every run of plain words keeps it. -/
theorem scan_induction
    (happly : ∀ done s value? st st', motive done st →
      (g.apply s value?).run st = .ok () st' → motive (done ++ [(s, value?)]) st')
    (hplain : ∀ done w ws n st st', w.isBare = true → IsMarkedOff (w :: ws) → motive done st →
      (g.plain (w :: ws)).run st = .ok n st' →
      motive done st' ∧ ∀ w' ∈ ws.take (n - 1), w'.isBare = true)
    (hws : IsMarkedOff ws) {done : List (Spec α × Option String)} (h : motive done st)
    (hrun : (g.scan ws).run st = .ok leftover st') : motive (done ++ given g.options ws) st' := by
  -- Options and plain words take several words at once, so the induction is on how many are left.
  induction hlength : ws.length using Nat.strongRecOn generalizing ws done st leftover with
  | _ length ih =>
    cases ws with
    | nil =>
      rw [given, List.append_nil]
      exact run_scan_nil hrun ▸ h
    | cons w ws =>
      have hrest (n : Nat) : IsMarkedOff (ws.drop n) :=
        (List.pairwise_cons.1 hws).2.sublist (List.drop_sublist n ws)
      have hshort (n : Nat) : (ws.drop n).length < length := by
        rw [← hlength, List.length_drop, List.length_cons]
        omega
      obtain hbare | hrole | ⟨found, hrole⟩ := w.role_cases
      · obtain ⟨n, st₁, others, htake, hscan⟩ := run_scan_bare hbare hrun
        obtain ⟨h, hbares⟩ := hplain done w ws n st st₁ hbare hws h htake
        rw [given_cons_of_isBare hbare, ← given_drop hbares]
        exact ih _ (hshort _) (hrest _) h hscan rfl
      · obtain ⟨others, hscan⟩ := run_scan_none hrole hrun
        have hgiven : given g.options (w :: ws) = given g.options ws := by rw [given, hrole]
        rw [hgiven]
        exact ih _ (hshort 0) (hrest 0) h hscan rfl
      · obtain ⟨options, taken, st₁, hoptions, hall, hscan⟩ := run_scan_found hrole hrun
        have hgiven : given g.options (w :: ws) = options.map (fun option =>
            (option.1, option.2.filter (· ≠ separatorText))) ++
              given g.options (ws.drop taken) := by
          rw [given, hrole]
          dsimp only
          rw [hoptions]
        rw [hgiven, ← List.append_assoc]
        exact ih _ (hshort _) (hrest _) (applyAll_induction happly _ h hall) hscan rfl

end Grammar

end

end LspWire.Command
