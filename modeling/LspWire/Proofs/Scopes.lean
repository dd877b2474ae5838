import LspWire.Protocol.Session
import Mathlib.Data.List.Basic

/-!
# Scopes

The override of the environment is that of the innermost open scope, after every step of a session,
and no version is in force between the steps. Two facts carry this along a run: a scope that is
closed puts back what it replaced, and every other step leaves the context as it was, whether it
gives an answer or fails. Such a step looks at nothing but the flag and the slots that it names.
-/

namespace LspWire

variable {R E ε α β : Type}

/-- An operation goes on from the state that the one before it leaves, unless that one fails. -/
theorem run_run_bind {σ : Type} (op : ExceptT ε (StateM σ) α) (next : α → ExceptT ε (StateM σ) β)
    (s : σ) :
    (op >>= next).run.run s =
      match op.run.run s with
      | (.ok a, s') => (next a).run.run s'
      | (.error e, s') => (.error e, s') := by
  rw [ExceptT.run_bind, StateT.run_bind]
  obtain ⟨result, s'⟩ := op.run.run s
  cases result <;> rfl

/-! ## Operations in a context -/

namespace Contextual

/-- Whether an operation gives what a function makes of the flag, and leaves the context as it was.
-/
def Computes (op : Contextual ε α) (f : Bool → Except ε α) : Prop :=
  ∀ c, op.run.run c = (f c.enabled, c)

theorem computes_ofFlag (f : Bool → Except ε α) : (ofFlag f).Computes f := fun _ => rfl

theorem computes_liftM (r : Except ε α) :
    Computes (liftM r : Contextual ε α) fun _ => r := fun _ => rfl

theorem Computes.bind {op : Contextual ε α} {f : Bool → Except ε α} {next : α → Contextual ε β}
    {g : α → Bool → Except ε β} (hop : op.Computes f) (hnext : ∀ a, (next a).Computes (g a)) :
    Computes (op >>= next) fun enabled => f enabled >>= fun a => g a enabled := by
  intro c
  change _ = (f c.enabled >>= fun a => g a c.enabled, c)
  rw [run_run_bind, hop c]
  cases f c.enabled with
  | ok a => exact hnext a c
  | error e => rfl

end Contextual

namespace Schema

variable {S : Schema R E} {version? : Option SpecVersion} {t : Ty R E} {x : Json}

theorem decode_eq_mapError {enabled : Bool}
    (h : ¬((version?.getD (Surface.defaultVersion enabled)).isProposed && !enabled) = true) :
    S.decode enabled version? t x =
      (S.decodeAt ⟨version?.getD (Surface.defaultVersion enabled), enabled⟩ t x).mapError
        (Failure.toError (S.typeName t)) := by
  unfold decode
  dsimp only
  rw [if_neg h]
  cases S.decodeAt ⟨version?.getD (Surface.defaultVersion enabled), enabled⟩ t x with
  | ok v => rfl
  | error failure => cases failure <;> rfl

/-- Decoding in a context is decoding under its flag. The version that was in force is put back on
every path. -/
theorem computes_decodeIn :
    Contextual.Computes (S.decodeIn version? t x) fun enabled => S.decode enabled version? t x := by
  intro c
  have hget : (get : Contextual Error Context).run.run c = (.ok c, c) := rfl
  rw [decodeIn, run_run_bind, hget]
  by_cases hrefused : ((version?.getD c.defaultVersion).isProposed && !c.enabled) = true
  · simp only [if_pos hrefused]
    exact Prod.ext (if_pos hrefused).symm rfl
  · simp only [if_neg hrefused]
    exact Prod.ext (decode_eq_mapError hrefused).symm rfl

end Schema

namespace Protocol

open Contextual

variable {version? : Option SpecVersion} {m : Method} {x : Json}

namespace Method

theorem computes_decodePartIn (unexpected : Mismatch) (t? : Option DataType) :
    Computes (decodePartIn version? unexpected t? x) fun enabled =>
      decodePart enabled version? unexpected t? x := by
  cases t? with
  | some t => exact Schema.computes_decodeIn
  | none =>
    unfold decodePartIn decodePart
    dsimp only
    split
    · exact fun _ => rfl
    · exact fun _ => rfl

theorem computes_decodeParamsIn :
    Computes (m.decodeParamsIn version? x) fun enabled => m.decodeParams enabled version? x :=
  (computes_ofFlag m.gate).bind fun _ => computes_decodePartIn _ m.params?

theorem computes_decodeResultIn :
    Computes (m.decodeResultIn version? x) fun enabled => m.decodeResult enabled version? x :=
  (computes_liftM m.result).bind fun t? => (computes_ofFlag m.gate).bind fun _ =>
    computes_decodePartIn _ t?

end Method

/-! ## Procedures -/

namespace Session

variable {names : List String} {s s' : Session}

/-- Whether two sessions hold the same in some slots. -/
def Alike (names : List String) (s s' : Session) : Prop :=
  ∀ name ∈ names, s.slots.lookup name = s'.slots.lookup name

end Session

/-- Whether a procedure changes nothing, and gives the same in any two sessions with the same flag
that are alike in some slots. -/
structure Procedure.IsSteady (names : List String) (p : Procedure α) : Prop where
  state (s : Session) : (p.run.run s).2 = s
  outcome {s s' : Session} (hflag : s.enabled = s'.enabled) (hslots : s.Alike names s') :
    (p.run.run s).1 = (p.run.run s').1

/-- Whether a procedure leaves the context and the scopes as they are, and does the same in any two
sessions with the same flag that are alike in some slots: it gives the same, and it sets the same
slots unless it fails. -/
structure Procedure.IsConfined (names : List String) (p : Procedure α) : Prop where
  context (s : Session) : (p.run.run s).2.context = s.context
  replaced (s : Session) : (p.run.run s).2.replaced = s.replaced
  outcome {s s' : Session} (hflag : s.enabled = s'.enabled) (hslots : s.Alike names s') :
    (p.run.run s).1 = (p.run.run s').1 ∧ ∃ stored, (p.run.run s).2.slots = stored ++ s.slots ∧
      (p.run.run s').2.slots = stored ++ s'.slots ∧ ∀ e, (p.run.run s).1 = .error e → stored = []

/-- A confined procedure that fails changes nothing at all. -/
theorem Procedure.IsConfined.state_of_error {names : List String} {p : Procedure α}
    (hp : p.IsConfined names) {s : Session} {e : StepError} (he : (p.run.run s).1 = .error e) :
    (p.run.run s).2 = s := by
  obtain ⟨-, stored, hslots, -, hfails⟩ := hp.outcome (s := s) rfl fun _ _ => rfl
  rw [hfails e he, List.nil_append] at hslots
  have hcontext := hp.context s
  have hreplaced := hp.replaced s
  generalize (p.run.run s).2 = s' at hcontext hreplaced hslots
  cases s
  cases s'
  cases hcontext
  cases hreplaced
  cases hslots
  rfl

namespace Procedure.IsSteady

variable {names : List String} {p : Procedure α}

theorem isConfined (hp : p.IsSteady names) : p.IsConfined names where
  context s := by rw [hp.state]
  replaced s := by rw [hp.state]
  outcome {s s'} hflag hslots := by
    refine ⟨hp.outcome hflag hslots, [], ?_, ?_, fun _ _ => rfl⟩
    · rw [hp.state, List.nil_append]
    · rw [hp.state, List.nil_append]

theorem run_bind (hp : p.IsSteady names) (next : α → Procedure β) (s : Session) :
    (p >>= next).run.run s =
      match (p.run.run s).1 with
      | .ok a => (next a).run.run s
      | .error e => (.error e, s) := by
  have hstate := hp.state s
  rw [run_run_bind]
  generalize p.run.run s = outcome at hstate
  obtain ⟨result, s'⟩ := outcome
  cases hstate
  cases result <;> rfl

theorem bind (hp : p.IsSteady names) {next : α → Procedure β}
    (hnext : ∀ a, IsSteady names (next a)) : IsSteady names (p >>= next) where
  state s := by
    rw [hp.run_bind]
    cases (p.run.run s).1 with
    | ok a => exact (hnext a).state s
    | error e => rfl
  outcome {s s'} hflag hslots := by
    rw [hp.run_bind, hp.run_bind, hp.outcome hflag hslots]
    cases (p.run.run s').1 with
    | ok a => exact (hnext a).outcome hflag hslots
    | error e => rfl

theorem bind_isConfined (hp : p.IsSteady names) {next : α → Procedure β}
    (hnext : ∀ a, IsConfined names (next a)) : IsConfined names (p >>= next) where
  context s := by
    rw [hp.run_bind]
    cases (p.run.run s).1 with
    | ok a => exact (hnext a).context s
    | error e => rfl
  replaced s := by
    rw [hp.run_bind]
    cases (p.run.run s).1 with
    | ok a => exact (hnext a).replaced s
    | error e => rfl
  outcome {s s'} hflag hslots := by
    rw [hp.run_bind, hp.run_bind, hp.outcome hflag hslots]
    cases (p.run.run s').1 with
    | ok a => exact (hnext a).outcome hflag hslots
    | error e => exact ⟨rfl, [], rfl, rfl, fun _ _ => rfl⟩

end Procedure.IsSteady

namespace Session

variable {names : List String}

theorem isSteady_pure (a : α) : Procedure.IsSteady names (pure a : Procedure α) :=
  ⟨fun _ => rfl, fun _ _ => rfl⟩

theorem isSteady_throw (e : StepError) : Procedure.IsSteady names (throw e : Procedure α) :=
  ⟨fun _ => rfl, fun _ _ => rfl⟩

theorem isSteady_liftM (r : Except StepError α) :
    Procedure.IsSteady names (liftM r : Procedure α) :=
  ⟨fun _ => rfl, fun _ _ => rfl⟩

theorem isSteady_operate {f : Contextual Error α} {g : Bool → Except Error α} (h : f.Computes g) :
    Procedure.IsSteady names (operate f) := by
  have hrun (s : Session) :
      (operate f).run.run s = ((g s.enabled).mapError StepError.operation, s) := by
    change ((f.run.run s.context).1.mapError StepError.operation,
      { s with context := (f.run.run s.context).2 }) = _
    rw [h s.context]
    rfl
  refine ⟨fun s => by rw [hrun], fun {s s'} hflag _ => ?_⟩
  rw [hrun, hrun, hflag]

theorem isSteady_look {name : String} (h : name ∈ names) :
    Procedure.IsSteady names (look name) :=
  ⟨fun _ => rfl, fun _ hslots => congrArg Except.ok (hslots name h)⟩

theorem isSteady_value {name : String} (h : name ∈ names) :
    Procedure.IsSteady names (value name) := by
  refine (isSteady_look h).bind fun held => ?_
  split
  · exact isSteady_pure _
  · exact isSteady_throw _

theorem isSteady_method {name : String} (h : name ∈ names) :
    Procedure.IsSteady names (Session.method name) := by
  refine (isSteady_look h).bind fun held => ?_
  split
  · exact isSteady_pure _
  · exact isSteady_throw _

/-- Slots are set last, so a step that fails sets none. -/
theorem isConfined_store (into? : Option String) (x : Slot) (answer : Answer) :
    Procedure.IsConfined names (do store into? x; pure answer) := by
  cases into? with
  | none => exact (⟨fun _ => rfl, fun _ _ => rfl⟩ : Procedure.IsSteady names _).isConfined
  | some name =>
    refine ⟨fun _ => rfl, fun _ => rfl, fun _ _ => ⟨rfl, [(name, x)], rfl, rfl, ?_⟩⟩
    intro e he
    cases he

theorem isConfined_yieldValue (into? : Option String) (v : Datum) :
    Procedure.IsConfined names (yieldValue into? v) :=
  isConfined_store into? (.value v) (.value v)

end Session

/-! ## Steps -/

namespace Step

/-- Whether a step opens or closes a scope. -/
def isScope : Step → Bool
  | .enter _ | .leave | .interrupt => true
  | _ => false

/-- The slots that a step looks at. -/
def reads : Step → List String
  | .enter _ | .leave | .interrupt | .decode .. | .construct .. | .lookup .. => []
  | .evolve slot .. | .get slot .. | .encode slot _ | .redecode slot .. => [slot]
  | .params method .. | .result method .. => [method]
  | .equal a b | .encodeParams a b | .encodeResult a b => [a, b]
  | .build method _ slot? => method :: slot?.toList

end Step

namespace Session

open Contextual

/-- Every step that opens or closes no scope leaves the context as it is, and does the same wherever
the flag is the same and the slots that it looks at hold the same. -/
theorem isConfined_perform {x : Step} (hx : x.isScope = false) :
    Procedure.IsConfined x.reads (perform x) := by
  cases x with
  | enter _ => cases hx
  | leave => cases hx
  | interrupt => cases hx
  | decode type data version? into? =>
    refine (isSteady_liftM (resolve type)).bind_isConfined fun t => ?_
    exact (isSteady_operate Schema.computes_decodeIn).bind_isConfined (isConfined_yieldValue into?)
  | construct draft into? =>
    exact (isSteady_operate (computes_ofFlag _)).bind_isConfined (isConfined_yieldValue into?)
  | evolve slot changes into? =>
    refine (isSteady_value (.head _)).bind_isConfined fun v => ?_
    refine (isSteady_operate (computes_ofFlag _)).bind_isConfined fun changes => ?_
    exact (isSteady_operate (computes_ofFlag _)).bind_isConfined (isConfined_yieldValue into?)
  | get slot path into? =>
    refine (isSteady_value (.head _)).bind_isConfined fun v => ?_
    exact (isSteady_liftM _).bind_isConfined (isConfined_yieldValue into?)
  | encode slot type? =>
    refine (isSteady_value (.head _)).bind_isConfined fun v => ?_
    exact (isSteady_liftM _).bind_isConfined fun x => (isSteady_pure _).isConfined
  | redecode slot type version? into? =>
    refine (isSteady_value (.head _)).bind_isConfined fun v => ?_
    refine (isSteady_liftM (resolve type)).bind_isConfined fun t => ?_
    refine (isSteady_liftM (encodeValue v none)).bind_isConfined fun x => ?_
    exact (isSteady_operate Schema.computes_decodeIn).bind_isConfined (isConfined_yieldValue into?)
  | equal a b =>
    refine (isSteady_value (.head _)).bind_isConfined fun v => ?_
    refine (isSteady_value (.tail _ (.head _))).bind_isConfined fun w => ?_
    exact (isSteady_pure _).isConfined
  | lookup kind name into? =>
    refine (isSteady_operate (computes_ofFlag _)).bind_isConfined fun m => ?_
    exact isConfined_store into? (.method m) (.description m.describe)
  | params method data version? into? =>
    refine (isSteady_method (.head _)).bind_isConfined fun m => ?_
    exact (isSteady_operate Method.computes_decodeParamsIn).bind_isConfined
      (isConfined_yieldValue into?)
  | result method data version? into? =>
    refine (isSteady_method (.head _)).bind_isConfined fun m => ?_
    exact (isSteady_operate Method.computes_decodeResultIn).bind_isConfined
      (isConfined_yieldValue into?)
  | encodeParams method slot =>
    refine (isSteady_method (.head _)).bind_isConfined fun m => ?_
    refine (isSteady_value (.tail _ (.head _))).bind_isConfined fun v => ?_
    exact (isSteady_liftM _).bind_isConfined fun x => (isSteady_pure _).isConfined
  | encodeResult method slot =>
    refine (isSteady_method (.head _)).bind_isConfined fun m => ?_
    refine (isSteady_liftM (lift m.result)).bind_isConfined fun _ => ?_
    refine (isSteady_value (.tail _ (.head _))).bind_isConfined fun v => ?_
    exact (isSteady_liftM _).bind_isConfined fun x => (isSteady_pure _).isConfined
  | build method id slot? =>
    have hparams : Procedure.IsSteady (Step.build method id slot?).reads
        ((slot?.map value).getD (pure .null)) := by
      cases slot? with
      | none => exact isSteady_pure _
      | some slot => exact isSteady_value (.tail _ (.head _))
    refine (isSteady_method (.head _)).bind_isConfined fun m => ?_
    refine hparams.bind_isConfined fun params => ?_
    refine (isSteady_operate (computes_ofFlag _)).bind_isConfined fun v => ?_
    exact (isSteady_liftM _).bind_isConfined fun x => (isSteady_pure _).isConfined

/-! ## Open scopes -/

end Session

namespace Step

/-- The settings of the open scopes after a step, the innermost first. -/
def scopesAfter (scopes : List Bool) : Step → List Bool
  | .enter enabled => enabled :: scopes
  | .leave | .interrupt => scopes.tail
  | _ => scopes

/-- The settings of the scopes that some steps leave open, the innermost first. -/
def openScopes (xs : List Step) : List Bool := xs.foldl scopesAfter []

theorem scopesAfter_of_not_isScope {x : Step} (hx : x.isScope = false) (scopes : List Bool) :
    x.scopesAfter scopes = scopes := by
  cases x <;> first | rfl | cases hx

end Step

namespace Session

/-- The session after some steps. -/
def after (s : Session) : List Step → Session
  | [] => s
  | x :: xs => (s.step x).2.after xs

/-- Whether the variables of a session are those of some open scopes: the override and what the
scopes have replaced are the settings of the scopes, down to no override at all, and no version is
in force. -/
structure Tracks (ambient : Bool) (scopes : List Bool) (s : Session) : Prop where
  ambient : s.context.ambient = ambient
  overrides : s.context.override? :: s.replaced = scopes.map some ++ [none]
  active : s.context.active? = none

variable {ambient : Bool} {scopes : List Bool} {s : Session}

theorem tracks_start (ambient : Bool) : Tracks ambient [] (start ambient) := ⟨rfl, rfl, rfl⟩

namespace Tracks

theorem override?_eq (h : Tracks ambient scopes s) : s.context.override? = scopes.head? := by
  have hoverrides := h.overrides
  cases scopes with
  | nil => exact (List.cons.inj hoverrides).1
  | cons b scopes => exact (List.cons.inj hoverrides).1

theorem enabled_eq (h : Tracks ambient scopes s) : s.enabled = scopes.headD ambient := by
  rw [enabled, Context.enabled, h.override?_eq, h.ambient]
  cases scopes <;> rfl

/-- Closing a scope puts back what it replaced. Where no scope is open, nothing is closed. -/
theorem leave (h : Tracks ambient scopes s) :
    Tracks ambient scopes.tail (Session.leave.run.run s).2 := by
  obtain ⟨⟨ambient', override?, active?⟩, replaced, slots⟩ := s
  obtain ⟨hambient, hoverrides, hactive⟩ := h
  cases scopes with
  | nil =>
    obtain ⟨rfl, rfl⟩ := List.cons.inj hoverrides
    exact ⟨hambient, rfl, hactive⟩
  | cons b scopes =>
    obtain ⟨-, hreplaced⟩ := List.cons.inj hoverrides
    cases replaced with
    | nil => exact absurd hreplaced.symm (by simp)
    | cons before replaced => exact ⟨hambient, hreplaced, hactive⟩

/-- The variables are those of the open scopes after every step. -/
theorem step (h : Tracks ambient scopes s) (x : Step) :
    Tracks ambient (x.scopesAfter scopes) (s.step x).2 := by
  have hleave {next : Unit → Procedure Answer} (hnext : ∀ s, ((next ()).run.run s).2 = s) :
      Tracks ambient scopes.tail ((Session.leave >>= next).run.run s).2 := by
    have htail := h.leave
    rw [run_run_bind]
    generalize Session.leave.run.run s = outcome at htail
    obtain ⟨⟨⟩ | e, s'⟩ := outcome
    · exact htail
    · exact (hnext s').symm ▸ htail
  cases hx : x.isScope with
  | false =>
    have hconfined := isConfined_perform hx
    rw [Step.scopesAfter_of_not_isScope hx]
    refine ⟨?_, ?_, ?_⟩
    · rw [Session.step, hconfined.context, h.ambient]
    · rw [Session.step, hconfined.context, hconfined.replaced, h.overrides]
    · rw [Session.step, hconfined.context, h.active]
  | true =>
    cases x with
    | enter enabled => exact ⟨h.ambient, congrArg (some enabled :: ·) h.overrides, h.active⟩
    | leave => exact hleave fun _ => rfl
    | interrupt => exact hleave fun _ => rfl
    | _ => cases hx

theorem after (h : Tracks ambient scopes s) (xs : List Step) :
    Tracks ambient (xs.foldl Step.scopesAfter scopes) (s.after xs) := by
  induction xs generalizing s scopes with
  | nil => exact h
  | cons x xs ih => exact ih (h.step x)

end Tracks

/-- After any steps the proposed parts are enabled as the innermost open scope says, or as the
environment does where no scope is open, and the version in force is the default one. A step that
opens or closes no scope leaves the two variables as they are, whether it gives an answer or fails,
and sets no slot if it fails. What it answers, and what it sets, depends on nothing but its
arguments, the slots it looks at and the flag, whatever has been done before. -/
theorem scopes_restored (ambient : Bool) (xs : List Step) :
    ((start ambient).after xs).enabled = (Step.openScopes xs).headD ambient ∧
      ((start ambient).after xs).context.override? = (Step.openScopes xs).head? ∧
      ((start ambient).after xs).context.active? = none ∧
      ((start ambient).after xs).context.activeVersion =
        Surface.defaultVersion ((start ambient).after xs).enabled ∧
      (∀ (s : Session) (x : Step), x.isScope = false →
        (s.step x).2.context = s.context ∧ ∀ e, (s.step x).1 = .error e → (s.step x).2 = s) ∧
      ∀ (ambient' : Bool) (ys : List Step) (x : Step), x.isScope = false →
        ((start ambient).after xs).enabled = ((start ambient').after ys).enabled →
        ((start ambient).after xs).Alike x.reads ((start ambient').after ys) →
        (((start ambient).after xs).step x).1 = (((start ambient').after ys).step x).1 ∧
          ∃ stored, (((start ambient).after xs).step x).2.slots =
              stored ++ ((start ambient).after xs).slots ∧
            (((start ambient').after ys).step x).2.slots =
              stored ++ ((start ambient').after ys).slots := by
  have htracks := (tracks_start ambient).after xs
  refine ⟨htracks.enabled_eq, htracks.override?_eq, htracks.active, ?_, fun s x hx => ?_,
    fun ambient' ys x hx hflag hslots => ?_⟩
  · rw [Context.activeVersion, htracks.active]
    rfl
  · exact ⟨(isConfined_perform hx).context s, fun _ he => (isConfined_perform hx).state_of_error he⟩
  · obtain ⟨houtcome, stored, hstored, hstored', -⟩ := (isConfined_perform hx).outcome hflag hslots
    exact ⟨houtcome, stored, hstored, hstored'⟩

/-- A refused version and an exception leave the outer scope as it was, and a proposed error is read
there as it is where the environment enables the proposed parts. -/
theorem scopes_restored_interrupted :
    let xs : List Step := [.enter true, .enter false,
      .decode (.named "Position") (.obj []) (some .v3_17) none, .interrupt]
    let x : Step := .decode (.named "ErrorCodes") (.int (-32803)) none none
    ((start false).after xs).enabled = true ∧ x.isScope = false ∧
      ((start false).after xs).enabled = ((start true).after []).enabled ∧
      ((start false).after xs).Alike x.reads ((start true).after []) ∧
      (((start false).after xs).step x).1 = (((start true).after []).step x).1 := by
  intro xs x
  obtain ⟨henabled, -, -, -, -, hanswer⟩ := scopes_restored false xs
  have hslots : ((start false).after xs).Alike x.reads ((start true).after []) := nofun
  exact ⟨henabled, rfl, henabled, hslots, (hanswer true [] x rfl henabled hslots).1⟩

end Session

end Protocol

end LspWire
