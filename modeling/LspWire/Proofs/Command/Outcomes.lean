import LspWire.Command.Machine
import LspWire.Proofs.Command.Openings
import LspWire.Proofs.Failures
import LspWire.Proofs.NormalForms
import LspWire.Proofs.Notation.Outline

/-!
# Outcomes of `decode`

A run of `decode` delivers the normal form of its data, or it is refused and delivers nothing. What
its options name is opened before that, while the words are read, so the files for the output are
empty after a run that is refused; all others keep their texts. Runs break off in neither way only
for integers that are too long, for indentations that do not fit, and without a place for the
output.

All of this is so on a machine that admits the source: what is read then nests no deeper than the
machine has room for.
-/

namespace LspWire.Command

open Protocol

variable {width : Nat} {enabled ambient : Bool} {s : Settings} {d : DecodeRequest} {input : String}
  {fs : FileSystem} {version : SpecVersion} {name : TypeName} {x : Json}

/-! ## Refusals -/

theorem decode_cases (enabled : Bool) (version : SpecVersion) (name : TypeName) (x : Json) :
    (∃ v, schema.decode enabled (some version) name.dataType x = .ok v) ∨
      (∃ m, schema.decode enabled (some version) name.dataType x = .error (.mismatch m)) ∨
      ∃ what, schema.decode enabled (some version) name.dataType x =
        .error (.refused (.disabled what)) := by
  have hfloatless : name.dataType.isFloatless = true := by cases name <;> rfl
  by_cases hrefused : some version = some SpecVersion.v3_17 ∧ enabled = false
  · rw [hrefused.1, hrefused.2]
    exact .inr (.inr ⟨_, decode_of_refused _ x⟩)
  · rw [decode_eq_decodeAt hrefused]
    cases hread : schema.decodeAt ⟨(some version).getD (Surface.defaultVersion enabled), enabled⟩
      name.dataType x with
    | ok v => exact .inl ⟨v, rfl⟩
    | error failure =>
      obtain ⟨faults, rfl, -⟩ := exists_mismatch hfloatless hread
      exact .inr (.inl ⟨_, rfl⟩)

theorem normalForm_of_error {e : Error}
    (h : schema.decode enabled (some version) name.dataType x = .error e) :
    normalForm enabled version name.dataType x = .error e := by
  rw [normalForm, h]
  rfl

/-- The version that data is decoded as. -/
def versionOf (enabled : Bool) (s : Settings) : SpecVersion :=
  s.version?.getD (Surface.defaultVersion enabled)

/-- What `decode` refuses: a type that is unknown, a text that is no data, data that does not fit
the type, and a version that is not enabled. -/
inductive IsRefused (enabled : Bool) (s : Settings) (d : DecodeRequest) (source : List Char) : Prop
  | type {u : UnknownName} (h : findType d.type = .error u)
  | text {e : SyntaxError} (h : Json.read source = .error (.malformed e))
  | data {name : TypeName} {x : Json} {m : Mismatch} (htype : findType d.type = .ok name)
    (hread : Json.read source = .ok x)
    (h : schema.decode enabled (some (versionOf enabled s)) name.dataType x =
      .error (.mismatch m))
  | surface {name : TypeName} {x : Json} {what : String} (htype : findType d.type = .ok name)
    (hread : Json.read source = .ok x)
    (h : schema.decode enabled (some (versionOf enabled s)) name.dataType x =
      .error (.refused (.disabled what)))

theorem exists_runDecode_eq_of_error {e : Error} {lines : List String}
    (htype : findType d.type = .ok name)
    (hread : Json.read (sourceText input fs d.source?) = .ok x)
    (hdecode : schema.decode enabled (some (versionOf enabled s)) name.dataType x = .error e)
    (hreport : report? e = some lines) :
    ∃ log, runDecode width enabled s d input fs = ⟨.finished 1, "", log ++ lines, fs⟩ := by
  have hnormal := normalForm_of_error hdecode
  rw [versionOf] at hnormal
  rw [runDecode, htype]
  dsimp only
  rw [hread]
  dsimp only
  rw [hnormal]
  dsimp only
  rw [hreport]
  exact ⟨_, rfl⟩

/-- A run that is refused says why, and does nothing else. -/
theorem IsRefused.exists_runDecode_eq
    (h : IsRefused enabled s d (sourceText input fs d.source?)) :
    ∃ lines, lines ≠ [] ∧ runDecode width enabled s d input fs = ⟨.finished 1, "", lines, fs⟩ := by
  cases h with
  | type htype =>
    rw [runDecode, htype]
    exact ⟨_, List.cons_ne_nil _ _, rfl⟩
  | text hread =>
    rw [runDecode]
    cases findType d.type with
    | error u => exact ⟨_, List.cons_ne_nil _ _, rfl⟩
    | ok name =>
      dsimp only
      rw [hread]
      exact ⟨_, List.cons_ne_nil _ _, rfl⟩
  | data htype hread hdecode =>
    obtain ⟨log, hrun⟩ := exists_runDecode_eq_of_error htype hread hdecode rfl
    exact ⟨_, List.append_ne_nil_of_right_ne_nil _ (List.cons_ne_nil _ _), hrun⟩
  | surface htype hread hdecode =>
    obtain ⟨log, hrun⟩ := exists_runDecode_eq_of_error htype hread hdecode rfl
    exact ⟨_, List.append_ne_nil_of_right_ne_nil _ (List.cons_ne_nil _ _), hrun⟩

/-- A run at the end of its course puts its text where the output goes, if that is a place. -/
theorem Course.runDecode_cases {y : Json} {text : String}
    (h : Course width enabled s d (sourceText input fs d.source?) name x y text) :
    ∃ log,
      (d.output = .standard ∧ runDecode width enabled s d input fs = ⟨.finished 0, text, log, fs⟩) ∨
      (∃ path, d.output = .file path ∧
        runDecode width enabled s d input fs = ⟨.finished 0, "", log, fs.put path text⟩) ∨
      (d.output = .missing ∧
        runDecode width enabled s d input fs = brokenOff log fs .missingOutput) := by
  rw [runDecode, h.type]
  dsimp only
  rw [h.read]
  dsimp only
  rw [h.normal]
  dsimp only
  rw [h.written]
  cases d.output with
  | standard => exact ⟨_, .inl ⟨rfl, rfl⟩⟩
  | file path => exact ⟨_, .inr (.inl ⟨path, rfl, rfl⟩)⟩
  | missing => exact ⟨_, .inr (.inr ⟨rfl, rfl⟩)⟩

theorem blanks_of_normalized {indent? : Option Int} {y : Json} {cause : Breakdown}
    (h : normalized width indent? y = .error cause) : blanks width indent? = .error cause := by
  unfold normalized at h
  split at h
  · cases h
  · cases hblanks : blanks width indent? with
    | error cause' =>
      rw [hblanks] at h
      cases h
      rfl
    | ok n =>
      rw [hblanks] at h
      cases h

/-- What a run may break off for: an integer is too long, the indentation does not fit, or there is
no place for the output. -/
def MayBreakOff (width : Nat) (d : DecodeRequest) (source : List Char) : Prop :=
  (∃ digits, Json.read source = .error (.longInteger digits)) ∨
    (∃ cause, blanks width d.indent? = .error cause) ∨ d.output = .missing

/-- A run is refused, takes its course, or breaks off. -/
theorem runDecode_cases (width : Nat) (enabled : Bool) (s : Settings) (d : DecodeRequest)
    (input : String) (fs : FileSystem) :
    IsRefused enabled s d (sourceText input fs d.source?) ∨
      (∃ name x y text, Course width enabled s d (sourceText input fs d.source?) name x y text) ∨
      MayBreakOff width d (sourceText input fs d.source?) ∧
        ∃ log cause, runDecode width enabled s d input fs = brokenOff log fs cause := by
  cases htype : findType d.type with
  | error u => exact .inl (.type htype)
  | ok name =>
    cases hread : Json.read (sourceText input fs d.source?) with
    | error e =>
      cases e with
      | malformed e => exact .inl (.text hread)
      | longInteger digits =>
        refine .inr (.inr ⟨.inl ⟨digits, hread⟩, [], .longInteger digits, ?_⟩)
        rw [runDecode, htype]
        dsimp only
        rw [hread]
    | ok x =>
      obtain ⟨v, hv⟩ | ⟨m, hm⟩ | ⟨what, hwhat⟩ := decode_cases enabled (versionOf enabled s) name x
      · have hnormal := normalForm_eq_ok_iff.2 ⟨v, hv, rfl⟩
        cases hwritten : normalized width d.indent? (v.wire schema) with
        | ok text => exact .inr (.inl ⟨name, x, _, text, htype, hread, hnormal, hwritten⟩)
        | error cause =>
          refine .inr (.inr ⟨.inr (.inl ⟨cause, blanks_of_normalized hwritten⟩), ?_⟩)
          rw [versionOf] at hnormal
          rw [runDecode, htype]
          dsimp only
          rw [hread]
          dsimp only
          rw [hnormal]
          dsimp only
          rw [hwritten]
          exact ⟨_, _, rfl⟩
      · exact .inl (.data htype hread hm)
      · exact .inl (.surface htype hread hwhat)

/-! ## Deliveries -/

/-- The text of a file once the words are read: it is empty if an option for the output names the
file, and what it was otherwise. -/
def openedText? (fs : FileSystem) (words : List String) (path : String) : Option String :=
  if .file path ∈ destinations fs words then some "" else fs.text? path

/-- A run that prints a text, or puts it into a file, and leaves the other files as they are once
the words are read. -/
def Delivers (fs : FileSystem) (words : List String) (o : Outcome) (text : String) :
    Destination → Prop
  | .standard => o.output = text ∧ ∀ path, o.directory.text? path = openedText? fs words path
  | .file path =>
    o.output = "" ∧ o.directory.text? path = some text ∧
      ∀ other ≠ path, o.directory.text? other = openedText? fs words other
  | .missing => False

theorem runWithin_of_ofWords {words : List String} {fs' : FileSystem}
    (h : Invocation.ofWords fs words = (.ok ⟨s, .decode d⟩, fs')) :
    runWithin width ambient words input fs =
      runDecode width (s.proposed || ambient) s d input fs' := by
  rw [runWithin, h]
  rfl

theorem ending_eq_one_iff :
    (runDecode width enabled s d input fs).ending = .finished 1 ↔
      IsRefused enabled s d (sourceText input fs d.source?) := by
  constructor
  · intro hending
    obtain hrefused | ⟨name, x, y, text, hcourse⟩ | ⟨-, log, cause, hrun⟩ :=
      runDecode_cases width enabled s d input fs
    · exact hrefused
    · obtain ⟨log, ⟨-, hrun⟩ | ⟨path, -, hrun⟩ | ⟨-, hrun⟩⟩ := hcourse.runDecode_cases
      · rw [hrun] at hending
        cases hending
      · rw [hrun] at hending
        cases hending
      · rw [hrun] at hending
        cases hending
    · rw [hrun] at hending
      cases hending
  · intro hrefused
    obtain ⟨lines, -, hrun⟩ := hrefused.exists_runDecode_eq
    rw [hrun]

/-- What a run of `decode` on a machine may come to, for the text of its source: it delivers the
normal form of the data and a line feed where the last option for the output sends it, or it is
refused, says why and delivers nothing, or it breaks off. No name leads to another file after it. -/
structure IsAllOrNothing (m : Machine) (enabled : Bool) (s : Settings) (d : DecodeRequest)
    (fs : FileSystem) (words : List String) (source : List Char) (o : Outcome) : Prop where
  delivered : o.ending = .finished 0 → ∃ name x y text,
    Course m.width enabled s d source name x y text ∧ x.depth ≤ m.levels ∧
    (∃ width? : Option Nat, text = y.write width? ++ "\n") ∧
    Delivers fs words o text ((destinations fs words).getLastD .standard)
  refused_iff : o.ending = .finished 1 ↔ IsRefused enabled s d source
  reported : o.ending = .finished 1 → o.errors ≠ []
  nothing : o.ending ≠ .finished 0 → Delivers fs words o "" .standard
  ended : o.ending = .finished 0 ∨ o.ending = .finished 1 ∨ MayBreakOff m.width d source
  names : o.directory.SameNames fs

namespace IsAllOrNothing

variable {m : Machine} {words : List String} {source : List Char} {o : Outcome}

theorem of_delivers {y : Json} {text : String} (hiff : o.ending = .finished 1 ↔
      IsRefused enabled s d source) (hending : o.ending = .finished 0)
    (hcourse : Course m.width enabled s d source name x y text) (hdepth : x.depth ≤ m.levels)
    (hdelivers : Delivers fs words o text ((destinations fs words).getLastD .standard))
    (hnames : o.directory.SameNames fs) : IsAllOrNothing m enabled s d fs words source o where
  delivered _ :=
    ⟨name, x, y, text, hcourse, hdepth, exists_write_of_normalized hcourse.written, hdelivers⟩
  refused_iff := hiff
  reported hone := by cases hending.symm.trans hone
  nothing hne := absurd hending hne
  ended := .inl hending
  names := hnames

theorem of_refused (hiff : o.ending = .finished 1 ↔ IsRefused enabled s d source)
    (hending : o.ending = .finished 1) (herrors : o.errors ≠ [])
    (hnothing : Delivers fs words o "" .standard) (hnames : o.directory.SameNames fs) :
    IsAllOrNothing m enabled s d fs words source o where
  delivered hzero := by cases hending.symm.trans hzero
  refused_iff := hiff
  reported _ := herrors
  nothing _ := hnothing
  ended := .inr (.inl hending)
  names := hnames

theorem of_broken {cause : Breakdown} (hiff : o.ending = .finished 1 ↔
      IsRefused enabled s d source) (hending : o.ending = .broken cause)
    (hbreak : MayBreakOff m.width d source) (hnothing : Delivers fs words o "" .standard)
    (hnames : o.directory.SameNames fs) : IsAllOrNothing m enabled s d fs words source o where
  delivered hzero := by cases hending.symm.trans hzero
  refused_iff := hiff
  reported hone := by cases hending.symm.trans hone
  nothing _ := hnothing
  ended := .inr (.inr hbreak)
  names := hnames

end IsAllOrNothing

theorem Machine.depth_le_of_admits {m : Machine} {text : List Char}
    (hadmits : m.admits text = true) (h : Json.read text = .ok x) : x.depth ≤ m.levels := by
  rw [admits, Bool.and_eq_true, decide_eq_true_eq] at hadmits
  exact (Json.depth_le_nesting_of_read h).trans hadmits.1

theorem Machine.run?_of_admits {m : Machine} {words : List String} {after : FileSystem}
    (h : Invocation.ofWords fs words = (.ok ⟨s, .decode d⟩, after))
    (hadmits : m.admits (sourceText input after d.source?) = true) :
    m.run? ambient words input fs =
      some (runDecode m.width (s.proposed || ambient) s d input after) := by
  rw [run?, h]
  dsimp only
  rw [if_pos hadmits, runWithin_of_ofWords h]

/-- A run of `decode` is all or nothing but for the files that its options name, which are opened
while the words are read. This is so on every machine that admits the source. -/
theorem isAllOrNothing_run {m : Machine} {words : List String} {after : FileSystem}
    (h : Invocation.ofWords fs words = (.ok ⟨s, .decode d⟩, after))
    (hadmits : m.admits (sourceText input after d.source?) = true) :
    ∃ o, m.run? ambient words input fs = some o ∧
      IsAllOrNothing m (s.proposed || ambient) s d fs words (sourceText input after d.source?) o := by
  obtain ⟨hnames, houtput, htext⟩ := isOpened_ofWords h
  refine ⟨_, Machine.run?_of_admits h hadmits, ?_⟩
  -- The source is read from what the words leave behind: the files for the output are empty there.
  have hiff : (runDecode m.width (s.proposed || ambient) s d input after).ending = .finished 1 ↔
      IsRefused (s.proposed || ambient) s d (sourceText input after d.source?) := ending_eq_one_iff
  obtain hrefused | ⟨name, x, y, text, hcourse⟩ | ⟨hbreak, log, cause, hrun⟩ :=
    runDecode_cases m.width (s.proposed || ambient) s d input after
  · obtain ⟨lines, hlines, hrun⟩ := hrefused.exists_runDecode_eq
    exact .of_refused hiff (hiff.2 hrefused) (hrun ▸ hlines) (hrun ▸ ⟨rfl, htext⟩) (hrun ▸ hnames)
  · have hdepth : x.depth ≤ m.levels := Machine.depth_le_of_admits hadmits hcourse.read
    obtain ⟨log, ⟨hstandard, hrun⟩ | ⟨path, hfile, hrun⟩ | ⟨hmissing, hrun⟩⟩ :=
      hcourse.runDecode_cases
    · refine .of_delivers hiff (by rw [hrun]) hcourse hdepth ?_ (hrun ▸ hnames)
      rw [← houtput, hstandard, hrun]
      exact ⟨rfl, htext⟩
    · refine .of_delivers hiff (by rw [hrun]) hcourse hdepth ?_ (hrun ▸ hnames.put path text)
      rw [← houtput, hfile, hrun]
      refine ⟨rfl, FileSystem.text?_put_self _ _ _, fun other hother => ?_⟩
      exact (FileSystem.text?_put_of_ne _ _ hother).trans (htext other)
    · exact .of_broken hiff (by rw [hrun]; rfl) (.inr (.inr hmissing)) (hrun ▸ ⟨rfl, htext⟩)
        (hrun ▸ hnames)
  · exact .of_broken hiff (by rw [hrun]; rfl) hbreak (hrun ▸ ⟨rfl, htext⟩) (hrun ▸ hnames)

/-- Two files, one of which has another name. -/
def linkedFiles (text : String) : FileSystem :=
  { FileSystem.ofFiles [("out.json", text), ("in.json", "[]")] with
    links := [("link.json", "out.json")] }

theorem isAllOrNothing_run_range :
    Invocation.ofWords (linkedFiles "old") ["decode", "-o", "link.json", "Range", "in.json"] =
      (.ok ⟨⟨none, false, false⟩, .decode ⟨"Range", some "in.json", .file "out.json", some 2⟩⟩,
        linkedFiles "") ∧
    (⟨1, 80⟩ : Machine).admits (sourceText "" (linkedFiles "") (some "in.json")) = true ∧
    ∃ o, (⟨1, 80⟩ : Machine).run? false ["decode", "-o", "link.json", "Range", "in.json"] ""
        (linkedFiles "old") = some o ∧
      IsAllOrNothing ⟨1, 80⟩ false ⟨none, false, false⟩
        ⟨"Range", some "in.json", .file "out.json", some 2⟩ (linkedFiles "old")
        ["decode", "-o", "link.json", "Range", "in.json"]
        (sourceText "" (linkedFiles "") (some "in.json")) o := by
  have hwords : Invocation.ofWords (linkedFiles "old")
      ["decode", "-o", "link.json", "Range", "in.json"] =
      (.ok ⟨⟨none, false, false⟩, .decode ⟨"Range", some "in.json", .file "out.json", some 2⟩⟩,
        linkedFiles "") := by decide +kernel
  have hadmits : (⟨1, 80⟩ : Machine).admits
      (sourceText "" (linkedFiles "") (some "in.json")) = true := by decide +kernel
  exact ⟨hwords, hadmits, isAllOrNothing_run hwords hadmits⟩

/-- A run that is refused has emptied the file for its output. A run that is not refused may break
off for want of an indentation, also with status 1. -/
theorem run_range_empties_output :
    (run false ["decode", "Range", "-o", "out.json"] "\x7b\x7d"
        (.ofFiles [("out.json", "old")])).ending = .finished 1 ∧
      (run false ["decode", "Range", "-o", "out.json"] "\x7b\x7d"
        (.ofFiles [("out.json", "old")])).directory.text? "out.json" = some "" ∧
      (run false ["decode", "Position", "--indent=--"]
        "\x7b\"line\": 1, \"character\": 2\x7d" (.ofFiles [])).ending =
        .broken .missingIndent ∧
      (run false ["decode", "Position", "--indent=--"]
        "\x7b\"line\": 1, \"character\": 2\x7d" (.ofFiles [])).status = 1 := by
  decide +kernel

end LspWire.Command
