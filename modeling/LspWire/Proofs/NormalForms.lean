import LspWire.Command.Run
import LspWire.Proofs.RoundTrip.Notation
import LspWire.Proofs.RoundTrip.Rewritten

/-!
# The normal form of a text

A run of `decode` that succeeds prints the normal form of the data in its text. The printed text is
read as this normal form, which is its own, so the same run on the printed text ends alike and
prints it again.
-/

namespace LspWire.Command

open Protocol

variable {width : Nat} {enabled ambient : Bool} {version : SpecVersion} {name : TypeName} {x y : Json}
  {indent? : Option Int} {text : String}

/-! ## Data -/

theorem isRegular_dataType (name : TypeName) : schema.isRegular name.dataType = true := by
  cases name <;> rfl

theorem normalForm_eq_ok_iff :
    normalForm enabled version name.dataType x = .ok y ↔
      ∃ v, schema.decode enabled (some version) name.dataType x = .ok v ∧
        y = v.wire schema := by
  rw [normalForm, bind_eq_ok_iff]
  refine exists_congr fun v => and_congr_right fun h => ?_
  have hv := hasType_of_decodeAt (isRegular_dataType name) (Schema.decode_eq_ok_iff.1 h).2
  rw [mapError_eq_ok_iff, encode_of_hasType hv, Except.ok.injEq, eq_comm]

/-- A normal form is its own normal form. -/
theorem normalForm_again (h : normalForm enabled version name.dataType x = .ok y) :
    normalForm enabled version name.dataType y = .ok y := by
  obtain ⟨v, hv, rfl⟩ := normalForm_eq_ok_iff.1 h
  have hsettled : isSettled areAligned name.dataType = true := by cases name <;> rfl
  obtain ⟨hdecode, hencode⟩ := decode_encode_again (isRegular_dataType name) hsettled hv
  rw [normalForm, hdecode]
  exact mapError_eq_ok_iff.2 hencode

theorem hasNotation_normalForm (h : normalForm enabled version name.dataType x = .ok y)
    (hx : x.HasNotation) : y.HasNotation := by
  obtain ⟨v, hv, rfl⟩ := normalForm_eq_ok_iff.1 h
  exact keepsNotation _ x name.dataType v (isRegular_dataType name)
    (Schema.decode_eq_ok_iff.1 hv).2 hx

/-! ## Texts -/

theorem exists_write_of_normalized (h : normalized width indent? y = .ok text) :
    ∃ width? : Option Nat, text = y.write width? ++ "\n" := by
  unfold normalized at h
  split at h
  · cases h
    exact ⟨none, rfl⟩
  · obtain ⟨n, -, rfl⟩ := map_eq_ok_iff.1 h
    exact ⟨some n, rfl⟩

/-- The text of normalized data is read as the data. -/
theorem read_normalized (hy : y.HasNotation) (h : normalized width indent? y = .ok text) :
    Json.read text.toList = .ok y := by
  obtain ⟨width?, rfl⟩ := exists_write_of_normalized h
  rw [String.toList_append]
  exact Json.read_write hy width? (List.forall_mem_singleton.2 rfl)

/-! ## Runs -/

variable {s : Settings} {d : DecodeRequest} {source : List Char} {input : String}
  {fs : FileSystem}

/-- What a run of `decode` that succeeds goes through: a type, the data in its source, the normal
form of the data and the text of that. -/
structure Course (width : Nat) (enabled : Bool) (s : Settings) (d : DecodeRequest) (source : List Char)
    (name : TypeName) (x y : Json) (text : String) : Prop where
  type : findType d.type = .ok name
  read : Json.read source = .ok x
  normal : normalForm enabled (s.version?.getD (Surface.defaultVersion enabled)) name.dataType x =
    .ok y
  written : normalized width d.indent? y = .ok text

/-- The text that a run prints takes the same course, from its normal form on. -/
theorem Course.again (h : Course width enabled s d source name x y text) :
    Course width enabled s d text.toList name y y text where
  type := h.type
  read :=
    read_normalized (hasNotation_normalForm h.normal (Json.hasNotation_of_read h.read)) h.written
  normal := normalForm_again h.normal
  written := h.written

theorem Course.runDecode_eq (h : Course width enabled s d (sourceText input fs d.source?) name x y text)
    (houtput : d.output = .standard) :
    runDecode width enabled s d input fs = ⟨.finished 0, text, logLines s.verbose [decodingLine name
      (s.version?.getD (Surface.defaultVersion enabled))], fs⟩ := by
  rw [runDecode, h.type]
  dsimp only
  rw [h.read]
  dsimp only
  rw [h.normal]
  dsimp only
  rw [h.written, houtput]

theorem exists_course (h : (runDecode width enabled s d input fs).ending = .finished 0) :
    ∃ name x y text, Course width enabled s d (sourceText input fs d.source?) name x y text := by
  rw [runDecode] at h
  cases hname : findType d.type with
  | error u =>
    rw [hname] at h
    cases h
  | ok name =>
    rw [hname] at h
    dsimp only at h
    cases hread : Json.read (sourceText input fs d.source?) with
    | error e =>
      rw [hread] at h
      cases e <;> cases h
    | ok x =>
      rw [hread] at h
      dsimp only at h
      cases hnormal : normalForm enabled (s.version?.getD (Surface.defaultVersion enabled))
        name.dataType x with
      | error e =>
        rw [hnormal] at h
        dsimp only at h
        split at h <;> cases h
      | ok y =>
        rw [hnormal] at h
        dsimp only at h
        cases hwritten : normalized width d.indent? y with
        | error cause =>
          rw [hwritten] at h
          cases h
        | ok text => exact ⟨name, x, y, text, hname, hread, hnormal, hwritten⟩

theorem runDecode_again {input' : String} (houtput : d.output = .standard)
    (h : (runDecode width enabled s d input fs).ending = .finished 0)
    (hsource : sourceText input' fs d.source? = (runDecode width enabled s d input fs).output.toList) :
    runDecode width enabled s d input' fs = runDecode width enabled s d input fs := by
  obtain ⟨name, x, y, text, hcourse⟩ := exists_course h
  have hrun := hcourse.runDecode_eq houtput
  rw [hrun] at hsource ⊢
  have hagain := hcourse.again
  rw [← hsource] at hagain
  exact hagain.runDecode_eq houtput

theorem ending_of_status {o : Outcome} (h : o.status = 0) : o.ending = .finished 0 := by
  rw [Outcome.status] at h
  split at h
  · rename_i hending
    rw [hending, h]
  · cases h

/-- The printed form of data is a fixed point: where `decode` succeeds on the standard input, it
does the same on the text that it prints. -/
theorem run_again {words : List String}
    (hwords : (Invocation.ofWords fs words).1 = .ok ⟨s, .decode d⟩) (hsource : d.source? = none)
    (houtput : d.output = .standard) (h : (run ambient words input fs).status = 0) :
    run ambient words (run ambient words input fs).output fs = run ambient words input fs := by
  have hrun (input : String) : run ambient words input fs =
      runDecode ampleWidth (s.proposed || ambient) s d input (Invocation.ofWords fs words).2 := by
    rw [run, runWithin]
    cases hread : Invocation.ofWords fs words with
    | mk invocation fs' =>
      rw [hread] at hwords
      obtain rfl : invocation = _ := hwords
      rfl
  replace h := ending_of_status h
  rw [hrun] at h
  rw [hrun, hrun]
  refine runDecode_again houtput h ?_
  rw [hsource]
  rfl

theorem run_again_messageActionItem :
    (Invocation.ofWords (.ofFiles []) ["--proposed", "decode", "MessageActionItem"]).1 =
        .ok ⟨⟨none, true, false⟩, .decode ⟨"MessageActionItem", none, .standard, some 2⟩⟩ ∧
      (run false ["--proposed", "decode", "MessageActionItem"]
        "\x7b\"title\": \"Show\", \"b\": \x7b\"n\": 1.50\x7d, \"a\": \"\\u00e9\"\x7d"
        (.ofFiles [])).status = 0 ∧
      run false ["--proposed", "decode", "MessageActionItem"]
        (run false ["--proposed", "decode", "MessageActionItem"]
          "\x7b\"title\": \"Show\", \"b\": \x7b\"n\": 1.50\x7d, \"a\": \"\\u00e9\"\x7d"
          (.ofFiles [])).output (.ofFiles []) =
      run false ["--proposed", "decode", "MessageActionItem"]
        "\x7b\"title\": \"Show\", \"b\": \x7b\"n\": 1.50\x7d, \"a\": \"\\u00e9\"\x7d"
        (.ofFiles []) := by
  have hwords : (Invocation.ofWords (.ofFiles []) ["--proposed", "decode", "MessageActionItem"]).1 =
      .ok ⟨⟨none, true, false⟩, .decode ⟨"MessageActionItem", none, .standard, some 2⟩⟩ := by
    decide +kernel
  have hstatus : (run false ["--proposed", "decode", "MessageActionItem"]
      "\x7b\"title\": \"Show\", \"b\": \x7b\"n\": 1.50\x7d, \"a\": \"\\u00e9\"\x7d"
      (.ofFiles [])).status = 0 := by
    decide +kernel
  exact ⟨hwords, hstatus, run_again hwords rfl rfl hstatus⟩

end LspWire.Command
