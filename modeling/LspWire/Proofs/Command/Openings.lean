import LspWire.Proofs.Command.Scanning

/-!
# Files that are opened while words are read

Every option for the output of `decode` opens a file where it stands, and the last one decides where
the output goes. `destinations` lists from the words alone where the options send the output.
`isOpened_ofWords` says that the files among these destinations are empty once the words are read,
that every other file is as it was, and that the output goes to the last destination.
-/

namespace LspWire.Command

/-! ## Names of files -/

namespace FileSystem

variable {fs other : FileSystem} {name path : String}

/-- File systems that differ in their files at most, so that names lead to the same paths. -/
structure SameNames (other fs : FileSystem) : Prop where
  folders : other.folders = fs.folders
  places : other.places = fs.places
  links : other.links = fs.links

theorem SameNames.refl (fs : FileSystem) : SameNames fs fs := ⟨rfl, rfl, rfl⟩

theorem SameNames.put (h : SameNames other fs) (path text : String) :
    SameNames (other.put path text) fs := ⟨h.folders, h.places, h.links⟩

theorem SameNames.place_eq (h : SameNames other fs) (f : Folder) : other.place f = fs.place f := by
  rw [place, h.places, place]

theorem SameNames.filePath_eq (h : SameNames other fs) (f : Folder) (segment : String) :
    other.filePath f segment = fs.filePath f segment := by
  rw [filePath, h.links, filePath]

theorem SameNames.walk_eq_ok_iff (h : SameNames other fs) {f : Folder} {segments : List String}
    {target : Target} : other.walk f segments = .ok target ↔ fs.walk f segments = .ok target := by
  induction segments generalizing f with
  | nil => rfl
  | cons segment rest ih =>
    rw [walk, walk, h.folders, h.place_eq, h.place_eq]
    split_ifs
    · exact ih
    · exact ih
    · exact ih
    · rfl
    · exact iff_of_false nofun nofun

theorem SameNames.find_eq_ok_iff (h : SameNames other fs) {target : Target} :
    other.find name = .ok target ↔ fs.find name = .ok target := by
  rw [find, find, h.place_eq]
  split_ifs
  · exact iff_of_false nofun nofun
  · exact iff_of_false nofun nofun
  · exact h.walk_eq_ok_iff

/-- A file that is made is empty, and a name leads to it wherever names lead to the same paths. -/
theorem SameNames.create (h : SameNames other fs) {after : FileSystem}
    (hcreate : other.create name = .ok (path, after)) :
    after = other.put path "" ∧ fs.create name = .ok (path, fs.put path "") := by
  rw [FileSystem.create] at hcreate ⊢
  cases hfind : other.find name with
  | error e =>
    rw [hfind] at hcreate
    cases hcreate
  | ok target =>
    rw [h.find_eq_ok_iff.1 hfind]
    rw [hfind] at hcreate
    cases target with
    | folder => cases hcreate
    | file f segment slashed =>
      change (if slashed = true then _ else if isTooLong segment = true then _ else _) = _
        at hcreate
      change _ ∧ (if slashed = true then _ else if isTooLong segment = true then _ else _) = _
      split_ifs at hcreate ⊢
      cases hcreate
      rw [h.filePath_eq]
      exact ⟨rfl, rfl⟩

end FileSystem

/-- Where an option for the output sends it. -/
def destination (fs : FileSystem) : Option String → Destination
  | none => .missing
  | some name =>
    match fileName? name with
    | none => .standard
    | some file =>
      match fs.create file with
      | .ok (path, _) => .file path
      | .error _ => .missing

/-- Where options send the output, in order. -/
def destinationsOf (fs : FileSystem) (options : List (Spec DecodeOption × Option String)) :
    List Destination :=
  (options.filter (·.1.meaning = .output)).map fun option => destination fs option.2

variable {fs fs' : FileSystem} {draft draft' : DecodeDraft} {name : String}

theorem run_openOutput (h : (openOutput name).run (draft, fs) = .ok () (draft', fs')) :
    (fileName? name = none ∧ draft' = { draft with output := .standard } ∧ fs' = fs) ∨
      ∃ file path, fileName? name = some file ∧ fs.create file = .ok (path, fs') ∧
        draft' = { draft with output := .file path } := by
  rw [openOutput, EStateM.run_bind, EStateM.run_get] at h
  dsimp only at h
  cases hfile : fileName? name with
  | none =>
    rw [hfile] at h
    cases h
    exact .inl ⟨rfl, rfl, rfl⟩
  | some file =>
    rw [hfile] at h
    dsimp only at h
    obtain ⟨⟨⟩, st, hcheck, hrest⟩ := run_bind_eq_ok_iff.1 h
    rw [checkName] at hcheck
    split_ifs at hcheck
    · cases hcheck
    · cases hcheck
      cases hcreate : fs.create file with
      | error e =>
        rw [hcreate] at hrest
        cases hrest
      | ok made =>
        obtain ⟨path, fs₁⟩ := made
        rw [hcreate] at hrest
        cases hrest
        exact .inr ⟨file, path, rfl, hcreate, rfl⟩

/-- The state after the options so far have taken effect. -/
structure IsOpened (fs : FileSystem) (options : List (Spec DecodeOption × Option String))
    (st : DecodeDraft × FileSystem) : Prop where
  names : st.2.SameNames fs
  output : st.1.output = (destinationsOf fs options).getLastD .standard
  text : ∀ path, st.2.text? path =
    if .file path ∈ destinationsOf fs options then some "" else fs.text? path

namespace IsOpened

variable {options : List (Spec DecodeOption × Option String)} {s : Spec DecodeOption}
  {value? : Option String}

theorem destinationsOf_append_output (hs : s.meaning = .output) :
    destinationsOf fs (options ++ [(s, value?)]) =
      destinationsOf fs options ++ [destination fs value?] := by
  rw [destinationsOf, List.filter_append, List.map_append, List.filter_cons_of_pos (by simp [hs])]
  rfl

theorem destinationsOf_append_of_ne (hs : s.meaning ≠ .output) :
    destinationsOf fs (options ++ [(s, value?)]) = destinationsOf fs options := by
  rw [destinationsOf, List.filter_append, List.map_append, List.filter_cons_of_neg (by simp [hs])]
  exact List.append_nil _

theorem of_eq {st st' : DecodeDraft × FileSystem} (h : IsOpened fs options st)
    (hdir : st'.2 = st.2) (houtput : st'.1.output = st.1.output) : IsOpened fs options st' where
  names := hdir ▸ h.names
  output := houtput.trans h.output
  text := hdir ▸ h.text

theorem of_output {st st' : DecodeDraft × FileSystem} (h : IsOpened fs options st)
    (hs : s.meaning = .output) (hnames : st'.2.SameNames fs)
    (houtput : st'.1.output = destination fs value?)
    (htext : ∀ path, st'.2.text? path =
      if .file path = destination fs value? then some "" else st.2.text? path) :
    IsOpened fs (options ++ [(s, value?)]) st' where
  names := hnames
  output := by rw [destinationsOf_append_output hs, List.getLastD_concat, houtput]
  text path := by
    rw [destinationsOf_append_output hs, htext, h.text]
    by_cases hlast : .file path = destination fs value?
    · rw [if_pos hlast, if_pos (List.mem_append_right _ (List.mem_singleton.2 hlast))]
    · simp only [List.mem_append, List.mem_singleton, hlast, or_false, if_false]

theorem of_openOutput {st st' : DecodeDraft × FileSystem} (h : IsOpened fs options st)
    (hs : s.meaning = .output) (hrun : (openOutput name).run st = .ok () st') :
    IsOpened fs (options ++ [(s, some name)]) st' := by
  obtain ⟨hname, hdraft, hdir⟩ | ⟨file, path, hname, hcreate, hdraft⟩ := run_openOutput hrun
  · have hdestination : destination fs (some name) = .standard := by
      rw [destination, hname]
    refine h.of_output hs (hdir ▸ h.names) ?_ fun path => ?_
    · rw [hdraft, hdestination]
    · rw [hdestination, hdir, if_neg (by simp)]
  · obtain ⟨hafter, hmade⟩ := h.names.create hcreate
    have hdestination : destination fs (some name) = .file path := by
      rw [destination, hname]
      dsimp only
      rw [hmade]
    refine h.of_output hs (hafter ▸ h.names.put path "") ?_ fun other => ?_
    · rw [hdraft, hdestination]
    · rw [hdestination, hafter]
      by_cases hother : other = path
      · rw [hother, FileSystem.text?_put_self, if_pos rfl]
      · rw [FileSystem.text?_put_of_ne _ _ hother, if_neg (by simpa using hother)]

theorem apply {st st' : DecodeDraft × FileSystem} (h : IsOpened fs options st)
    (hrun : (decodeGrammar.apply s value?).run st = .ok () st') :
    IsOpened fs (options ++ [(s, value?)]) st' := by
  have hkept (hs : s.meaning ≠ .output) (hdir : st'.2 = st.2)
      (houtput : st'.1.output = st.1.output) : IsOpened fs (options ++ [(s, value?)]) st' := by
    have hsame := h.of_eq hdir houtput
    have hdestinations :
        destinationsOf fs (options ++ [(s, value?)]) = destinationsOf fs options :=
      destinationsOf_append_of_ne hs
    exact ⟨hsame.names, hdestinations ▸ hsame.output, hdestinations ▸ hsame.text⟩
  simp only [decodeGrammar, EStateM.run_bind, EStateM.run_get] at hrun
  split at hrun
  · next name hs => exact h.of_openOutput hs hrun
  · next hs =>
    cases hrun
    refine h.of_output hs h.names rfl fun path => ?_
    rw [destination, if_neg (by simp)]
  · next text hs =>
    split at hrun
    · cases hrun
      exact hkept (by simp [hs]) rfl rfl
    · cases hrun
  · next hs =>
    cases hrun
    exact hkept (by simp [hs]) rfl rfl
  · cases hrun

end IsOpened

/-! ## Plain words -/

theorem run_openSource {name : String} {st st' : DecodeDraft × FileSystem}
    (h : (openSource name).run st = .ok () st') : st'.2 = st.2 ∧ st'.1.output = st.1.output := by
  rw [openSource, EStateM.run_bind, EStateM.run_get] at h
  dsimp only at h
  split at h
  · cases h
    exact ⟨rfl, rfl⟩
  · obtain ⟨⟨⟩, st₁, hcheck, hread⟩ := run_bind_eq_ok_iff.1 h
    rw [checkName] at hcheck
    split_ifs at hcheck
    · cases hcheck
    · cases hcheck
      split at hread
      · cases hread
        exact ⟨rfl, rfl⟩
      · cases hread

/-- What plain words do: they leave the files and the output as they are. They are the name of the
type, and the name of a file if that follows, with the separators before and after each. -/
theorem run_decodePlain {words : List (Word DecodeOption)} {n : Nat}
    {st st' : DecodeDraft × FileSystem} (h : (decodePlain words).run st = .ok n st') :
    (st'.2 = st.2 ∧ st'.1.output = st.1.output) ∧
      (n = 0 ∨ ∃ type rest, words.drop (words.takeWhile Word.isSeparator).length = type :: rest ∧
        (n = (words.takeWhile Word.isSeparator).length + 1 +
            (rest.takeWhile Word.isSeparator).length ∨
          ∃ file after, rest.drop (rest.takeWhile Word.isSeparator).length = file :: after ∧
            file.isPlain = true ∧
            n = (words.takeWhile Word.isSeparator).length + 1 +
              (rest.takeWhile Word.isSeparator).length + 1 +
              (after.takeWhile Word.isSeparator).length)) := by
  rw [decodePlain, EStateM.run_bind, EStateM.run_get] at h
  dsimp only at h
  split_ifs at h
  · cases h
    exact ⟨⟨rfl, rfl⟩, .inl rfl⟩
  · split at h
    · cases h
      exact ⟨⟨rfl, rfl⟩, .inl rfl⟩
    · next type rest hwords =>
      rw [EStateM.run_bind, EStateM.run_set] at h
      dsimp only at h
      split at h
      · cases h
        exact ⟨⟨rfl, rfl⟩, .inr ⟨type, rest, hwords, .inl rfl⟩⟩
      · next file after hrest =>
        split_ifs at h with hplain hname
        · obtain ⟨⟨⟩, st₁, hopen, hcount⟩ := run_bind_eq_ok_iff.1 h
          obtain ⟨rfl, rfl⟩ := run_pure_eq_ok_iff.1 hcount
          have hsame := run_openSource hopen
          exact ⟨⟨hsame.1, hsame.2⟩,
            .inr ⟨type, rest, hwords, .inr ⟨file, after, hrest, hplain, rfl⟩⟩⟩
        · cases h
          exact ⟨⟨rfl, rfl⟩,
            .inr ⟨type, rest, hwords, .inr ⟨file, after, hrest, hplain, rfl⟩⟩⟩
        · cases h
          exact ⟨⟨rfl, rfl⟩, .inr ⟨type, rest, hwords, .inl rfl⟩⟩

theorem isBare_of_run_decodePlain {w : Word DecodeOption} {ws : List (Word DecodeOption)} {n : Nat}
    {st st' : DecodeDraft × FileSystem} (hws : IsMarkedOff (w :: ws))
    (h : (decodePlain (w :: ws)).run st = .ok n st') :
    ∀ w' ∈ ws.take (n - 1), w'.isBare = true := by
  have hall (hws : ∀ w' ∈ ws, w'.isBare = true) : ∀ w' ∈ ws.take (n - 1), w'.isBare = true :=
    fun w' hw' => hws w' (List.mem_of_mem_take hw')
  -- Behind a separator all words are plain, so it is left to look at words without one in front.
  by_cases hw : w.isSeparator = true
  · exact hall (hws.isBare_of_isSeparator hw)
  · have hbefore : (w :: ws).takeWhile Word.isSeparator = [] := List.takeWhile_cons_of_neg hw
    obtain ⟨-, rfl | ⟨type, rest, hwords, hn⟩⟩ := run_decodePlain h
    · exact fun w' hw' => absurd hw' List.not_mem_nil
    · rw [hbefore] at hwords hn
      cases hwords
      cases ws with
      | nil => exact hall fun w' hw' => absurd hw' List.not_mem_nil
      | cons v vs =>
        by_cases hv : v.isSeparator = true
        · have hvs := IsMarkedOff.isBare_of_isSeparator (List.pairwise_cons.1 hws).2 hv
          exact hall (List.forall_mem_cons.2 ⟨Word.isBare_of_isSeparator hv, hvs⟩)
        · have hbetween : (v :: vs).takeWhile Word.isSeparator = [] :=
            List.takeWhile_cons_of_neg hv
          rw [hbetween] at hn
          obtain rfl | ⟨file, after, hfile, hplain, hn⟩ := hn
          · exact fun w' hw' => absurd hw' List.not_mem_nil
          · cases hfile
            have htake : vs.take (vs.takeWhile Word.isSeparator).length =
                vs.takeWhile Word.isSeparator :=
              (List.prefix_iff_eq_take.1 (List.takeWhile_prefix _)).symm
            have hcount : n - 1 = (vs.takeWhile Word.isSeparator).length + 1 := by
              rw [List.length_nil] at hn
              omega
            rw [hcount, List.take_succ_cons, htake, List.forall_mem_cons]
            exact ⟨Word.isBare_of_isPlain hplain, fun w' hw' =>
              Word.isBare_of_isSeparator (List.all_eq_true.1 List.all_takeWhile w' hw')⟩

/-! ## Command lines -/

/-- The options that a grammar finds in words. -/
def Grammar.optionsIn {σ α : Type} (g : Grammar σ α) (words : List String) :
    List (Spec α × Option String) :=
  match classify g.options words with
  | .ok ws => given g.options ws
  | .error _ => []

/-- What `decode` opens is what its options name. -/
theorem isOpened_of_run_read {words leftover : List String} {st : DecodeDraft × FileSystem}
    (h : (decodeGrammar.read words).run (⟨none, none, .standard, some 2⟩, fs) =
      .ok leftover st) : IsOpened fs (decodeGrammar.optionsIn words) st := by
  obtain ⟨ws, st₁, hread, hscan⟩ := run_bind_eq_ok_iff.1 h
  obtain ⟨hclassify, rfl⟩ := Grammar.run_orMisuse_eq_ok_iff.1 hread
  have hstart : IsOpened fs [] (⟨none, none, .standard, some 2⟩, fs) :=
    ⟨.refl fs, rfl, fun path => (if_neg List.not_mem_nil).symm⟩
  have hopened := Grammar.scan_induction (g := decodeGrammar)
    (fun done s value? st st' h hrun => h.apply hrun)
    (fun done w ws n st st' _ hws h hrun =>
      ⟨h.of_eq (run_decodePlain hrun).1.1 (run_decodePlain hrun).1.2,
        isBare_of_run_decodePlain hws hrun⟩)
    (isMarkedOff_classify hclassify) hstart hscan
  rw [Grammar.optionsIn, hclassify]
  exact hopened

/-- The words after the first plain word. -/
def afterPlain {α : Type} (specs : List (Spec α)) : List (Word α) → List String
  | [] => []
  | w :: ws =>
    match w.role with
    | .option none => afterPlain specs ws
    | .option (some found) =>
      match optionsOf specs found ws with
      | .ok (_, taken) => afterPlain specs (ws.drop taken)
      | .error _ => []
    | _ => ws.map (·.text)
termination_by ws => ws.length
decreasing_by all_goals (simp only [List.length_cons, List.length_drop]; omega)

theorem afterPlain_cons_of_isBare {α : Type} {specs : List (Spec α)} {w : Word α}
    (h : w.isBare = true) (ws : List (Word α)) : afterPlain specs (w :: ws) = ws.map (·.text) := by
  rw [afterPlain]
  rw [Word.isBare, Word.isPlain, Word.isSeparator] at h
  rcases hrole : w.role with _ | _ | found?
  · rfl
  · rfl
  · rw [hrole] at h
    cases h

/-- The words of a command line that its command reads. -/
def commandWords (words : List String) : List String :=
  match classify mainGrammar.options words with
  | .ok ws => afterPlain mainGrammar.options ws
  | .error _ => []

/-- Where the options of `decode` send the output, in order. -/
def destinations (fs : FileSystem) (words : List String) : List Destination :=
  destinationsOf fs (decodeGrammar.optionsIn (commandWords words))

theorem run_readCommand {σ α : Type} {g : Grammar σ α} {start : σ}
    {finish : σ → Except UsageFault Request} {words : List String} {st st' : MainDraft × FileSystem}
    (h : (readCommand g start finish words).run st = .ok () st') :
    ∃ leftover own request, (g.read words).run (start, st.2) = .ok leftover (own, st'.2) ∧
      finish own = .ok request ∧ st'.1.request? = some request := by
  rw [readCommand, EStateM.run_bind, EStateM.run_get] at h
  dsimp only at h
  split at h
  · obtain ⟨⟨⟩, st₁, -, hthrow⟩ := run_bind_eq_ok_iff.1 h
    cases hthrow
  · next leftover own after hread =>
    obtain ⟨⟨⟩, st₁, hset, hfinish⟩ := run_bind_eq_ok_iff.1 h
    cases hset
    split at hfinish
    · cases hfinish
    · next request hrequest =>
      cases hfinish
      exact ⟨leftover, own, request, hread, hrequest, rfl⟩

theorem run_main_apply {s : Spec MainOption} {value? : Option String}
    {st st' : MainDraft × FileSystem} (h : (mainGrammar.apply s value?).run st = .ok () st') :
    st'.2 = st.2 ∧ st'.1.request? = st.1.request? := by
  simp only [mainGrammar, EStateM.run_bind, EStateM.run_get] at h
  split at h
  · split at h
    · cases h
      exact ⟨rfl, rfl⟩
    · cases h
  · cases h
    exact ⟨rfl, rfl⟩
  · cases h
    exact ⟨rfl, rfl⟩
  · cases h
    exact ⟨rfl, rfl⟩
  · cases h
  · cases h

/-- The first plain word has to be the name of a command, which reads all words after it. -/
theorem run_mainPlain {w : Word MainOption} {ws : List (Word MainOption)} {n : Nat}
    {st st' : MainDraft × FileSystem} (h : (mainPlain (w :: ws)).run st = .ok n st') :
    (ws = [] ∧ st' = st) ∨ n = ws.length + 1 ∧ ∀ d, st'.1.request? = some (.decode d) →
      ∃ leftover own, (decodeGrammar.read (ws.map (·.text))).run
          (⟨none, none, .standard, some 2⟩, st.2) = .ok leftover (own, st'.2) ∧
        own.output = d.output := by
  rw [mainPlain] at h
  dsimp only at h
  split_ifs at h with hlone
  · cases h
    rw [Bool.and_eq_true] at hlone
    exact .inl ⟨List.isEmpty_iff.1 hlone.2, rfl⟩
  · refine .inr ?_
    split at h
    · obtain ⟨⟨⟩, st₁, hcommand, hcount⟩ := run_bind_eq_ok_iff.1 h
      cases hcount
      obtain ⟨leftover, own, request, hread, hfinish, hrequest⟩ := run_readCommand hcommand
      refine ⟨rfl, fun d hd => ⟨leftover, own, hread, ?_⟩⟩
      cases hrequest.symm.trans hd
      split at hfinish
      · cases hfinish
        rfl
      · cases hfinish
    · obtain ⟨⟨⟩, st₁, hcommand, hcount⟩ := run_bind_eq_ok_iff.1 h
      cases hcount
      obtain ⟨leftover, own, request, hread, hfinish, hrequest⟩ := run_readCommand hcommand
      cases hfinish
      exact ⟨rfl, fun d hd => by cases hrequest.symm.trans hd⟩
    · obtain ⟨⟨⟩, st₁, hcommand, hcount⟩ := run_bind_eq_ok_iff.1 h
      cases hcount
      obtain ⟨leftover, own, request, hread, hfinish, hrequest⟩ := run_readCommand hcommand
      cases hfinish
      exact ⟨rfl, fun d hd => by cases hrequest.symm.trans hd⟩
    · cases h

theorem run_mainScan {ws : List (Word MainOption)} {leftover : List String}
    {st st' : MainDraft × FileSystem} {d : DecodeRequest} (hnone : st.1.request? = none)
    (hrun : (mainGrammar.scan ws).run st = .ok leftover st')
    (hd : st'.1.request? = some (.decode d)) :
    ∃ others own, (decodeGrammar.read (afterPlain mainGrammar.options ws)).run
        (⟨none, none, .standard, some 2⟩, st.2) = .ok others (own, st'.2) ∧
      own.output = d.output := by
  induction hlength : ws.length using Nat.strongRecOn generalizing ws st leftover with
  | _ length ih =>
    have hnil {leftover : List String} {st : MainDraft × FileSystem}
        (hnone : st.1.request? = none)
        (hrun : (mainGrammar.scan []).run st = .ok leftover st') : False := by
      rw [Grammar.run_scan_nil hrun, hd] at hnone
      cases hnone
    cases ws with
    | nil => exact (hnil hnone hrun).elim
    | cons w ws =>
      have hshort (n : Nat) : (ws.drop n).length < length := by
        rw [← hlength, List.length_drop, List.length_cons]
        omega
      obtain hbare | hrole | ⟨found, hrole⟩ := w.role_cases
      · obtain ⟨n, st₁, others, hplain, hscan⟩ := Grammar.run_scan_bare hbare hrun
        obtain ⟨rfl, rfl⟩ | ⟨rfl, hrequest⟩ := run_mainPlain hplain
        · rw [List.drop_nil] at hscan
          exact (hnil hnone hscan).elim
        · rw [Nat.add_sub_cancel, List.drop_length] at hscan
          rw [Grammar.run_scan_nil hscan] at hrequest
          rw [afterPlain_cons_of_isBare hbare]
          exact hrequest d hd
      · obtain ⟨others, hscan⟩ := Grammar.run_scan_none hrole hrun
        rw [afterPlain, hrole]
        exact ih _ (hshort 0) hnone hscan rfl
      · obtain ⟨options, taken, st₁, hoptions, hall, hscan⟩ :=
          Grammar.run_scan_found hrole hrun
        obtain ⟨hdir, hnone⟩ : st₁.2 = st.2 ∧ st₁.1.request? = none := by
          refine Grammar.applyAll_induction
            (motive := fun _ st₁ => st₁.2 = st.2 ∧ st₁.1.request? = none)
            (fun _ s value? st₂ st₃ hkept hrun => ?_) [] ⟨rfl, hnone⟩ hall
          obtain ⟨hdir, hrequest⟩ := run_main_apply hrun
          exact ⟨hdir.trans hkept.1, hrequest.trans hkept.2⟩
        rw [afterPlain, hrole]
        dsimp only
        rw [hoptions, ← hdir]
        exact ih _ (hshort taken) hnone hscan rfl

/-- Once the words of `decode` are read, the files that its options name are empty and all others
are as they were. The output goes where the last of these options sends it. -/
theorem isOpened_ofWords {words : List String} {s : Settings} {d : DecodeRequest}
    (h : Invocation.ofWords fs words = (.ok ⟨s, .decode d⟩, fs')) :
    fs'.SameNames fs ∧ d.output = (destinations fs words).getLastD .standard ∧
      ∀ path, fs'.text? path =
        if .file path ∈ destinations fs words then some "" else fs.text? path := by
  rw [Invocation.ofWords] at h
  split at h
  · next invocation draft after hmain =>
    cases h
    obtain ⟨leftover, st₁, hread, hrest⟩ := run_bind_eq_ok_iff.1 hmain
    rw [EStateM.run_bind, EStateM.run_get] at hrest
    dsimp only at hrest
    split at hrest
    · cases hrest
    · next request hrequest =>
      split_ifs at hrest
      · cases hrest
        obtain ⟨ws, st₂, htold, hscan⟩ := run_bind_eq_ok_iff.1 hread
        obtain ⟨hclassify, rfl⟩ := Grammar.run_orMisuse_eq_ok_iff.1 htold
        obtain ⟨others, own, hdecode, houtput⟩ := run_mainScan rfl hscan hrequest
        have hopened := isOpened_of_run_read hdecode
        rw [destinations, commandWords, hclassify, ← houtput]
        exact ⟨hopened.names, hopened.output, hopened.text⟩
      · cases hrest
  · cases h

end LspWire.Command
