import LspWire.Proofs.Uri.Parts

/-!
# Written URIs

A URI whose path is encoded is written with marks between its parts that no part holds, so its text
is split at these marks again. Two things may change where no authority is written. A place that
begins with two slashes is taken for an authority, and under a scheme that comes with an authority
a place that begins with none is given one. `Uri.IsWritten` are the URIs that are written so, and
the lemmas on `parse` say what their texts are split into in each case.
-/

namespace LspWire.Uri

open Text

variable {u : Uri}

/-! ## Written texts -/

/-- The path of a URI with its parameters. -/
def place (u : Uri) : List Char := u.path ++ marked ';' u.params

/-- What comes after the place of a URI. -/
def ending (u : Uri) : List Char := marked '?' u.query ++ marked '#' u.fragment

/-- What comes after the scheme of a URI. -/
def body (u : Uri) : List Char :=
  (if u.showsAuthority u.place then '/' :: '/' :: u.authority ++ absolute u.place else u.place) ++
    u.ending

theorem text_eq (u : Uri) : u.text = schemeText u.scheme ++ u.body := by
  rw [text, body, ending, ← List.append_assoc, ← List.append_assoc]
  rfl

/-- Whether a scheme comes with an authority, so that an empty one is written. -/
def hasAuthority (scheme : List Char) : Bool :=
  !scheme.isEmpty && schemesWithAuthority.contains (String.ofList scheme)

theorem showsAuthority_of_ne {path : List Char} (h : u.authority ≠ []) :
    u.showsAuthority path = true := by
  rw [showsAuthority, List.isEmpty_eq_false_iff.2 h]
  rfl

theorem showsAuthority_of_eq_nil {path : List Char} (h : u.authority = []) :
    u.showsAuthority path = (hasAuthority u.scheme && decide (path.take 2 ≠ ['/', '/'])) := by
  rw [showsAuthority, h]
  rfl

/-- A URI of parts that a text has, with its path encoded. -/
structure IsWritten (u : Uri) : Prop extends u.IsParsed where
  quoted : Percent.encode (Percent.decode u.path) = u.path

theorem IsParsed.requoted (h : u.IsParsed) : u.requoted.IsWritten where
  scheme := h.scheme
  authority := h.authority
  checked := h.checked
  rooted hne := by
    obtain hslash | ⟨hpath, hparams⟩ := h.rooted hne
    · obtain ⟨cs, hcs⟩ := List.head?_eq_some_iff.1 hslash
      refine .inl ?_
      rw [Uri.requoted, hcs, Percent.decode_slash, Percent.encode_slash]
      rfl
    · refine .inr ⟨?_, hparams⟩
      rw [Uri.requoted, hpath]
      rfl
  params := h.params
  noParams := h.noParams
  query := h.query
  kept := h.kept
  quoted := by rw [Uri.requoted, Percent.decode_encode]

/-! ### Characters of written texts -/

theorem lt_toNat_of_isSchemeChar {c : Char} (h : isSchemeChar c = true) : 0x20 < c.toNat := by
  rw [isSchemeChar, Bool.or_eq_true] at h
  obtain h | h := h
  · exact (Percent.bounds_of_isAlphanum h).1
  · have hmarks : ∀ d ∈ "+-.".toList, 0x20 < d.toNat := by simp
    exact hmarks c (List.contains_iff_mem.1 h)

theorem isDropped_eq_false {c : Char} (h : 0x20 < c.toNat) : isDropped c = false := by
  have hne {d : Char} (hd : d.toNat ≤ 0x20) : decide (c = d) = false :=
    decide_eq_false fun heq => by subst heq; omega
  rw [isDropped, hne (by decide), hne (by decide), hne (by decide)]
  rfl

theorem forall_head?_append {p : Char → Prop} {cs ds : List Char} (hcs : ∀ c ∈ cs.head?, p c)
    (hds : ∀ c ∈ ds.head?, p c) : ∀ c ∈ (cs ++ ds).head?, p c := by
  cases cs with
  | nil => exact hds
  | cons d cs => exact hcs

theorem mem_absolute {c : Char} {path : List Char} (h : c ∈ absolute path) :
    c = '/' ∨ c ∈ path := by
  cases path with
  | nil => exact absurd h List.not_mem_nil
  | cons d path =>
    rw [absolute] at h
    split_ifs at h
    · exact .inr h
    · exact List.mem_cons.1 h

theorem forall_head?_ending {p : Char → Prop} (u : Uri) (hquery : p '?') (hfragment : p '#') :
    ∀ c ∈ u.ending.head?, p c :=
  forall_head?_append (fun _ hc => head?_marked hc ▸ hquery) fun _ hc => head?_marked hc ▸ hfragment

/-! ### Places without an authority -/

/-- The URI with a slash before its place, if that begins with none although its scheme comes with
an authority. -/
def grounded (u : Uri) : Uri :=
  if hasAuthority u.scheme && !u.place.isEmpty && u.path.head? ≠ some '/' then
    { u with path := '/' :: u.path }
  else u

theorem head?_place_eq_slash_iff : u.place.head? = some '/' ↔ u.path.head? = some '/' := by
  rw [place]
  cases u.path with
  | nil =>
    refine ⟨fun h => ?_, fun h => by cases h⟩
    have hmark : '/' = ';' := head?_marked (Option.mem_def.2 h)
    cases hmark
  | cons c path => exact Iff.rfl

theorem absolute_of_head? {path : List Char} (h : path.head? = some '/') :
    absolute path = path := by
  obtain ⟨cs, rfl⟩ := List.head?_eq_some_iff.1 h
  rfl

theorem absolute_of_head?_ne {path : List Char} (hne : path ≠ []) (h : path.head? ≠ some '/') :
    absolute path = '/' :: path := by
  cases path with
  | nil => exact absurd rfl hne
  | cons c path =>
    rw [absolute, if_neg]
    exact fun heq => h (congrArg some heq)

/-- What is empty or begins with a slash, as what comes after an authority. -/
def IsRooted (path : List Char) : Prop := path = [] ∨ path.head? = some '/'

theorem isRooted_absolute (path : List Char) : IsRooted (absolute path) := by
  cases path with
  | nil => exact .inl rfl
  | cons c path =>
    rw [absolute]
    split_ifs with hc
    · exact .inr (congrArg some hc)
    · exact .inr rfl

theorem isRooted_dropWhile (path : List Char) : IsRooted (path.dropWhile (· ≠ '/')) :=
  dropWhile_ne_cases '/' path

namespace IsRooted

variable {path : List Char}

theorem absolute_eq (h : IsRooted path) : absolute path = path := by
  obtain rfl | hslash := h
  · rfl
  · exact absolute_of_head? hslash

theorem endsAuthority_append (h : IsRooted path) (u : Uri) : EndsAuthority (path ++ u.ending) := by
  refine forall_head?_append (fun c hc => ?_) (forall_head?_ending u rfl rfl)
  obtain rfl | hslash := h
  · cases hc
  · rw [hslash] at hc
    exact endsAuthority_iff.2 (.inl (Option.mem_some.1 hc).symm)

end IsRooted

theorem take_of_take_append {cs ds : List Char} (hds : ∀ c ∈ ds.head?, c ≠ '/')
    (h : (cs ++ ds).take 2 = ['/', '/']) : cs.take 2 = ['/', '/'] := by
  have hhead {rest : List Char} (hrest : ds = '/' :: rest) : False := hds '/' (hrest ▸ rfl) rfl
  rcases cs with _ | ⟨c, _ | ⟨d, cs⟩⟩
  · rcases ds with _ | ⟨d, ds⟩
    · cases h
    · exact (hhead (congrArg (· :: ds) (List.cons.inj h).1)).elim
  · rcases ds with _ | ⟨d, ds⟩
    · cases h
    · exact (hhead (congrArg (· :: ds) (List.cons.inj (List.cons.inj h).2).1)).elim
  · exact h

theorem place_grounded (h : hasAuthority u.scheme = true) :
    u.grounded.place = absolute u.place := by
  rw [grounded, h, Bool.true_and]
  cases hplace : u.place with
  | nil => exact hplace
  | cons c cs =>
    have hiff := head?_place_eq_slash_iff (u := u)
    by_cases hhead : u.path.head? = some '/'
    · rw [if_neg (by simp [hhead]), hplace, absolute_of_head? (hplace ▸ hiff.2 hhead)]
    · rw [if_pos (by simp [hhead]),
        absolute_of_head?_ne (List.cons_ne_nil c cs) (hplace ▸ fun heq => hhead (hiff.1 heq)),
        ← hplace]
      rfl

/-- What a place is read as that begins with two slashes: its text up to the next slash is the
authority. -/
def hosted (u : Uri) (rest : List Char) : Uri :=
  ofRest u.scheme (rest.takeWhile (· ≠ '/')) (rest.dropWhile (· ≠ '/') ++ u.ending)

theorem quoted_of_slashes {path : List Char}
    (h : Percent.encode (Percent.decode ('/' :: '/' :: path)) = '/' :: '/' :: path) :
    Percent.encode (Percent.decode path) = path := by
  rw [Percent.decode_slash, Percent.decode_slash, Percent.encode_slash, Percent.encode_slash] at h
  exact (List.cons.inj (List.cons.inj h).2).2

/-- Both slashes in front of a place are in front of its path. -/
theorem exists_path_of_place {rest : List Char} (h : u.place = '/' :: '/' :: rest) :
    ∃ path, u.path = '/' :: '/' :: path ∧ rest = path ++ marked ';' u.params := by
  have htake : u.path.take 2 = ['/', '/'] :=
    take_of_take_append (fun c hc => head?_marked hc ▸ by decide)
      ((congrArg (List.take 2) h).trans rfl)
  have hpath := eq_of_take_two htake
  refine ⟨u.path.drop 2, hpath, ?_⟩
  rw [place, hpath] at h
  exact (List.cons.inj (List.cons.inj h).2).2.symm

namespace IsWritten

theorem not_mem_path (h : u.IsWritten) {c : Char} (hplain : Percent.isPlain c = false)
    (hc : c ≠ '%') : c ∉ u.path := by
  rw [← h.quoted]
  exact Percent.not_mem_encode hplain hc _

theorem not_mem_place (h : u.IsWritten) {c : Char} (hplain : Percent.isPlain c = false)
    (hc : c ≠ '%') (hsemicolon : c ≠ ';') (hparams : c ∉ u.params) : c ∉ u.place := by
  rw [place, List.mem_append, not_or]
  exact ⟨h.not_mem_path hplain hc, fun hmem => (mem_marked hmem).elim hsemicolon hparams⟩

theorem isPlain_or_eq_of_mem_path (h : u.IsWritten) :
    ∀ c ∈ u.path, Percent.isPlain c = true ∨ c = '%' := by
  rw [← h.quoted]
  exact fun c hc => Percent.isPlain_or_eq_of_mem_encode hc

theorem lt_toNat_of_mem_path (h : u.IsWritten) {c : Char} (hc : c ∈ u.path) :
    0x20 < c.toNat := by
  obtain hplain | rfl := h.isPlain_or_eq_of_mem_path c hc
  · exact (Percent.bounds_of_isPlain hplain).1
  · decide

theorem forall_head?_body (h : u.IsWritten) : ∀ c ∈ u.body.head?, 0x20 < c.toNat := by
  refine forall_head?_append ?_ (forall_head?_ending u (by decide) (by decide))
  split_ifs
  · intro c hc
    cases hc
    decide
  · refine forall_head?_append (fun c hc => ?_) fun c hc => ?_
    · exact h.lt_toNat_of_mem_path (List.mem_of_mem_head? hc)
    · rw [head?_marked hc]
      decide

theorem isDropped_of_mem_body (h : u.IsWritten) {c : Char} (hc : c ∈ u.body) :
    isDropped c = false := by
  have hmark {mark : Char} {part : List Char} (hmark : isDropped mark = false)
      (hpart : c ∈ part → isDropped c = false) (hc : c ∈ marked mark part) : isDropped c = false :=
    (mem_marked hc).elim (fun heq => heq ▸ hmark) hpart
  have hplace (hc : c ∈ u.place) : isDropped c = false := by
    obtain hc | hc := List.mem_append.1 hc
    · exact isDropped_eq_false (h.lt_toNat_of_mem_path hc)
    · exact hmark rfl (fun hc => h.kept c (.inr (.inl hc))) hc
  obtain hc | hc := List.mem_append.1 hc
  · split_ifs at hc
    · rw [List.mem_append, List.mem_cons, List.mem_cons] at hc
      obtain (rfl | rfl | hc) | hc := hc
      · rfl
      · rfl
      · exact h.kept c (.inl hc)
      · exact (mem_absolute hc).elim (fun heq => heq ▸ rfl) hplace
    · exact hplace hc
  · obtain hc | hc := List.mem_append.1 hc
    · exact hmark rfl (fun hc => h.kept c (.inr (.inr (.inl hc)))) hc
    · exact hmark rfl (fun hc => h.kept c (.inr (.inr (.inr hc)))) hc

theorem kept_text (h : u.IsWritten) : Uri.kept u.text = u.text := by
  have hscheme {c : Char} (hc : c ∈ schemeText u.scheme) : 0x20 < c.toNat := by
    rw [schemeText] at hc
    split_ifs at hc with hempty
    · exact absurd hc List.not_mem_nil
    · obtain hnil | ⟨hscheme, -⟩ := h.scheme
      · exact absurd (List.isEmpty_iff.2 hnil) hempty
      · obtain hc | hc := List.mem_append.1 hc
        · exact lt_toNat_of_isSchemeChar (isSchemeChar_of_isScheme hscheme hc)
        · rw [List.mem_singleton.1 hc]
          decide
  have hhead : ∀ c ∈ u.text.head?, isLeading c = false := by
    rw [text_eq]
    refine forall_head?_append (fun c hc => ?_) fun c hc => ?_
    · exact decide_eq_false (Nat.not_le.2 (hscheme (List.mem_of_mem_head? hc)))
    · exact decide_eq_false (Nat.not_le.2 (h.forall_head?_body c hc))
  have hdrop : u.text.dropWhile isLeading = u.text := by
    cases htext : u.text with
    | nil => rfl
    | cons c cs =>
      rw [htext] at hhead
      rw [List.dropWhile_cons_of_neg (by rw [hhead c rfl]; decide)]
  rw [Uri.kept, hdrop, List.filter_eq_self]
  intro c hc
  rw [text_eq, List.mem_append] at hc
  have hdropped : isDropped c = false :=
    hc.elim (fun hc => isDropped_eq_false (hscheme hc)) h.isDropped_of_mem_body
  rw [hdropped]
  rfl

/-! ### Splitting written texts -/

theorem splitScheme_text (h : u.IsWritten) : splitScheme u.text = (u.scheme, u.body) := by
  rw [text_eq]
  refine splitScheme_schemeText h.scheme fun hscheme hcolon => ?_
  by_cases hshows : u.showsAuthority u.place = true
  · refine ⟨'/', ?_, rfl⟩
    rw [body, if_pos hshows, List.cons_append, List.cons_append]
    exact List.mem_cons_self
  · have hbody : u.body = u.path ++ (marked ';' u.params ++ u.ending) := by
      rw [body, if_neg hshows, place, List.append_assoc]
    have hpath : ':' ∉ u.path := h.not_mem_path rfl (by decide)
    have hmarks : ∀ c ∈ (marked ';' u.params ++ u.ending).head?,
        c ≠ ':' ∧ isSchemeChar c = false :=
      forall_head?_append (fun c hc => head?_marked hc ▸ by decide)
        (forall_head?_ending u (by decide) (by decide))
    have hall : ∀ c ∈ u.path, decide (c ≠ ':') = true := fun c hc =>
      decide_eq_true fun heq => hpath (heq ▸ hc)
    rw [hbody] at hcolon ⊢
    rw [List.takeWhile_append_of_pos hall]
    cases hrest : marked ';' u.params ++ u.ending with
    | nil =>
      rw [hrest, List.append_nil] at hcolon
      exact absurd hcolon hpath
    | cons c rest =>
      rw [hrest] at hmarks
      obtain ⟨hne, hnot⟩ := hmarks c rfl
      have htake : (c :: rest).takeWhile (· ≠ ':') = c :: rest.takeWhile (· ≠ ':') :=
        List.takeWhile_cons_of_pos (decide_eq_true hne)
      refine ⟨c, ?_, hnot⟩
      rw [htake]
      exact List.mem_append_right _ List.mem_cons_self

theorem parse_text (h : u.IsWritten) {authority rest : List Char}
    (hsplit : splitAuthority u.body = (authority, rest)) :
    parse u.text = (checkAuthority authority).map fun _ => ofRest u.scheme authority rest := by
  rw [parse_eq, h.kept_text, h.splitScheme_text, hsplit]

/-- The parts after an authority are read as they are written, also with another path in their
place. -/
theorem ofRest_written (h : u.IsWritten) (authority : List Char) {path : List Char}
    (hpath : ∀ c ∈ path, Percent.isPlain c = true ∨ c = '%') :
    ofRest u.scheme authority (path ++ marked ';' u.params ++ u.ending) =
      { u with authority := authority, path := path } := by
  have hnot {c : Char} (hplain : Percent.isPlain c = false) (hc : c ≠ '%') : c ∉ path := by
    intro hmem
    obtain hmem | hmem := hpath c hmem
    · rw [hplain] at hmem
      cases hmem
    · exact hc hmem
  have hparams {c : Char} (hends : endsAuthority c = true) : c ∉ u.params := fun hmem => by
    rw [h.params c hmem] at hends
    cases hends
  have hplace {c : Char} (hplain : Percent.isPlain c = false) (hc : c ≠ '%') (hne : c ≠ ';')
      (hends : endsAuthority c = true) : c ∉ path ++ marked ';' u.params := fun hmem =>
    (List.mem_append.1 hmem).elim (hnot hplain hc) fun hmem =>
      (mem_marked hmem).elim hne (hparams hends)
  have hfragment : '#' ∉ path ++ marked ';' u.params ++ marked '?' u.query := fun hmem =>
    (List.mem_append.1 hmem).elim (hplace rfl (by decide) (by decide) rfl) fun hmem =>
      (mem_marked hmem).elim (by decide) h.query
  have hparts : placeParts u.scheme (path ++ marked ';' u.params) = (path, u.params) := by
    rw [placeParts]
    split_ifs with hscheme
    · exact splitParams_append_marked (hnot rfl (by decide)) (hparams rfl)
    · rw [h.noParams (Bool.not_eq_true _ ▸ hscheme)]
      exact congrArg (·, []) (List.append_nil path)
  rw [ofRest, ending, ← List.append_assoc, cut_append_marked hfragment,
    cut_append_marked (hplace rfl (by decide) (by decide) rfl), hparts]

theorem isRooted_place (h : u.IsWritten) (hne : u.authority ≠ []) : IsRooted u.place := by
  obtain hslash | ⟨hpath, hparams⟩ := h.rooted hne
  · exact .inr (head?_place_eq_slash_iff.2 hslash)
  · refine .inl ?_
    rw [place, hpath, hparams]
    rfl

/-- A URI with an authority is read as it is written. -/
theorem parse_text_of_authority (h : u.IsWritten) (hne : u.authority ≠ []) :
    parse u.text = .ok u := by
  have hrooted := h.isRooted_place hne
  have hsplit : splitAuthority u.body = (u.authority, u.place ++ u.ending) := by
    rw [body, if_pos (showsAuthority_of_ne hne), hrooted.absolute_eq, List.append_assoc]
    exact splitAuthority_append h.authority (hrooted.endsAuthority_append u)
  rw [h.parse_text hsplit, h.checked, place, h.ofRest_written _ h.isPlain_or_eq_of_mem_path]
  rfl

/-- A URI without an authority is read as it is written, but for a slash before its place, if the
place begins with less than two slashes. -/
theorem parse_text_of_take_ne (h : u.IsWritten) (hauthority : u.authority = [])
    (hplace : u.place.take 2 ≠ ['/', '/']) : parse u.text = .ok u.grounded := by
  have hpath : ∀ c ∈ u.grounded.path, Percent.isPlain c = true ∨ c = '%' := by
    rw [grounded]
    split_ifs
    · exact List.forall_mem_cons.2 ⟨.inl rfl, h.isPlain_or_eq_of_mem_path⟩
    · exact h.isPlain_or_eq_of_mem_path
  have hparams : u.grounded.params = u.params := by
    rw [grounded]
    split_ifs <;> rfl
  have hground : u.grounded.path ++ marked ';' u.params = u.grounded.place := by rw [place, hparams]
  have hsplit : splitAuthority u.body = ([], u.grounded.place ++ u.ending) := by
    rw [body, showsAuthority_of_eq_nil hauthority, decide_eq_true hplace, Bool.and_true]
    cases hscheme : hasAuthority u.scheme with
    | true =>
      rw [if_pos rfl, ← place_grounded hscheme, hauthority]
      change splitAuthority ('/' :: '/' :: ([] ++ u.grounded.place) ++ u.ending) = _
      refine splitAuthority_append (fun c hc => absurd hc List.not_mem_nil) ?_
      rw [place_grounded hscheme]
      exact (isRooted_absolute u.place).endsAuthority_append u
    | false =>
      have hu : u.grounded = u := by
        rw [grounded, hscheme, Bool.false_and, Bool.false_and, if_neg (by decide)]
      rw [if_neg (by decide), hu]
      exact splitAuthority_of_take_ne fun htake =>
        hplace (take_of_take_append (forall_head?_ending u (by decide) (by decide)) htake)
  have hu : { u with authority := [], path := u.grounded.path } = u.grounded := by
    rw [← hauthority, grounded]
    split_ifs <;> rfl
  rw [h.parse_text hsplit, ← hground, h.ofRest_written [] hpath, hu]
  rfl

/-- A place that begins with two slashes is taken for an authority with a place. -/
theorem parse_text_of_slashes (h : u.IsWritten) (hauthority : u.authority = [])
    {rest : List Char} (hplace : u.place = '/' :: '/' :: rest) :
    parse u.text = (checkAuthority (rest.takeWhile (· ≠ '/'))).map fun _ => u.hosted rest := by
  refine h.parse_text ?_
  have hshows : ¬u.showsAuthority u.place = true := by
    rw [showsAuthority_of_eq_nil hauthority, hplace]
    simp
  have hmem {c : Char} (hc : c ∈ rest.takeWhile (· ≠ '/')) : c ∈ u.place := by
    rw [hplace]
    exact List.mem_cons_of_mem _ (List.mem_cons_of_mem _ ((List.takeWhile_prefix _).subset hc))
  have hauthority : ∀ c ∈ rest.takeWhile (· ≠ '/'), endsAuthority c = false := by
    intro c hc
    have hnot {mark : Char} (hplain : Percent.isPlain mark = false) (hpercent : mark ≠ '%')
        (hsemicolon : mark ≠ ';') (hends : endsAuthority mark = true) : c ≠ mark := by
      rintro rfl
      refine h.not_mem_place hplain hpercent hsemicolon (fun hparams => ?_) (hmem hc)
      rw [h.params c hparams] at hends
      cases hends
    rw [← Bool.not_eq_true, endsAuthority_iff]
    rintro (rfl | rfl | rfl)
    · have hne : decide ('/' ≠ '/') = true := List.mem_takeWhile_imp (p := (· ≠ '/')) hc
      exact of_decide_eq_true hne rfl
    · exact hnot rfl (by decide) (by decide) rfl rfl
    · exact hnot rfl (by decide) (by decide) rfl rfl
  have hbody : u.body = '/' :: '/' :: (rest.takeWhile (· ≠ '/') ++
      (rest.dropWhile (· ≠ '/') ++ u.ending)) := by
    rw [body, if_neg hshows, hplace, ← List.append_assoc, List.takeWhile_append_dropWhile]
    rfl
  rw [hbody]
  exact splitAuthority_append hauthority ((isRooted_dropWhile rest).endsAuthority_append u)

theorem withoutParams (h : u.IsWritten) : { u with params := [] }.IsWritten where
  scheme := h.scheme
  authority := h.authority
  checked := h.checked
  rooted hne := (h.rooted hne).imp id fun ⟨hpath, _⟩ => ⟨hpath, rfl⟩
  params _ hc := absurd hc List.not_mem_nil
  noParams _ := rfl
  query := h.query
  kept c hc := h.kept c (hc.imp id (Or.imp (fun hc => absurd hc List.not_mem_nil) id))
  quoted := h.quoted

theorem exists_hosted_eq (h : u.IsWritten) {rest : List Char}
    (hplace : u.place = '/' :: '/' :: rest) :
    ∃ path params,
      u.hosted rest =
        { u with authority := rest.takeWhile (· ≠ '/'), path := path, params := params } ∧
      path ++ marked ';' params = rest.dropWhile (· ≠ '/') ∧
      Percent.encode (Percent.decode path) = path ∧ (u.params = [] → params = []) := by
  obtain ⟨path, hpath, rfl⟩ := exists_path_of_place hplace
  have hquoted : Percent.encode (Percent.decode path) = path :=
    quoted_of_slashes (hpath ▸ h.quoted)
  by_cases hslash : path.dropWhile (· ≠ '/') = []
  · have hmarked : (marked ';' u.params).dropWhile (· ≠ '/') = [] := by
      refine List.dropWhile_eq_nil_iff.2 fun c hc => decide_eq_true ?_
      rintro rfl
      obtain hc | hc := mem_marked hc
      · cases hc
      · cases h.params _ hc
    have hdrop : (path ++ marked ';' u.params).dropWhile (· ≠ '/') = [] := by
      rw [List.dropWhile_append, hslash, hmarked]
      rfl
    refine ⟨[], [], ?_, hdrop.symm, rfl, fun _ => rfl⟩
    rw [hosted, hdrop]
    exact h.withoutParams.ofRest_written _ fun c hc => absurd hc List.not_mem_nil
  · have hdrop : (path ++ marked ';' u.params).dropWhile (· ≠ '/') =
        path.dropWhile (· ≠ '/') ++ marked ';' u.params := by
      rw [List.dropWhile_append, if_neg (by simpa using hslash)]
    refine ⟨path.dropWhile (· ≠ '/'), u.params, ?_, hdrop.symm, ?_, id⟩
    · rw [hosted, hdrop]
      refine h.ofRest_written _ fun c hc => h.isPlain_or_eq_of_mem_path c ?_
      rw [hpath]
      exact List.mem_cons_of_mem _ (List.mem_cons_of_mem _ ((List.dropWhile_suffix _).subset hc))
    · rw [← hquoted, Percent.dropWhile_encode, Percent.decode_encode]

theorem place_hosted (h : u.IsWritten) {rest : List Char} (hplace : u.place = '/' :: '/' :: rest) :
    (u.hosted rest).place = rest.dropWhile (· ≠ '/') := by
  obtain ⟨path, params, hhosted, hdrop, -, -⟩ := h.exists_hosted_eq hplace
  rw [hhosted, ← hdrop]
  rfl

end IsWritten

end LspWire.Uri
