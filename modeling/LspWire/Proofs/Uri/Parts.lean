import LspWire.Proofs.Uri.Percent
import LspWire.Uri.Path

/-!
# The parts of a written URI

A URI whose path is encoded is written with marks between its parts that no part holds, so its text
is split at these marks again. The lemmas here say what is cut at which mark, and `Uri.IsParsed`
collects what holds of the parts of every text.
-/

namespace LspWire

/-! ## Cutting texts -/

namespace Text

variable {sep : Char} {cs : List Char}

theorem cut_of_not_mem (h : sep ∉ cs) : cut sep cs = (cs, []) := by
  have hall : ∀ c ∈ cs, decide (c ≠ sep) = true := fun c hc =>
    decide_eq_true fun heq => h (heq ▸ hc)
  rw [cut, List.takeWhile_eq_self_iff.2 hall, List.dropWhile_eq_nil_iff.2 hall]
  rfl

theorem cut_append_cons (h : sep ∉ cs) (ds : List Char) : cut sep (cs ++ sep :: ds) = (cs, ds) := by
  have hall : ∀ c ∈ cs, decide (c ≠ sep) = true := fun c hc =>
    decide_eq_true fun heq => h (heq ▸ hc)
  rw [cut, List.takeWhile_append_of_pos hall, List.dropWhile_append_of_pos hall,
    List.takeWhile_cons_of_neg (by simp), List.dropWhile_cons_of_neg (by simp), List.append_nil]
  rfl

theorem not_mem_cut_fst (sep : Char) (cs : List Char) : sep ∉ (cut sep cs).1 := by
  intro h
  have hne : decide (sep ≠ sep) = true := List.mem_takeWhile_imp (p := (· ≠ sep)) h
  exact of_decide_eq_true hne rfl

theorem mem_of_mem_cut_fst {c : Char} (h : c ∈ (cut sep cs).1) : c ∈ cs :=
  (List.takeWhile_prefix _).subset h

theorem mem_of_mem_cut_snd {c : Char} (h : c ∈ (cut sep cs).2) : c ∈ cs :=
  (List.dropWhile_suffix _).subset (List.mem_of_mem_tail h)

theorem head?_cut_fst (h : cs.head? ≠ some sep) : (cut sep cs).1.head? = cs.head? := by
  cases cs with
  | nil => rfl
  | cons c cs =>
    have hc : c ≠ sep := fun heq => h (congrArg some heq)
    have htake : (c :: cs).takeWhile (· ≠ sep) = c :: cs.takeWhile (· ≠ sep) :=
      List.takeWhile_cons_of_pos (decide_eq_true hc)
    rw [cut, htake]
    rfl

theorem dropWhile_ne_cases (sep : Char) (cs : List Char) :
    cs.dropWhile (· ≠ sep) = [] ∨ (cs.dropWhile (· ≠ sep)).head? = some sep := by
  have hnot := List.head?_dropWhile_not (· ≠ sep) cs
  cases hdrop : cs.dropWhile (· ≠ sep) with
  | nil => exact .inl rfl
  | cons c rest =>
    rw [hdrop] at hnot
    exact .inr (congrArg some (by simpa using hnot))

theorem splitAt_cons_self (sep : Char) (cs : List Char) :
    splitAt sep (sep :: cs) = [] :: splitAt sep cs := by
  rw [splitAt]
  cases hpieces : splitAt sep cs with
  | nil => exact absurd hpieces (splitAt_ne_nil sep cs)
  | cons piece pieces => exact if_pos rfl

theorem splitAt_append_cons (sep : Char) (cs ds : List Char) :
    splitAt sep (cs ++ sep :: ds) = splitAt sep cs ++ splitAt sep ds := by
  induction cs with
  | nil => exact splitAt_cons_self sep ds
  | cons c cs ih =>
    rw [List.cons_append, splitAt, ih, splitAt]
    cases hpieces : splitAt sep cs with
    | nil => exact absurd hpieces (splitAt_ne_nil sep cs)
    | cons piece pieces =>
      dsimp only [List.cons_append]
      split_ifs <;> rfl

theorem splitAt_of_not_mem (h : sep ∉ cs) : splitAt sep cs = [cs] := by
  induction cs with
  | nil => rfl
  | cons c cs ih =>
    rw [List.mem_cons, not_or] at h
    rw [splitAt, ih h.2]
    dsimp only
    rw [if_neg (Ne.symm h.1)]

/-- A text has no separator, or a last one. -/
theorem not_mem_or_exists_last (sep : Char) (cs : List Char) :
    sep ∉ cs ∨ ∃ before after, cs = before ++ sep :: after ∧ sep ∉ after := by
  induction cs with
  | nil => exact .inl List.not_mem_nil
  | cons c cs ih =>
    obtain h | ⟨before, after, rfl, hafter⟩ := ih
    · by_cases hc : sep = c
      · exact .inr ⟨[], cs, by rw [hc, List.nil_append], h⟩
      · exact .inl fun hmem => (List.mem_cons.1 hmem).elim hc h
    · exact .inr ⟨c :: before, after, rfl, hafter⟩

end Text

namespace Uri

variable {u : Uri} {text : List Char}

/-! ## Marked parts -/

@[simp] theorem marked_nil (mark : Char) : marked mark [] = [] := rfl

theorem mem_marked {mark c : Char} {part : List Char} (h : c ∈ marked mark part) :
    c = mark ∨ c ∈ part := by
  rw [marked] at h
  split_ifs at h
  · exact absurd h List.not_mem_nil
  · exact List.mem_cons.1 h

theorem cut_append_marked {mark : Char} {cs : List Char} (h : mark ∉ cs) (part : List Char) :
    Text.cut mark (cs ++ marked mark part) = (cs, part) := by
  rw [marked]
  split_ifs with hpart
  · rw [List.append_nil, Text.cut_of_not_mem h, List.isEmpty_iff.1 hpart]
  · exact Text.cut_append_cons h part

theorem head?_marked {mark c : Char} {part : List Char} (h : c ∈ (marked mark part).head?) :
    c = mark := by
  rw [marked] at h
  split_ifs at h
  · cases h
  · exact (Option.mem_some.1 h).symm

/-! ## Parameters -/

theorem splitParams_of_not_mem {path : List Char} (h : '/' ∉ path) :
    splitParams path = Text.cut ';' path := by
  rw [splitParams, Text.splitAt_of_not_mem h]
  dsimp only [List.getLastD]
  rw [List.getLast_singleton, Nat.sub_self]
  rfl

/-- Parameters are cut off the last segment. -/
theorem splitParams_append_cons (before : List Char) {last : List Char} (h : '/' ∉ last) :
    splitParams (before ++ '/' :: last) =
      (before ++ '/' :: (Text.cut ';' last).1, (Text.cut ';' last).2) := by
  have hlength : (before ++ '/' :: last).length - last.length = (before ++ ['/']).length := by
    simp only [List.length_append, List.length_cons, List.length_nil]
    omega
  have hsplit : before ++ '/' :: last = (before ++ ['/']) ++ last := by simp
  rw [splitParams, Text.splitAt_append_cons, Text.splitAt_of_not_mem h, List.getLastD_concat,
    hlength, hsplit, List.take_left, List.append_assoc]
  rfl

theorem splitParams_append_marked {path params : List Char} (hpath : ';' ∉ path)
    (hparams : '/' ∉ params) : splitParams (path ++ marked ';' params) = (path, params) := by
  have hmarked : '/' ∉ marked ';' params := fun h => (mem_marked h).elim (by decide) hparams
  obtain h | ⟨before, last, rfl, hlast⟩ := Text.not_mem_or_exists_last '/' path
  · have happend : '/' ∉ path ++ marked ';' params := fun hmem =>
      (List.mem_append.1 hmem).elim h hmarked
    rw [splitParams_of_not_mem happend, cut_append_marked hpath]
  · have happend : '/' ∉ last ++ marked ';' params := fun hmem =>
      (List.mem_append.1 hmem).elim hlast hmarked
    have hsemicolon : ';' ∉ last := fun hmem => hpath (by simp [hmem])
    rw [List.append_assoc, List.cons_append, splitParams_append_cons before happend,
      cut_append_marked hsemicolon]

/-! ## Schemes -/

theorem isSchemeChar_toLower {c : Char} (h : isSchemeChar c = true) :
    isSchemeChar c.toLower = true := by
  by_cases hupper : c.isUpper = true
  · have halpha : c.toLower.isAlpha = true := by
      rw [Char.isAlpha_toLower_eq_isAlpha, Char.isAlpha, hupper, Bool.true_or]
    rw [isSchemeChar, Char.isAlphanum, halpha]
    rfl
  · rwa [Char.toLower_eq_of_not_isUpper hupper]

theorem isScheme_lowerAscii {cs : List Char} (h : isScheme cs = true) :
    isScheme (Text.lowerAscii cs) = true := by
  cases cs with
  | nil => cases h
  | cons c cs =>
    rw [isScheme, Bool.and_eq_true, List.all_eq_true] at h
    change isScheme (c.toLower :: Text.lowerAscii cs) = true
    rw [isScheme, Bool.and_eq_true, List.all_eq_true, Char.isAlpha_toLower_eq_isAlpha]
    refine ⟨h.1, fun d hd => ?_⟩
    obtain ⟨e, he, rfl⟩ := List.mem_map.1 (show d ∈ (c :: cs).map Char.toLower from hd)
    exact isSchemeChar_toLower (h.2 e he)

theorem lowerAscii_lowerAscii (cs : List Char) :
    Text.lowerAscii (Text.lowerAscii cs) = Text.lowerAscii cs := by
  rw [Text.lowerAscii, Text.lowerAscii, List.map_map]
  exact List.map_congr_left fun c _ => Char.toLower_toLower_eq_toLower c

/-- A scheme as it is kept: none, or one in lower case. -/
def IsKeptScheme (scheme : List Char) : Prop :=
  scheme = [] ∨ isScheme scheme = true ∧ Text.lowerAscii scheme = scheme

theorem isKeptScheme_splitScheme (cs : List Char) : IsKeptScheme (splitScheme cs).1 := by
  rw [splitScheme]
  split_ifs with h
  · rw [Bool.and_eq_true] at h
    exact .inr ⟨isScheme_lowerAscii h.2, lowerAscii_lowerAscii _⟩
  · exact .inl rfl

theorem mem_of_mem_splitScheme {c : Char} {cs : List Char} (h : c ∈ (splitScheme cs).2) :
    c ∈ cs := by
  rw [splitScheme] at h
  split_ifs at h
  · exact Text.mem_of_mem_cut_snd h
  · exact h

theorem isSchemeChar_of_isScheme {c : Char} {scheme : List Char} (h : isScheme scheme = true)
    (hc : c ∈ scheme) : isSchemeChar c = true := by
  cases scheme with
  | nil => cases h
  | cons d scheme =>
    rw [isScheme, Bool.and_eq_true, List.all_eq_true] at h
    exact h.2 c hc

/-- What comes before the place in a text: the scheme with a colon, if there is a scheme. -/
def schemeText (scheme : List Char) : List Char := if scheme.isEmpty then [] else scheme ++ [':']

/-- A text begins with a scheme if it is written with one, and only then: what stands before the
first colon of the body of another text has a character that is in no scheme. -/
theorem splitScheme_schemeText {scheme body : List Char} (h : IsKeptScheme scheme)
    (hbody : scheme = [] → ':' ∈ body → ∃ c ∈ body.takeWhile (· ≠ ':'), isSchemeChar c = false) :
    splitScheme (schemeText scheme ++ body) = (scheme, body) := by
  obtain rfl | ⟨hscheme, hlower⟩ := h
  · change splitScheme body = ([], body)
    rw [splitScheme, if_neg]
    rw [Bool.and_eq_true, List.contains_iff_mem]
    rintro ⟨hcolon, hscheme⟩
    obtain ⟨c, hc, hnot⟩ := hbody rfl hcolon
    rw [isSchemeChar_of_isScheme hscheme hc] at hnot
    cases hnot
  · have hcolon : ':' ∉ scheme := fun hmem => by
      cases isSchemeChar_of_isScheme hscheme hmem
    have hne : scheme.isEmpty = false := by
      cases scheme with
      | nil => cases hscheme
      | cons c scheme => rfl
    have hcut : Text.cut ':' (scheme ++ ':' :: body) = (scheme, body) :=
      Text.cut_append_cons hcolon body
    have htake : (scheme ++ ':' :: body).takeWhile (· ≠ ':') = scheme := congrArg Prod.fst hcut
    rw [schemeText, hne, if_neg (by decide), List.append_assoc, List.singleton_append, splitScheme,
      htake, hscheme, hlower, hcut, if_pos (by simp)]

/-! ## Authorities -/

/-- What may follow an authority: nothing, or a text that begins with a mark that ends it. -/
def EndsAuthority (rest : List Char) : Prop := ∀ c ∈ rest.head?, endsAuthority c = true

theorem splitAuthority_append {authority rest : List Char}
    (h : ∀ c ∈ authority, endsAuthority c = false) (hrest : EndsAuthority rest) :
    splitAuthority ('/' :: '/' :: (authority ++ rest)) = (authority, rest) := by
  have hall : ∀ c ∈ authority, (!endsAuthority c) = true := fun c hc => by rw [h c hc]; rfl
  rw [splitAuthority, List.takeWhile_append_of_pos hall, List.dropWhile_append_of_pos hall]
  cases rest with
  | nil => simp
  | cons c rest =>
    have hc : ¬(!endsAuthority c) = true := by simp [hrest c rfl]
    have htake : (c :: rest).takeWhile (!endsAuthority ·) = [] := List.takeWhile_cons_of_neg hc
    have hdrop : (c :: rest).dropWhile (!endsAuthority ·) = c :: rest :=
      List.dropWhile_cons_of_neg hc
    rw [htake, hdrop, List.append_nil]

theorem splitAuthority_of_take_ne {cs : List Char} (h : cs.take 2 ≠ ['/', '/']) :
    splitAuthority cs = ([], cs) := by
  rw [splitAuthority]
  rintro ds rfl
  exact h rfl

theorem eq_of_take_two {cs : List Char} (h : cs.take 2 = ['/', '/']) :
    cs = '/' :: '/' :: cs.drop 2 := by
  conv_lhs => rw [← List.take_append_drop 2 cs, h]
  rfl

theorem splitAuthority_cases (cs : List Char) :
    (splitAuthority cs = ([], cs)) ∨ ∃ ds, cs = '/' :: '/' :: ds ∧
      splitAuthority cs = (ds.takeWhile (!endsAuthority ·), ds.dropWhile (!endsAuthority ·)) := by
  by_cases h : cs.take 2 = ['/', '/']
  · refine .inr ⟨cs.drop 2, eq_of_take_two h, ?_⟩
    conv_lhs => rw [eq_of_take_two h]
    rfl
  · exact .inl (splitAuthority_of_take_ne h)

theorem endsAuthority_of_mem_splitAuthority {c : Char} {cs : List Char}
    (h : c ∈ (splitAuthority cs).1) : endsAuthority c = false := by
  obtain heq | ⟨ds, -, heq⟩ := splitAuthority_cases cs
  · rw [heq] at h
    exact absurd h List.not_mem_nil
  · rw [heq] at h
    simpa using List.mem_takeWhile_imp h

theorem mem_of_mem_splitAuthority {c : Char} {cs : List Char}
    (h : c ∈ (splitAuthority cs).1 ∨ c ∈ (splitAuthority cs).2) : c ∈ cs := by
  obtain heq | ⟨ds, rfl, heq⟩ := splitAuthority_cases cs
  · rw [heq] at h
    exact h.elim (fun h => absurd h List.not_mem_nil) id
  · rw [heq] at h
    refine List.mem_cons_of_mem _ (List.mem_cons_of_mem _ ?_)
    exact h.elim ((List.takeWhile_prefix _).subset ·) ((List.dropWhile_suffix _).subset ·)

theorem endsAuthority_splitAuthority {cs : List Char} (h : (splitAuthority cs).1 ≠ []) :
    EndsAuthority (splitAuthority cs).2 := by
  obtain heq | ⟨ds, -, heq⟩ := splitAuthority_cases cs
  · rw [heq] at h
    exact absurd rfl h
  · rw [heq]
    intro c hc
    have hnot := List.head?_dropWhile_not (!endsAuthority ·) ds
    rw [Option.mem_def.1 hc] at hnot
    simpa using hnot

/-! ## What comes after the authority -/

/-- The path and the parameters of a place, for a scheme. -/
def placeParts (scheme place : List Char) : List Char × List Char :=
  if schemesWithParams.contains (String.ofList scheme) then splitParams place else (place, [])

/-- The parts of a URI after its scheme and its authority. -/
def ofRest (scheme authority rest : List Char) : Uri :=
  let located := (Text.cut '#' rest).1
  let parts := placeParts scheme (Text.cut '?' located).1
  ⟨scheme, authority, parts.1, parts.2, (Text.cut '?' located).2, (Text.cut '#' rest).2⟩

/-- The characters of a text that are not left out. -/
def kept (text : List Char) : List Char :=
  (text.dropWhile isLeading).filter fun c => !isDropped c

theorem parse_eq (text : List Char) :
    parse text =
      (checkAuthority (splitAuthority (splitScheme (kept text)).2).1).map fun _ =>
        ofRest (splitScheme (kept text)).1 (splitAuthority (splitScheme (kept text)).2).1
          (splitAuthority (splitScheme (kept text)).2).2 := by
  change (checkAuthority (splitAuthority (splitScheme (kept text)).2).1 >>= fun _ =>
    pure (ofRest (splitScheme (kept text)).1 (splitAuthority (splitScheme (kept text)).2).1
      (splitAuthority (splitScheme (kept text)).2).2)) = _
  cases checkAuthority (splitAuthority (splitScheme (kept text)).2).1 <;> rfl

theorem parse_eq_ok_iff :
    parse text = .ok u ↔
      checkAuthority (splitAuthority (splitScheme (kept text)).2).1 = .ok () ∧
        ofRest (splitScheme (kept text)).1 (splitAuthority (splitScheme (kept text)).2).1
          (splitAuthority (splitScheme (kept text)).2).2 = u := by
  rw [parse_eq]
  cases checkAuthority (splitAuthority (splitScheme (kept text)).2).1 <;> simp [Except.map]

/-! ## The parts of every text -/

theorem mem_of_mem_placeParts {c : Char} {scheme place : List Char}
    (h : c ∈ (placeParts scheme place).1 ∨ c ∈ (placeParts scheme place).2) : c ∈ place := by
  rw [placeParts] at h
  split_ifs at h
  · obtain hslash | ⟨before, last, rfl, hlast⟩ := Text.not_mem_or_exists_last '/' place
    · rw [splitParams_of_not_mem hslash] at h
      exact h.elim Text.mem_of_mem_cut_fst Text.mem_of_mem_cut_snd
    · rw [splitParams_append_cons before hlast] at h
      rw [List.mem_append, List.mem_cons] at h ⊢
      obtain (h | rfl | h) | h := h
      · exact .inl h
      · exact .inr (.inl rfl)
      · exact .inr (.inr (Text.mem_of_mem_cut_fst h))
      · exact .inr (.inr (Text.mem_of_mem_cut_snd h))
  · exact h.elim id fun h => absurd h List.not_mem_nil

theorem slash_not_mem_placeParts (scheme place : List Char) :
    '/' ∉ (placeParts scheme place).2 := by
  rw [placeParts]
  split_ifs
  · obtain hslash | ⟨before, last, rfl, hlast⟩ := Text.not_mem_or_exists_last '/' place
    · rw [splitParams_of_not_mem hslash]
      exact fun h => hslash (Text.mem_of_mem_cut_snd h)
    · rw [splitParams_append_cons before hlast]
      exact fun h => hlast (Text.mem_of_mem_cut_snd h)
  · exact List.not_mem_nil

theorem head?_placeParts {scheme place : List Char} (h : place = [] ∨ place.head? = some '/') :
    (placeParts scheme place).1.head? = some '/' ∨
      (placeParts scheme place).1 = [] ∧ (placeParts scheme place).2 = [] := by
  obtain rfl | h := h
  · refine .inr ?_
    rw [placeParts]
    split_ifs <;> exact ⟨rfl, rfl⟩
  · refine .inl ?_
    rw [placeParts]
    split_ifs
    · obtain hslash | ⟨before, last, rfl, hlast⟩ := Text.not_mem_or_exists_last '/' place
      · exact absurd (List.mem_of_mem_head? h) hslash
      · rw [splitParams_append_cons before hlast]
        cases before with
        | nil => rfl
        | cons c before => exact h
    · exact h

theorem endsAuthority_iff {c : Char} : endsAuthority c = true ↔ c = '/' ∨ c = '?' ∨ c = '#' := by
  rw [endsAuthority, Bool.or_eq_true, Bool.or_eq_true, decide_eq_true_eq, decide_eq_true_eq,
    decide_eq_true_eq, or_assoc]

/-- The place after an authority is empty or begins with a slash. -/
theorem head?_place {rest : List Char} (h : EndsAuthority rest) :
    (Text.cut '?' (Text.cut '#' rest).1).1 = [] ∨
      (Text.cut '?' (Text.cut '#' rest).1).1.head? = some '/' := by
  cases rest with
  | nil => exact .inl rfl
  | cons c rest =>
    obtain rfl | rfl | rfl := endsAuthority_iff.1 (h c rfl)
    · have hlocated : (Text.cut '#' ('/' :: rest)).1.head? = some '/' :=
        Text.head?_cut_fst fun heq => by cases heq
      have hplace : (Text.cut '?' (Text.cut '#' ('/' :: rest)).1).1.head? =
          (Text.cut '#' ('/' :: rest)).1.head? :=
        Text.head?_cut_fst fun heq => by cases hlocated.symm.trans heq
      exact .inr (hplace.trans hlocated)
    · refine .inl ?_
      have hlocated : (Text.cut '#' ('?' :: rest)).1 = '?' :: (Text.cut '#' rest).1 := rfl
      rw [hlocated]
      rfl
    · exact .inl rfl

/-- What holds of the parts of every text. -/
structure IsParsed (u : Uri) : Prop where
  scheme : IsKeptScheme u.scheme
  authority : ∀ c ∈ u.authority, endsAuthority c = false
  checked : checkAuthority u.authority = .ok ()
  rooted : u.authority ≠ [] → u.path.head? = some '/' ∨ u.path = [] ∧ u.params = []
  params : ∀ c ∈ u.params, endsAuthority c = false
  noParams : schemesWithParams.contains (String.ofList u.scheme) = false → u.params = []
  query : '#' ∉ u.query
  kept : ∀ c, c ∈ u.authority ∨ c ∈ u.params ∨ c ∈ u.query ∨ c ∈ u.fragment → isDropped c = false

theorem isParsed_of_parse (h : parse text = .ok u) : u.IsParsed := by
  obtain ⟨hcheck, rfl⟩ := parse_eq_ok_iff.1 h
  have hkept {c : Char} (hc : c ∈ (splitScheme (kept text)).2) : isDropped c = false := by
    simpa using (List.mem_filter.1 (mem_of_mem_splitScheme hc)).2
  have hrest {c : Char} (hc : c ∈ (splitAuthority (splitScheme (kept text)).2).2) :
      isDropped c = false := hkept (mem_of_mem_splitAuthority (.inr hc))
  have hlocated {c : Char}
      (hc : c ∈ (Text.cut '#' (splitAuthority (splitScheme (kept text)).2).2).1) :
      isDropped c = false ∧ c ≠ '#' :=
    ⟨hrest (Text.mem_of_mem_cut_fst hc), fun heq => Text.not_mem_cut_fst '#' _ (heq ▸ hc)⟩
  have hplace {c : Char} (hc : c ∈ (Text.cut '?'
      (Text.cut '#' (splitAuthority (splitScheme (kept text)).2).2).1).1) :
      isDropped c = false ∧ c ≠ '#' ∧ c ≠ '?' :=
    ⟨(hlocated (Text.mem_of_mem_cut_fst hc)).1, (hlocated (Text.mem_of_mem_cut_fst hc)).2,
      fun heq => Text.not_mem_cut_fst '?' _ (heq ▸ hc)⟩
  constructor
  · exact isKeptScheme_splitScheme _
  · exact fun c hc => endsAuthority_of_mem_splitAuthority hc
  · exact hcheck
  · exact fun hne => head?_placeParts (head?_place (endsAuthority_splitAuthority hne))
  · intro c hc
    rw [← Bool.not_eq_true, endsAuthority_iff]
    have hmem := hplace (mem_of_mem_placeParts (.inr hc))
    rintro (rfl | rfl | rfl)
    · exact slash_not_mem_placeParts _ _ hc
    · exact hmem.2.2 rfl
    · exact hmem.2.1 rfl
  · intro hnone
    change schemesWithParams.contains (String.ofList (splitScheme (kept text)).1) = false at hnone
    change (placeParts _ _).2 = []
    rw [placeParts, if_neg (Bool.not_eq_true _ ▸ hnone)]
  · exact fun hc => (hlocated (Text.mem_of_mem_cut_snd hc)).2 rfl
  · rintro c (hc | hc | hc | hc)
    · exact hkept (mem_of_mem_splitAuthority (.inl hc))
    · exact (hplace (mem_of_mem_placeParts (.inr hc))).1
    · exact (hlocated (Text.mem_of_mem_cut_snd hc)).1
    · exact hrest (Text.mem_of_mem_cut_snd hc)

end Uri

end LspWire
