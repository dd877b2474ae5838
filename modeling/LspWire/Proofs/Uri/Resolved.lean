import LspWire.Proofs.Uri.Denoted

/-!
# Paths that become URIs and come back

Following the segments of an absolute path from the root leads to names without detours, which
`Uri.follow` collects step by step. The URI of the path is written from these names alone, and it
stands for the path that they are joined to.
-/

namespace LspWire.Uri

open Text

variable {path : List Char} {names : List (List Char)}

/-! ## Following a path -/

/-- The names on the way from the root, after one more segment. -/
def enter (names : List (List Char)) (segment : List Char) : List (List Char) :=
  if segment = [] ∨ segment = ['.'] then names
  else if segment = ['.', '.'] then names.dropLast
  else names ++ [segment]

/-- The names on the way from the root to where an absolute path leads. -/
def follow (path : List Char) : List (List Char) := (Text.splitAt '/' path).foldl enter []

/-- A name that leads further away from the root. -/
structure IsStep (name : List Char) : Prop extends IsName name where
  ne_parent : name ≠ ['.', '.']

/-- An absolute path without detours. -/
def IsResolved (path : List Char) : Prop :=
  ∃ names, (∀ name ∈ names, IsStep name) ∧ path = '/' :: joined names

theorem forall_isStep_enter {segment : List Char} (h : ∀ name ∈ names, IsStep name)
    (hslash : '/' ∉ segment) : ∀ name ∈ enter names segment, IsStep name := by
  rw [enter]
  split_ifs with hstay hparent
  · exact h
  · exact fun name hname => h name (List.mem_of_mem_dropLast hname)
  · rw [not_or] at hstay
    refine List.forall_mem_append.2 ⟨h, ?_⟩
    rw [List.forall_mem_singleton]
    exact ⟨⟨hstay.1, hstay.2, hslash⟩, hparent⟩

theorem forall_isStep_foldl_enter (segments : List (List Char))
    (hnames : ∀ name ∈ names, IsStep name) (hslash : ∀ segment ∈ segments, '/' ∉ segment) :
    ∀ name ∈ segments.foldl enter names, IsStep name := by
  induction segments generalizing names with
  | nil => exact hnames
  | cons segment segments ih =>
    rw [List.forall_mem_cons] at hslash
    exact ih (forall_isStep_enter hnames hslash.1) hslash.2

theorem forall_isStep_follow (path : List Char) : ∀ name ∈ follow path, IsStep name :=
  forall_isStep_foldl_enter _ (fun _ hname => absurd hname List.not_mem_nil)
    fun _ => not_mem_of_mem_splitAt

theorem climb_eq_foldl (segments : List (List Char)) (above : List (List Char))
    (h : ∀ segment ∈ segments, IsName segment) :
    climb above segments = segments.foldl enter above.reverse := by
  induction segments generalizing above with
  | nil => rfl
  | cons segment segments ih =>
    rw [List.forall_mem_cons] at h
    have hstay : ¬(segment = [] ∨ segment = ['.']) := not_or.2 ⟨h.1.ne_nil, h.1.ne_dot⟩
    rw [climb, List.foldl_cons, enter, if_neg hstay]
    split_ifs
    · rw [ih _ h.2, List.dropLast_reverse]
    · rw [ih _ h.2, List.reverse_cons]

/-- A resolved path is the path of the names that it leads along. -/
theorem resolved_eq (path : List Char) : resolved path = '/' :: joined (follow path) := by
  have hfollow : (segments path).foldl enter [] = follow path := by
    rw [follow, segments, List.foldl_filter]
    refine List.foldl_ext _ _ _ fun names segment _ => ?_
    rw [enter]
    by_cases hstay : segment = [] ∨ segment = ['.']
    · obtain rfl | rfl := hstay <;> rfl
    · rw [not_or] at hstay
      rw [List.isEmpty_eq_false_iff.2 hstay.1, decide_eq_true hstay.2]
      rfl
  rw [resolved, climb_eq_foldl _ _ fun _ => isName_of_mem_segments, ← hfollow]
  rfl

theorem isResolved_resolved (path : List Char) : IsResolved (resolved path) :=
  ⟨follow path, forall_isStep_follow path, resolved_eq path⟩

theorem climb_eq_append (above : List (List Char)) (h : ∀ name ∈ names, IsStep name) :
    climb above names = above.reverse ++ names := by
  induction names generalizing above with
  | nil => exact (List.append_nil _).symm
  | cons name names ih =>
    rw [List.forall_mem_cons] at h
    rw [climb, if_neg h.1.ne_parent, ih _ h.2, List.reverse_cons, List.append_assoc,
      List.singleton_append]

theorem IsResolved.resolved_eq_self (h : IsResolved path) : resolved path = path := by
  obtain ⟨names, hnames, rfl⟩ := h
  rw [resolved, segments_slash, segments_joined fun name hname => (hnames name hname).toIsName,
    climb_eq_append _ hnames]
  rfl

theorem IsResolved.cleaned_eq_self (h : IsResolved path) : cleaned path = path := by
  obtain ⟨names, hnames, rfl⟩ := h
  have hnames : ∀ name ∈ names, IsName name := fun name hname => (hnames name hname).toIsName
  have hslashes : slashes ('/' :: joined names) = 1 := by
    rw [slashes_slash, slashes_of_head?_ne (head?_joined hnames)]
  have hroot : root ('/' :: joined names) = root ['/'] :=
    root_eq_of_length (by rw [length_root, hslashes]; rfl)
  rw [cleaned_of_slashes (by omega), hroot, segments_slash, segments_joined hnames]
  rfl

/-! ## URIs of paths -/

/-- The parts of the URI of a path. -/
def ofResolved (path : List Char) : Uri := ⟨"file".toList, [], Percent.encode path, [], [], []⟩

theorem isWritten_ofResolved (path : List Char) : (ofResolved path).IsWritten where
  scheme := .inr (show isScheme "file".toList = true ∧ lowerAscii "file".toList = "file".toList by
    decide)
  authority _ hc := absurd hc List.not_mem_nil
  checked := rfl
  rooted hne := absurd rfl hne
  params _ hc := absurd hc List.not_mem_nil
  noParams _ := rfl
  query := List.not_mem_nil
  kept c hc := by
    change c ∈ [] ∨ c ∈ [] ∨ c ∈ [] ∨ c ∈ [] at hc
    simp at hc
  quoted := congrArg Percent.encode (Percent.decode_encode path)

namespace IsResolved

theorem place_ofResolved (path : List Char) : (ofResolved path).place = Percent.encode path :=
  List.append_nil _

/-- The place of a path has one slash in front. -/
theorem take_place_ne (h : IsResolved path) : (ofResolved path).place.take 2 ≠ ['/', '/'] := by
  obtain ⟨names, hnames, rfl⟩ := h
  rw [place_ofResolved, Percent.encode_slash]
  intro htake
  obtain ⟨rest, hrest⟩ : ∃ rest, Percent.encode (joined names) = '/' :: rest :=
    ⟨_, (List.cons.inj (eq_of_take_two htake)).2⟩
  exact head?_joined (fun name hname => (hnames name hname).toIsName)
    (Percent.head?_encode_iff.1 (hrest ▸ rfl))

theorem head?_place (h : IsResolved path) : (ofResolved path).place.head? = some '/' := by
  obtain ⟨names, -, rfl⟩ := h
  rw [place_ofResolved, Percent.encode_slash]
  rfl

theorem text_ofResolved (h : IsResolved path) :
    (ofResolved path).text = "file://".toList ++ Percent.encode path := by
  have hshows : (ofResolved path).showsAuthority (ofResolved path).place = true := by
    rw [showsAuthority_of_eq_nil rfl, decide_eq_true h.take_place_ne]
    rfl
  rw [text_eq, body, if_pos hshows, absolute_of_head? h.head?_place, place_ofResolved]
  exact congrArg ("file://".toList ++ ·) (List.append_nil (Percent.encode path))

theorem parse_text (h : IsResolved path) :
    parse (ofResolved path).text = .ok (ofResolved path) := by
  have hground : (ofResolved path).grounded = ofResolved path := by
    rw [grounded, if_neg]
    rw [head?_place_eq_slash_iff.1 h.head?_place]
    simp
  rw [(isWritten_ofResolved path).parse_text_of_take_ne rfl h.take_place_ne, hground]

theorem toPath_text (h : IsResolved path) : toPath (ofResolved path).text = .ok path := by
  have hdecode : Percent.decode (ofResolved path).path = path := Percent.decode_encode path
  rw [toPath_of_parse h.parse_text rfl, denoted_of_eq_nil rfl, hdecode, h.cleaned_eq_self]

theorem normalize_text (h : IsResolved path) :
    normalize (ofResolved path).text = .ok (ofResolved path).text := by
  rw [normalize_of_parse h.parse_text, requoted_eq_self (isWritten_ofResolved path).quoted]

end IsResolved

theorem ofPath_eq (h : '\x00' ∉ path) : ofPath path = .ok (ofResolved (resolved path)).text := by
  have hnul : path.contains '\x00' = false := by
    rw [← Bool.not_eq_true, List.contains_iff_mem]
    exact h
  rw [ofPath, hnul, (isResolved_resolved path).text_ofResolved]
  rfl

theorem not_mem_of_ofPath_eq_ok {uri : List Char} (h : ofPath path = .ok uri) : '\x00' ∉ path := by
  intro hnul
  rw [ofPath, List.contains_iff_mem.2 hnul] at h
  cases h

/-- The URI of an absolute path stands for the place that the path leads to. If the path has no
detours, this is the path itself, and no other one without detours has the same URI. -/
theorem toPath_ofPath (h : '\x00' ∉ path) :
    ∃ uri, ofPath ('/' :: path) = .ok uri ∧
      IsResolved ('/' :: joined (follow ('/' :: path))) ∧
      toPath uri = .ok ('/' :: joined (follow ('/' :: path))) ∧
      (IsResolved ('/' :: path) → toPath uri = .ok ('/' :: path) ∧
        ∀ other, IsResolved other → ofPath other = .ok uri → other = '/' :: path) ∧
      normalize uri = .ok uri := by
  have hnul : '\x00' ∉ '/' :: path := List.not_mem_cons_of_ne_of_not_mem (by decide) h
  have hresolved := isResolved_resolved ('/' :: path)
  have htoPath := hresolved.toPath_text
  refine ⟨_, ofPath_eq hnul, resolved_eq _ ▸ hresolved, resolved_eq _ ▸ htoPath, fun hpath => ?_,
    hresolved.normalize_text⟩
  rw [hpath.resolved_eq_self] at htoPath ⊢
  refine ⟨htoPath, fun other hother huri => ?_⟩
  rw [ofPath_eq (not_mem_of_ofPath_eq_ok huri), hother.resolved_eq_self, Except.ok.injEq] at huri
  rw [← huri, hother.toPath_text] at htoPath
  exact Except.ok.inj htoPath

theorem toPath_ofPath_of_marks :
    '\x00' ∉ "a%20/b?c;#:é \n".toList ∧ IsResolved "/a%20/b?c;#:é \n".toList ∧
      ∃ uri, ofPath "/a%20/b?c;#:é \n".toList = .ok uri ∧
        toPath uri = .ok "/a%20/b?c;#:é \n".toList ∧
        (∀ other, IsResolved other → ofPath other = .ok uri →
          other = "/a%20/b?c;#:é \n".toList) ∧
        normalize uri = .ok uri := by
  have hnul : '\x00' ∉ "a%20/b?c;#:é \n".toList := by decide
  have hresolved : IsResolved "/a%20/b?c;#:é \n".toList := by
    refine ⟨["a%20".toList, "b?c;#:é \n".toList], ?_, by decide⟩
    rw [List.forall_mem_cons, List.forall_mem_singleton]
    exact ⟨⟨⟨by decide, by decide, by decide⟩, by decide⟩,
      ⟨⟨by decide, by decide, by decide⟩, by decide⟩⟩
  obtain ⟨uri, huri, -, -, hpath, hnormal⟩ := toPath_ofPath hnul
  exact ⟨hnul, hresolved, uri, huri, (hpath hresolved).1, (hpath hresolved).2, hnormal⟩

/-- What a path leads to is not what it goes through. -/
example : follow "//a//b?c/.././d/".toList = ["a".toList, "d".toList] := by decide

end LspWire.Uri
