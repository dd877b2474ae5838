import LspWire.Proofs.Uri.Parts

/-!
# Segments of paths

A path is the slashes at its start and the names that its segments are, as far as they lead
somewhere. Cleaning a path keeps both: `Uri.slashes_cleaned` reads the slashes off a cleaned path,
and `Uri.segments_joined` the names.
-/

namespace LspWire

namespace Text

variable {sep : Char} {cs piece : List Char}

theorem not_mem_of_mem_splitAt (h : piece ∈ splitAt sep cs) : sep ∉ piece := by
  induction cs generalizing piece with
  | nil =>
    rw [splitAt_nil, List.mem_singleton] at h
    exact h ▸ List.not_mem_nil
  | cons c cs ih =>
    rw [splitAt] at h
    cases hpieces : splitAt sep cs with
    | nil => exact absurd hpieces (splitAt_ne_nil sep cs)
    | cons first pieces =>
      rw [hpieces] at h ih
      dsimp only at h
      split_ifs at h with hc
      · obtain rfl | h := List.mem_cons.1 h
        · exact List.not_mem_nil
        · exact ih h
      · obtain rfl | h := List.mem_cons.1 h
        · exact List.not_mem_cons_of_ne_of_not_mem (Ne.symm hc) (ih List.mem_cons_self)
        · exact ih (List.mem_cons_of_mem _ h)

end Text

namespace Uri

/-! ## Names -/

/-- A segment that leads somewhere. -/
structure IsName (segment : List Char) : Prop where
  ne_nil : segment ≠ []
  ne_dot : segment ≠ ['.']
  slash_not_mem : '/' ∉ segment

variable {path segment : List Char} {names : List (List Char)}

theorem isName_of_mem_segments (h : segment ∈ segments path) : IsName segment := by
  obtain ⟨hmem, hleads⟩ := List.mem_filter.1 h
  rw [Bool.and_eq_true, decide_eq_true_eq] at hleads
  refine ⟨?_, hleads.2, Text.not_mem_of_mem_splitAt hmem⟩
  rintro rfl
  cases hleads.1

theorem segments_append_slash (before after : List Char) :
    segments (before ++ '/' :: after) = segments before ++ segments after := by
  rw [segments, Text.splitAt_append_cons, List.filter_append]
  rfl

@[simp] theorem segments_slash (path : List Char) : segments ('/' :: path) = segments path :=
  segments_append_slash [] path

theorem segments_absolute (path : List Char) : segments (absolute path) = segments path := by
  cases path with
  | nil => rfl
  | cons c path =>
    rw [absolute]
    split_ifs
    · rfl
    · exact segments_slash _

theorem IsName.segments_eq (h : IsName segment) : segments segment = [segment] := by
  rw [segments, Text.splitAt_of_not_mem h.slash_not_mem, List.filter_cons_of_pos]
  · rfl
  · rw [List.isEmpty_eq_false_iff.2 h.ne_nil, decide_eq_true h.ne_dot]
    rfl

/-! ## Joined names -/

theorem joined_cons (segment : List Char) (names : List (List Char)) :
    joined (segment :: names) = segment ++ names.flatMap ('/' :: ·) := by
  rw [joined]
  induction names generalizing segment with
  | nil => rw [List.intercalate_singleton, List.flatMap_nil, List.append_nil]
  | cons name names ih =>
    rw [List.intercalate_cons_cons, ih name, List.flatMap_cons, List.append_assoc]
    rfl

theorem segments_joined (h : ∀ name ∈ names, IsName name) : segments (joined names) = names := by
  have hrest (names : List (List Char)) (h : ∀ name ∈ names, IsName name) (before : List Char) :
      segments (before ++ names.flatMap ('/' :: ·)) = segments before ++ names := by
    induction names generalizing before with
    | nil => rw [List.flatMap_nil, List.append_nil, List.append_nil]
    | cons name names ih =>
      rw [List.forall_mem_cons] at h
      rw [List.flatMap_cons, List.cons_append, segments_append_slash, ih h.2, h.1.segments_eq,
        List.singleton_append]
  cases names with
  | nil => rfl
  | cons name names =>
    rw [List.forall_mem_cons] at h
    rw [joined_cons, hrest names h.2, h.1.segments_eq, List.singleton_append]

theorem head?_joined (h : ∀ name ∈ names, IsName name) : (joined names).head? ≠ some '/' := by
  cases names with
  | nil => exact fun heq => by cases heq
  | cons name names =>
    rw [List.forall_mem_cons] at h
    rw [joined_cons]
    intro heq
    obtain ⟨c, cs, hname⟩ := List.exists_cons_of_ne_nil h.1.ne_nil
    rw [hname] at heq
    have hslash := h.1.slash_not_mem
    rw [hname, ← Option.some.inj heq] at hslash
    exact hslash List.mem_cons_self

/-! ## Slashes at the start -/

/-- The number of slashes at the start of a path. -/
def slashes (path : List Char) : Nat := (path.takeWhile (· = '/')).length

@[simp] theorem slashes_slash (path : List Char) : slashes ('/' :: path) = slashes path + 1 := by
  rw [slashes, List.takeWhile_cons_of_pos (by decide)]
  rfl

theorem slashes_of_head?_ne (h : path.head? ≠ some '/') : slashes path = 0 := by
  cases path with
  | nil => rfl
  | cons c path =>
    have htake : (c :: path).takeWhile (· = '/') = [] :=
      List.takeWhile_cons_of_neg fun heq => h (congrArg some (of_decide_eq_true heq))
    rw [slashes, htake]
    rfl

theorem exists_of_two_le_slashes (h : 2 ≤ slashes path) : ∃ rest, path = '/' :: '/' :: rest := by
  by_cases hhead : path.head? = some '/'
  · obtain ⟨rest, rfl⟩ := List.head?_eq_some_iff.1 hhead
    by_cases hrest : rest.head? = some '/'
    · obtain ⟨rest, rfl⟩ := List.head?_eq_some_iff.1 hrest
      exact ⟨rest, rfl⟩
    · rw [slashes_slash, slashes_of_head?_ne hrest] at h
      omega
  · rw [slashes_of_head?_ne hhead] at h
    omega

theorem slashes_cleaned (path : List Char) : slashes (cleaned path) = (root path).length := by
  have hjoined : slashes (joined (segments path)) = 0 :=
    slashes_of_head?_ne (head?_joined fun _ => isName_of_mem_segments)
  have hroot : slashes (root path ++ joined (segments path)) = (root path).length := by
    rw [root]
    split
    · exact hjoined
    · rw [List.cons_append, List.cons_append, slashes_slash, slashes_slash, List.nil_append,
        hjoined]
      rfl
    · rw [List.cons_append, slashes_slash, List.nil_append, hjoined]
      rfl
  rw [cleaned]
  split_ifs with hempty
  · have hnil := List.append_eq_nil_iff.1 (List.isEmpty_iff.1 hempty)
    rw [hnil.1]
    rfl
  · exact hroot

/-- A path with slashes at its start is cleaned to the slashes that are kept and its names. -/
theorem cleaned_of_slashes (h : slashes path ≠ 0) :
    cleaned path = root path ++ joined (segments path) := by
  rw [cleaned, if_neg]
  rw [List.isEmpty_iff, List.append_eq_nil_iff, root]
  rintro ⟨hroot, -⟩
  split at hroot
  · next hzero => exact h hzero
  · cases hroot
  · cases hroot

theorem cleaned_congr {other : List Char} (hroot : root path = root other)
    (hsegments : segments path = segments other) : cleaned path = cleaned other := by
  rw [cleaned, cleaned, hroot, hsegments]

end Uri

end LspWire
