import LspWire.Proofs.Uri.Written

/-!
# Normal forms of URIs

The normal form of a text is the text of its parts with the path encoded anew. It is its own normal
form where its parts are read as they are written. They are not where no authority is written and
the place begins with two slashes: what comes after these slashes is taken for an authority, and the
next normal form is another one, unless the authority that is found is written in the same way.
`Uri.KeepsForm` says when that is so.
-/

namespace LspWire.Uri

variable {u : Uri} {text normal : List Char}

theorem normalize_eq_ok_iff :
    normalize text = .ok normal ↔ ∃ u, parse text = .ok u ∧ u.requoted.text = normal := by
  rw [normalize]
  cases parse text <;> simp [Except.map]

theorem normalize_of_parse (h : parse text = .ok u) : normalize text = .ok u.requoted.text :=
  normalize_eq_ok_iff.2 ⟨u, h, rfl⟩

theorem requoted_eq_self (h : Text.Percent.encode (Text.Percent.decode u.path) = u.path) :
    u.requoted = u := by
  rw [requoted, h]

theorem text_grounded (hauthority : u.authority = []) (hplace : u.place.take 2 ≠ ['/', '/']) :
    u.grounded.text = u.text := by
  cases hscheme : hasAuthority u.scheme with
  | true =>
    have hparts : u.grounded.scheme = u.scheme ∧ u.grounded.authority = u.authority ∧
        u.grounded.ending = u.ending := by
      rw [grounded]
      split_ifs <;> exact ⟨rfl, rfl, rfl⟩
    have htake : (absolute u.place).take 2 ≠ ['/', '/'] := by
      cases hcs : u.place with
      | nil => decide
      | cons c cs =>
        rw [hcs] at hplace
        rw [absolute]
        split_ifs with hc
        · exact hplace
        · exact fun heq => hc (List.cons.inj (List.cons.inj heq).2).1
    rw [text_eq, text_eq, body, body, place_grounded hscheme, hparts.1, hparts.2.1, hparts.2.2,
      (isRooted_absolute u.place).absolute_eq,
      showsAuthority_of_eq_nil (hparts.2.1.trans hauthority), showsAuthority_of_eq_nil hauthority,
      hparts.1, decide_eq_true hplace, decide_eq_true htake, hscheme]
    rfl
  | false => rw [grounded, hscheme, Bool.false_and, Bool.false_and, if_neg (by decide)]

/-- Whether the text of a URI is its own normal form. Where no authority is written and the place
begins with two slashes, what comes after them is taken for an authority, so this has to be one and
to be written again: it is left out if it is empty and the scheme comes with none, or if two more
slashes follow. -/
def KeepsForm (u : Uri) : Prop :=
  ∀ rest, u.authority = [] → u.place = '/' :: '/' :: rest →
    checkAuthority (rest.takeWhile (· ≠ '/')) = .ok () ∧
      (rest.takeWhile (· ≠ '/') ≠ [] ∨ hasAuthority u.scheme = true ∧ rest.take 2 ≠ ['/', '/'])

namespace IsWritten

/-- The authority that a place is taken for is written if it is not empty, or if an empty one is
written before the slashes that follow. -/
theorem showsAuthority_hosted_iff (h : u.IsWritten) {rest : List Char}
    (hplace : u.place = '/' :: '/' :: rest) :
    (u.hosted rest).showsAuthority (u.hosted rest).place = true ↔
      rest.takeWhile (· ≠ '/') ≠ [] ∨
        hasAuthority u.scheme = true ∧ rest.take 2 ≠ ['/', '/'] := by
  by_cases hnil : rest.takeWhile (· ≠ '/') = []
  · have hrest : rest.dropWhile (· ≠ '/') = rest := by
      have happend := List.takeWhile_append_dropWhile (p := (· ≠ '/')) (l := rest)
      rwa [hnil, List.nil_append] at happend
    rw [showsAuthority_of_eq_nil (u := u.hosted rest) hnil, h.place_hosted hplace, hrest,
      Bool.and_eq_true, decide_eq_true_eq, or_iff_right (not_not_intro hnil)]
    rfl
  · exact iff_of_true (showsAuthority_of_ne hnil) (.inl hnil)

/-- The text of a place that is taken for an authority with a place: it is the text it was read
from if the authority is written, and a shorter one otherwise. -/
theorem text_hosted_eq_iff (h : u.IsWritten) (hauthority : u.authority = []) {rest : List Char}
    (hplace : u.place = '/' :: '/' :: rest) :
    (u.hosted rest).requoted.text = u.text ↔
      (u.hosted rest).showsAuthority (u.hosted rest).place = true := by
  obtain ⟨path, params, hhosted, -, hquoted, -⟩ := h.exists_hosted_eq hplace
  have hshows : u.showsAuthority u.place = false := by
    rw [showsAuthority_of_eq_nil hauthority, hplace]
    simp
  have hself : (u.hosted rest).requoted = u.hosted rest := by
    rw [hhosted]
    exact requoted_eq_self hquoted
  have htext : u.text = schemeText u.scheme ++ ('/' :: '/' :: (rest ++ u.ending)) := by
    rw [text_eq, body, hshows, hplace]
    rfl
  have hbody : (u.hosted rest).text = schemeText u.scheme ++ (u.hosted rest).body := by
    rw [text_eq, hhosted]
  rw [hself, hbody, htext, List.append_cancel_left_eq, body, h.place_hosted hplace,
    (isRooted_dropWhile rest).absolute_eq]
  split_ifs with hshown
  · refine iff_of_true ?_ hshown
    rw [hhosted]
    change '/' :: '/' :: (rest.takeWhile (· ≠ '/') ++ rest.dropWhile (· ≠ '/') ++ u.ending) = _
    rw [List.takeWhile_append_dropWhile]
  · -- Both slashes are missing, so the text is shorter.
    refine iff_of_false (fun heq => ?_) hshown
    have hlength := congrArg List.length heq
    have hle := (List.dropWhile_suffix (· ≠ '/') (l := rest)).length_le
    rw [hhosted] at hlength
    change (_ ++ u.ending).length = _ at hlength
    simp only [List.length_append, List.length_cons] at hlength
    omega

theorem quoted_grounded (h : u.IsWritten) :
    Text.Percent.encode (Text.Percent.decode u.grounded.path) = u.grounded.path := by
  rw [grounded]
  split_ifs
  · change Text.Percent.encode (Text.Percent.decode ('/' :: u.path)) = '/' :: u.path
    rw [Text.Percent.decode_slash, Text.Percent.encode_slash, h.quoted]
  · exact h.quoted

/-- A written URI has a text in normal form if it keeps its form, and only then. -/
theorem normalize_text_eq_iff (h : u.IsWritten) : normalize u.text = .ok u.text ↔ u.KeepsForm := by
  by_cases hauthority : u.authority = []
  · by_cases hplace : u.place.take 2 = ['/', '/']
    · have hrest := eq_of_take_two hplace
      have hkeeps : u.KeepsForm ↔ checkAuthority ((u.place.drop 2).takeWhile (· ≠ '/')) = .ok () ∧
          (u.hosted (u.place.drop 2)).requoted.text = u.text := by
        rw [h.text_hosted_eq_iff hauthority hrest, h.showsAuthority_hosted_iff hrest]
        refine ⟨fun hkeeps => hkeeps _ hauthority hrest, fun hkeeps rest _ heq => ?_⟩
        rwa [heq] at hkeeps
      rw [hkeeps, normalize, h.parse_text_of_slashes hauthority hrest]
      cases checkAuthority ((u.place.drop 2).takeWhile (· ≠ '/')) <;> simp [Except.map]
    · refine iff_of_true ?_ fun rest _ hrest => absurd (congrArg (List.take 2) hrest) hplace
      rw [normalize_of_parse (h.parse_text_of_take_ne hauthority hplace),
        requoted_eq_self h.quoted_grounded, text_grounded hauthority hplace]
  · refine iff_of_true ?_ fun rest hnil => absurd hnil hauthority
    rw [normalize_of_parse (h.parse_text_of_authority hauthority), requoted_eq_self h.quoted]

end IsWritten

/-- Normal forms are their own normal forms if the URI that they are written from keeps its form,
and only then. -/
theorem normalize_normal_iff (hu : parse text = .ok u) (hnormal : normalize text = .ok normal) :
    normalize normal = .ok normal ↔ u.requoted.KeepsForm := by
  have heq : u.requoted.text = normal :=
    Except.ok.inj ((normalize_of_parse hu).symm.trans hnormal)
  rw [← heq]
  exact (isParsed_of_parse hu).requoted.normalize_text_eq_iff

theorem normalize_normal_iff_of_share :
    parse "FILE://srv/a b?c".toList =
        .ok ⟨"file".toList, "srv".toList, "/a b".toList, [], ['c'], []⟩ ∧
      normalize "FILE://srv/a b?c".toList = .ok "file://srv/a%20b?c".toList ∧
      (normalize "file://srv/a%20b?c".toList = .ok "file://srv/a%20b?c".toList ↔
        (⟨"file".toList, "srv".toList, "/a%20b".toList, [], ['c'], []⟩ : Uri).KeepsForm) :=
  have hparse : parse "FILE://srv/a b?c".toList =
      .ok ⟨"file".toList, "srv".toList, "/a b".toList, [], ['c'], []⟩ := by decide +kernel
  have hnormal : normalize "FILE://srv/a b?c".toList = .ok "file://srv/a%20b?c".toList := by
    decide +kernel
  ⟨hparse, hnormal, normalize_normal_iff hparse hnormal⟩

/-- Four slashes in front are what is left of six, and two are what is left of four. -/
theorem normalize_normal_ne :
    ∃ normal, normalize "file://////a".toList = .ok normal ∧
      normalize normal = .ok "file://a".toList ∧ normal ≠ "file://a".toList :=
  ⟨"file:////a".toList, by decide +kernel, by decide +kernel, by decide⟩

end LspWire.Uri
