import LspWire.Proofs.Uri.NormalForm
import LspWire.Proofs.Uri.Segments

/-!
# The files of normal forms

A normal form has the scheme of the text it is made from. Whether it stands for the same file is
decided by the slashes at the start of the decoded path, if there is no authority: a path without
slashes is made absolute, and of several slashes two are taken for the start of an authority, which
is not decoded when the path of a share is made of it.
-/

namespace LspWire

namespace Uri

open Text

variable {u : Uri} {text normal path : List Char}

/-! ## Encoded slashes and hosts -/

theorem encode_absolute (path : List Char) :
    Percent.encode (absolute path) = absolute (Percent.encode path) := by
  by_cases hnil : path = []
  · rw [hnil]
    rfl
  · by_cases hhead : path.head? = some '/'
    · rw [absolute_of_head? hhead, absolute_of_head? (Percent.head?_encode_iff.2 hhead)]
    · rw [absolute_of_head?_ne hnil hhead, Percent.encode_slash,
        absolute_of_head?_ne (Percent.encode_ne_nil hnil) (Percent.head?_encode_iff.not.2 hhead)]

theorem checkAuthority_encode (cs : List Char) : checkAuthority (Percent.encode cs) = .ok () := by
  have hcontains {c : Char} (hplain : Percent.isPlain c = false) (hc : c ≠ '%') :
      (Percent.encode cs).contains c = false := by
    rw [← Bool.not_eq_true, List.contains_iff_mem]
    exact Percent.not_mem_encode hplain hc cs
  have hdisguised : (Percent.encode cs).any (fun c => disguises.contains c.toNat) = false := by
    rw [List.any_eq_false]
    intro c hc hdisguise
    have hlt : c.toNat < 0x80 := by
      obtain hplain | rfl := Percent.isPlain_or_eq_of_mem_encode hc
      · exact (Percent.bounds_of_isPlain hplain).2
      · decide
    have hall : ∀ n ∈ disguises, 0x80 ≤ n := by decide
    exact absurd (hall _ (List.contains_iff_mem.1 hdisguise)) (Nat.not_le.2 hlt)
  rw [checkAuthority, hcontains rfl (by decide), hcontains rfl (by decide), hdisguised]
  rfl

/-! ## Slashes that a cleaned path keeps -/

theorem length_root (path : List Char) :
    (root path).length = if slashes path = 2 then 2 else min (slashes path) 1 := by
  rw [root, slashes]
  split
  · next hzero => rw [hzero]; rfl
  · next htwo => rw [htwo]; rfl
  · next hzero htwo =>
    rw [if_neg htwo, Nat.min_eq_right (Nat.one_le_iff_ne_zero.2 hzero)]
    rfl

theorem root_eq_of_length {other : List Char} (h : (root path).length = (root other).length) :
    root path = root other := by
  have hreplicate (path : List Char) : root path = List.replicate (root path).length '/' := by
    rw [root]
    split <;> rfl
  rw [hreplicate path, h, ← hreplicate other]

theorem cleaned_eq_iff {other : List Char} (h : segments path = segments other) :
    cleaned path = cleaned other ↔ (root path).length = (root other).length := by
  refine ⟨fun heq => ?_, fun hlength => cleaned_congr (root_eq_of_length hlength) h⟩
  rw [← slashes_cleaned, heq, slashes_cleaned]

theorem cleaned_absolute_iff :
    cleaned (absolute path) = cleaned path ↔ path = [] ∨ slashes path ≠ 0 := by
  by_cases hnil : path = []
  · rw [hnil]
    exact iff_of_true rfl (.inl rfl)
  · rw [cleaned_eq_iff (segments_absolute path), or_iff_right hnil]
    by_cases hhead : path.head? = some '/'
    · obtain ⟨rest, rfl⟩ := List.head?_eq_some_iff.1 hhead
      rw [absolute_of_head? hhead, slashes_slash]
      exact iff_of_true rfl (Nat.succ_ne_zero _)
    · rw [absolute_of_head?_ne hnil hhead, length_root, length_root, slashes_slash,
        slashes_of_head?_ne hhead]
      decide

/-- A path loses two slashes at its start. It stays the same if it has three of them or more than
four. -/
theorem cleaned_slash_slash_iff :
    cleaned path = cleaned ('/' :: '/' :: path) ↔ slashes path ≠ 0 ∧ slashes path ≠ 2 := by
  rw [cleaned_eq_iff (by simp), length_root, length_root, slashes_slash, slashes_slash]
  split_ifs <;> omega

theorem cleaned_share_iff {host other rest : List Char} (hhost : IsName host)
    (hother : IsName other) (hrest : IsRooted rest) :
    cleaned ('/' :: '/' :: (host ++ rest)) = cleaned ('/' :: '/' :: (other ++ rest)) ↔
      host = other := by
  have hshare {host : List Char} (h : IsName host) : cleaned ('/' :: '/' :: (host ++ rest)) =
      '/' :: '/' :: (host ++ (segments rest).flatMap ('/' :: ·)) := by
    have hhead : (host ++ rest).head? ≠ some '/' := by
      rw [List.head?_append_of_ne_nil _ h.ne_nil]
      exact fun heq => h.slash_not_mem (List.mem_of_mem_head? heq)
    have hslashes : slashes ('/' :: '/' :: (host ++ rest)) = 2 := by
      rw [slashes_slash, slashes_slash, slashes_of_head?_ne hhead]
    have hroot : root ('/' :: '/' :: (host ++ rest)) = root ['/', '/'] :=
      root_eq_of_length (by rw [length_root, hslashes]; rfl)
    have hsegments : segments (host ++ rest) = host :: segments rest := by
      obtain rfl | hrest := hrest
      · rw [List.append_nil, h.segments_eq]
        rfl
      · obtain ⟨after, rfl⟩ := List.head?_eq_some_iff.1 hrest
        rw [segments_append_slash, h.segments_eq, segments_slash, List.singleton_append]
    rw [cleaned_of_slashes (by omega), hroot, segments_slash, segments_slash, hsegments,
      joined_cons]
    rfl
  rw [hshare hhost, hshare hother, List.cons_inj_right, List.cons_inj_right,
    List.append_cancel_right_eq]

theorem cleaned_encode_share_iff {host rest : List Char} (hne : host ≠ []) (hslash : '/' ∉ host)
    (hrest : IsRooted rest) :
    cleaned ('/' :: '/' :: (Percent.encode host ++ rest)) = cleaned ('/' :: '/' :: (host ++ rest)) ↔
      ∀ c ∈ host, Percent.isPlain c = true := by
  rw [← Percent.encode_eq_self_iff]
  by_cases hplain : Percent.encode host = host
  · rw [hplain]
    exact iff_of_true rfl rfl
  · -- A point is no name, but it is its own encoded form, so neither host is one.
    have hdot : Percent.encode ['.'] = ['.'] := by decide
    refine (cleaned_share_iff ⟨Percent.encode_ne_nil hne, fun heq => hplain ?_, ?_⟩
      ⟨hne, fun heq => hplain ?_, hslash⟩ hrest)
    · have hhost := Percent.decode_encode host
      rw [heq] at hhost ⊢
      exact (hhost.symm.trans (hdot ▸ Percent.decode_encode ['.'])).symm
    · exact Percent.slash_not_mem_encode_of_not_mem hslash
    · rw [heq, hdot]

/-! ## The path of a file -/

/-- The path that the parts of a URI stand for. -/
def denoted (u : Uri) : List Char :=
  cleaned (if u.authority.isEmpty then Percent.decode u.path
    else '/' :: '/' :: u.authority ++ Percent.decode u.path)

theorem toPath_of_parse (hu : parse text = .ok u) (hfile : u.scheme = "file".toList) :
    toPath text = .ok u.denoted := by
  rw [toPath, hu]
  change (if u.scheme ≠ "file".toList then _ else _) = _
  rw [if_neg (not_not_intro hfile)]
  rfl

theorem denoted_of_eq_nil (h : u.authority = []) : u.denoted = cleaned (Percent.decode u.path) := by
  rw [denoted, h]
  rfl

theorem denoted_of_ne_nil (h : u.authority ≠ []) :
    u.denoted = cleaned ('/' :: '/' :: (u.authority ++ Percent.decode u.path)) := by
  rw [denoted, List.isEmpty_eq_false_iff.2 h]
  rfl

/-- Whether the normal form of a URI of a file stands for the same file. Where no authority is
written, the decoded path has to be empty, or to begin with a slash, but not with just two or four
of them. After two slashes it may go on with a text that is the same when it is taken for an encoded
host. -/
def KeepsFile (u : Uri) : Prop :=
  let path := Percent.decode u.path
  let host := (path.drop 2).takeWhile (· ≠ '/')
  u.authority ≠ [] ∨ path = [] ∨ slashes path = 1 ∨ slashes path = 3 ∨ 5 ≤ slashes path ∨
    slashes path = 2 ∧ host ≠ [] ∧ ∀ c ∈ host, Percent.isPlain c = true

namespace IsWritten

theorem params_eq_nil (h : u.IsWritten) (hfile : u.scheme = "file".toList) : u.params = [] :=
  h.noParams (by rw [hfile]; decide)

theorem place_eq_path (h : u.IsWritten) (hfile : u.scheme = "file".toList) : u.place = u.path := by
  rw [place, h.params_eq_nil hfile]
  exact List.append_nil u.path

/-- The decoded path of a file whose place is written without an authority and begins with less
than two slashes is made absolute. -/
theorem denoted_grounded_iff (h : u.IsWritten) (hfile : u.scheme = "file".toList)
    (hauthority : u.authority = []) (hplace : u.place.take 2 ≠ ['/', '/']) :
    u.grounded.denoted = u.denoted ↔ u.KeepsFile := by
  have hscheme : hasAuthority u.scheme = true := by rw [hfile]; decide
  have hparts : u.grounded.authority = u.authority ∧ u.grounded.params = u.params := by
    rw [grounded]
    split_ifs <;> exact ⟨rfl, rfl⟩
  have hpath : u.grounded.path = absolute u.path := by
    have hground := place_grounded hscheme
    rwa [place, hparts.2, h.params_eq_nil hfile, h.place_eq_path hfile, marked_nil,
      List.append_nil] at hground
  have hslashes : slashes (Percent.decode u.path) < 2 := by
    refine Nat.lt_of_not_le fun hle => hplace ?_
    obtain ⟨path, hpath⟩ := exists_of_two_le_slashes hle
    rw [h.place_eq_path hfile, ← h.quoted, hpath, Percent.encode_slash, Percent.encode_slash]
    rfl
  have hdecode : Percent.decode u.grounded.path = absolute (Percent.decode u.path) := by
    rw [hpath, ← h.quoted, ← encode_absolute, Percent.decode_encode, Percent.decode_encode]
  rw [denoted_of_eq_nil (hparts.1.trans hauthority), denoted_of_eq_nil hauthority, hdecode,
    cleaned_absolute_iff, KeepsFile, or_iff_right (not_not_intro hauthority)]
  refine or_congr_right ⟨fun hne => .inl (by omega), ?_⟩
  rintro (hone | hthree | hmore | ⟨htwo, -⟩) <;> omega

theorem place_eq_encode (h : u.IsWritten) (hfile : u.scheme = "file".toList)
    (hpath : Percent.decode u.path = '/' :: '/' :: path) :
    u.place = '/' :: '/' :: Percent.encode path := by
  rw [h.place_eq_path hfile, ← h.quoted, hpath, Percent.encode_slash, Percent.encode_slash]

/-- What follows two slashes is cut at the next one. The authority stays encoded. -/
theorem hosted_encode (h : u.IsWritten) (hfile : u.scheme = "file".toList)
    (hpath : Percent.decode u.path = '/' :: '/' :: path) :
    (u.hosted (Percent.encode path)).authority = Percent.encode (path.takeWhile (· ≠ '/')) ∧
      Percent.decode (u.hosted (Percent.encode path)).path = path.dropWhile (· ≠ '/') := by
  obtain ⟨place, params, hhosted, hdrop, -, hparams⟩ :=
    h.exists_hosted_eq (h.place_eq_encode hfile hpath)
  rw [hparams (h.params_eq_nil hfile), marked_nil, List.append_nil,
    Percent.dropWhile_encode] at hdrop
  rw [hhosted, hdrop, Percent.takeWhile_encode, Percent.decode_encode]
  exact ⟨rfl, rfl⟩

/-- The decoded path of a file whose place is written without an authority and begins with two
slashes loses them, or what follows them is encoded. -/
theorem denoted_hosted_iff (h : u.IsWritten) (hfile : u.scheme = "file".toList)
    (hauthority : u.authority = []) (hpath : Percent.decode u.path = '/' :: '/' :: path) :
    (u.hosted (Percent.encode path)).denoted = u.denoted ↔ u.KeepsFile := by
  obtain ⟨hhosted, hrest⟩ := h.hosted_encode hfile hpath
  have happend := List.takeWhile_append_dropWhile (p := (· ≠ '/')) (l := path)
  rw [denoted_of_eq_nil hauthority, KeepsFile, hpath, or_iff_right (not_not_intro hauthority),
    or_iff_right (List.cons_ne_nil _ _), slashes_slash, slashes_slash]
  change _ ↔ _ ∨ _ ∨ _ ∨ _ ∧ path.takeWhile (· ≠ '/') ≠ [] ∧ _
  by_cases hhost : path.takeWhile (· ≠ '/') = []
  · rw [hhost, Percent.encode_nil] at hhosted
    rw [hhost, List.nil_append] at happend
    rw [denoted_of_eq_nil hhosted, hrest, happend, cleaned_slash_slash_iff, hhost]
    constructor
    · rintro ⟨hzero, htwo⟩
      omega
    · rintro (hone | hthree | hmore | ⟨-, hne, -⟩)
      · omega
      · omega
      · omega
      · exact absurd rfl hne
  · have hslash : '/' ∉ path.takeWhile (· ≠ '/') := Text.not_mem_cut_fst '/' path
    have hslashes : slashes path = 0 := by
      refine slashes_of_head?_ne fun hhead => hhost ?_
      obtain ⟨rest, rfl⟩ := List.head?_eq_some_iff.1 hhead
      rfl
    have hshare := cleaned_encode_share_iff hhost hslash (isRooted_dropWhile path)
    rw [happend] at hshare
    rw [denoted_of_ne_nil (hhosted ▸ Percent.encode_ne_nil hhost), hhosted, hrest, hshare]
    constructor
    · exact fun hplain => .inr (.inr (.inr ⟨by omega, hhost, hplain⟩))
    · rintro (hone | hthree | hmore | ⟨-, -, hplain⟩)
      · omega
      · omega
      · omega
      · exact hplain

/-- The text of a file is read as the URI of a file, which is the same file if it is kept. -/
theorem exists_parse_text (h : u.IsWritten) (hfile : u.scheme = "file".toList) :
    ∃ v, parse u.text = .ok v ∧ v.scheme = "file".toList ∧
      (v.denoted = u.denoted ↔ u.KeepsFile) := by
  by_cases hauthority : u.authority = []
  · by_cases htake : u.place.take 2 = ['/', '/']
    · have hpath : Percent.decode u.path = '/' :: '/' :: Percent.decode (u.path.drop 2) := by
        rw [h.place_eq_path hfile] at htake
        conv_lhs => rw [eq_of_take_two htake, Percent.decode_slash, Percent.decode_slash]
      refine ⟨u.hosted _, ?_, hfile, h.denoted_hosted_iff hfile hauthority hpath⟩
      rw [h.parse_text_of_slashes hauthority (h.place_eq_encode hfile hpath),
        Percent.takeWhile_encode, checkAuthority_encode]
      rfl
    · refine ⟨u.grounded, h.parse_text_of_take_ne hauthority htake, ?_,
        h.denoted_grounded_iff hfile hauthority htake⟩
      rw [grounded]
      split_ifs <;> exact hfile
  · exact ⟨u, h.parse_text_of_authority hauthority, hfile, iff_of_true rfl (.inl hauthority)⟩

end IsWritten

/-- The normal form of the text of a file is the text of a file again, and it stands for the same
path exactly if the file is kept. -/
theorem toPath_normal_iff (hu : parse text = .ok u) (hfile : u.scheme = "file".toList)
    (hnormal : normalize text = .ok normal) :
    (∃ v, parse normal = .ok v ∧ v.scheme = "file".toList) ∧
      (toPath normal = toPath text ↔ u.KeepsFile) := by
  have heq : u.requoted.text = normal :=
    Except.ok.inj ((normalize_of_parse hu).symm.trans hnormal)
  have hdecode : Percent.decode u.requoted.path = Percent.decode u.path := Percent.decode_encode _
  have hdenoted : u.requoted.denoted = u.denoted := by
    rw [denoted, denoted, hdecode]
    rfl
  have hkeeps : u.requoted.KeepsFile ↔ u.KeepsFile := by
    rw [KeepsFile, KeepsFile, hdecode]
    rfl
  obtain ⟨v, hv, hvfile, hiff⟩ := (isParsed_of_parse hu).requoted.exists_parse_text hfile
  rw [heq] at hv
  refine ⟨⟨v, hv, hvfile⟩, ?_⟩
  rw [toPath_of_parse hv hvfile, toPath_of_parse hu hfile, Except.ok.injEq, ← hdenoted, hiff,
    hkeeps]

theorem toPath_normal_iff_of_share :
    parse "file://srv/a%20b%zz/../c?d".toList =
        .ok ⟨"file".toList, "srv".toList, "/a%20b%zz/../c".toList, [], ['d'], []⟩ ∧
      normalize "file://srv/a%20b%zz/../c?d".toList = .ok "file://srv/a%20b%25zz/../c?d".toList ∧
      (∃ v, parse "file://srv/a%20b%25zz/../c?d".toList = .ok v ∧ v.scheme = "file".toList) ∧
      (toPath "file://srv/a%20b%25zz/../c?d".toList = toPath "file://srv/a%20b%zz/../c?d".toList ↔
        (⟨"file".toList, "srv".toList, "/a%20b%zz/../c".toList, [], ['d'], []⟩ : Uri).KeepsFile) :=
  have hparse : parse "file://srv/a%20b%zz/../c?d".toList =
      .ok ⟨"file".toList, "srv".toList, "/a%20b%zz/../c".toList, [], ['d'], []⟩ := by
    decide +kernel
  have hnormal : normalize "file://srv/a%20b%zz/../c?d".toList =
      .ok "file://srv/a%20b%25zz/../c?d".toList := by decide +kernel
  ⟨hparse, hnormal, toPath_normal_iff hparse rfl hnormal⟩

/-- A name after four slashes is taken for a host, and stays encoded. -/
theorem toPath_normal_ne :
    normalize "file:////a%20b".toList = .ok "file://a%20b".toList ∧
      toPath "file:////a%20b".toList = .ok "//a b".toList ∧
      toPath "file://a%20b".toList = .ok "//a%20b".toList := by
  decide +kernel

end Uri

end LspWire
