import LspWire.Proofs.Highlighting

/-!
# Texts that are unpacked

Base64 text is read more generously than it is written: padding after whole groups is passed over,
and so are the bits of the last character that belong to no octet. `Base64.IsRead` describes the
texts that are read, and `IsPacked` those among them that hold whole tokens. Their tokens are the
number that the characters make up in base 64, less the bits that are left over, in digits of
sixty-four bits. What is written for these tokens is the text again if nothing in it has been passed
over.
-/

namespace LspWire

namespace Base64

/-- Whether a character is one of the sixty-four that stand for six bits. -/
def isData (c : Char) : Bool := c.isAlphanum || c == '+' || c == '/'

example : String.ofList ((List.range 64).map alphabet) =
    "ABCDEFGHIJKLMNOPQRSTUVWXYZabcdefghijklmnopqrstuvwxyz0123456789+/" := by
  decide

/-- The six-bit groups that characters stand for. -/
def groups (data : List Char) : List Nat := data.filterMap sextet?

theorem groups_cons {c : Char} {s : Nat} (hs : sextet? c = some s) (data : List Char) :
    groups (c :: data) = s :: groups data := by
  rw [groups, List.filterMap_cons_some hs, groups]

/-- The padding that may follow a number of characters: what fills the last group, and anything
after whole groups, unless there are none. -/
def IsPadding (count pads : Nat) : Prop :=
  (count % 4 = 0 ∧ (count = 0 → pads = 0)) ∨ (count % 4 = 2 ∧ pads = 2) ∨ (count % 4 = 3 ∧ pads = 1)

/-- A text of characters that stand for six bits each, with padding after them. -/
structure IsRead (text data : List Char) (pads : Nat) : Prop where
  eq_append : text = data ++ List.replicate pads '='
  all : ∀ c ∈ data, isData c = true
  padding : IsPadding data.length pads

theorem eq_iff_toNat_eq {c d : Char} : c = d ↔ c.toNat = d.toNat :=
  ⟨congrArg Char.toNat, fun h => Char.ext (UInt32.toNat_inj.1 h)⟩

theorem isSome_sextet? (c : Char) : (sextet? c).isSome = isData c := by
  have hn : c.val.toNat = c.toNat := rfl
  have hplus : '+'.toNat = 43 := rfl
  have hslash : '/'.toNat = 47 := rfl
  rw [Bool.eq_iff_iff]
  simp only [sextet?, isData, Char.isAlphanum, Char.isAlpha, Char.isUpper, Char.isLower,
    Char.isDigit, Bool.or_eq_true, Bool.and_eq_true, decide_eq_true_eq, beq_iff_eq,
    eq_iff_toNat_eq, UInt32.le_iff_toNat_le, ge_iff_le, hn, hplus, hslash]
  split_ifs <;> simp <;> omega

theorem exists_sextet? {c : Char} (h : isData c = true) : ∃ s, sextet? c = some s :=
  Option.isSome_iff_exists.1 ((isSome_sextet? c).trans h)

theorem alphabet_of_sextet? {c : Char} {s : Nat} (h : sextet? c = some s) : alphabet s = c := by
  unfold sextet? at h
  dsimp only at h
  split_ifs at h <;> cases h <;> unfold alphabet
  · rw [if_pos (by omega), Nat.sub_add_cancel (by omega), Char.ofNat_toNat]
  · rw [if_neg (by omega), if_pos (by omega), Nat.sub_add_cancel (by omega), Char.ofNat_toNat]
  · rw [if_neg (by omega), if_neg (by omega), if_pos (by omega), Nat.add_sub_cancel,
      Char.ofNat_toNat]
  · rename_i hc
    exact hc.symm
  · rename_i hc
    exact hc.symm

/-! ## The scanner -/

theorem scan_append {data : List Char} (h : ∀ c ∈ data, isData c = true) {quad : Nat}
    (hquad : quad < 4) (count : Nat) (cs : List Char) :
    scan quad 0 count false (data ++ cs) =
      (scan ((quad + data.length) % 4) 0 (count + data.length) false cs).map
        (groups data ++ ·) := by
  induction data generalizing quad count with
  | nil =>
    rw [List.nil_append, List.length_nil, Nat.add_zero, Nat.add_zero, Nat.mod_eq_of_lt hquad]
    cases scan quad 0 count false cs <;> rfl
  | cons c data ih =>
    rw [List.forall_mem_cons] at h
    obtain ⟨s, hs⟩ := exists_sextet? h.1
    have hscan := scan_alphabet (sextet?_lt hs) quad 0 count (data ++ cs)
    rw [alphabet_of_sextet? hs, ih h.2 (Nat.mod_lt _ (by decide))] at hscan
    rw [List.cons_append, hscan, List.length_cons, Nat.mod_add_mod, Nat.add_right_comm,
      Nat.add_assoc quad, Nat.add_right_comm count, Nat.add_assoc count, groups_cons hs]
    cases scan ((quad + (data.length + 1)) % 4) 0 (count + (data.length + 1)) false cs <;> rfl

theorem scan_pad (quad pads count : Nat) (padded : Bool) (cs : List Char) :
    scan quad pads count padded ('=' :: cs) =
      if quad < 2 then scan quad pads count true cs
      else if quad + pads + 1 < 4 then scan quad (pads + 1) count true cs
      else if cs.isEmpty then .ok [] else .error .excessData := by
  rw [scan, if_pos rfl]

/-- Once padding has begun, there is nothing else. -/
theorem eq_replicate_of_scan {quad pads count : Nat} {cs : List Char} {gs : List Nat}
    (h : scan quad pads count true cs = .ok gs) :
    gs = [] ∧ cs = List.replicate cs.length '=' := by
  induction cs generalizing pads with
  | nil =>
    rw [scan] at h
    split at h
    · exact ⟨(Except.ok.inj h).symm, rfl⟩
    · split at h <;> cases h
  | cons c cs ih =>
    rw [scan] at h
    split at h
    · rename_i hc
      subst hc
      rw [List.length_cons, List.replicate_succ, List.cons.injEq]
      split at h
      · exact ⟨(ih h).1, rfl, (ih h).2⟩
      · split at h
        · exact ⟨(ih h).1, rfl, (ih h).2⟩
        · split at h
          · rename_i hempty
            rw [List.isEmpty_iff.1 hempty]
            exact ⟨(Except.ok.inj h).symm, rfl, rfl⟩
          · cases h
    · split at h
      · cases h
      · cases h

theorem scan_replicate {quad : Nat} (hquad : quad < 2) (pads count : Nat) :
    scan quad 0 count true (List.replicate pads '=') = scan quad 0 count true [] := by
  induction pads with
  | zero => rfl
  | succ pads ih => rw [List.replicate_succ, scan_pad, if_pos hquad, ih]

theorem scan_padding_eq_ok_iff {quad : Nat} (hquad : quad < 4) {pads count : Nat} :
    scan quad 0 count false (List.replicate pads '=') = .ok [] ↔
      quad = 0 ∨ (quad = 2 ∧ pads = 2) ∨ (quad = 3 ∧ pads = 1) := by
  rcases pads with _ | pads
  · rw [List.replicate_zero, scan]
    split_ifs <;> simp <;> omega
  · rw [List.replicate_succ, scan_pad]
    obtain hlow | rfl | rfl : quad < 2 ∨ quad = 2 ∨ quad = 3 := by omega
    · rw [if_pos hlow, scan_replicate hlow, scan]
      split_ifs <;> simp <;> omega
    · rw [if_neg (by decide), if_pos (by decide)]
      rcases pads with _ | _ | pads <;> simp [scan, List.replicate_succ]
    · rw [if_neg (by decide), if_neg (by decide)]
      cases pads <;> simp [List.replicate_succ]

theorem exists_replicate_of_scan {quad count : Nat} {cs : List Char} {gs : List Nat}
    (hcs : ∀ c ∈ cs.head?, isData c = false)
    (h : scan quad 0 count false cs = .ok gs) : gs = [] ∧ ∃ pads, cs = List.replicate pads '=' := by
  cases cs with
  | nil =>
    rw [scan] at h
    split at h
    · exact ⟨(Except.ok.inj h).symm, 0, rfl⟩
    · split at h <;> cases h
  | cons c cs =>
    by_cases hc : c = '='
    · subst hc
      rw [scan_pad] at h
      have hrest : gs = [] ∧ cs = List.replicate cs.length '=' := by
        split at h
        · exact eq_replicate_of_scan h
        · split at h
          · exact eq_replicate_of_scan h
          · split at h
            · rename_i hempty
              rw [List.isEmpty_iff.1 hempty]
              exact ⟨(Except.ok.inj h).symm, rfl⟩
            · cases h
      exact ⟨hrest.1, cs.length + 1, congrArg ('=' :: ·) hrest.2⟩
    · have hnone : sextet? c = none := by
        rw [← Option.not_isSome_iff_eq_none, isSome_sextet?, hcs c rfl]
        decide
      rw [scan, if_neg hc, hnone] at h
      cases h

/-- The six-bit groups of a text are those of its characters before the padding. -/
theorem scan_eq_ok_iff {text : List Char} {gs : List Nat} :
    scan 0 0 0 false text = .ok gs ↔ ∃ data pads, text = data ++ List.replicate pads '=' ∧
      (∀ c ∈ data, isData c = true) ∧ gs = groups data ∧
      (data.length % 4 = 0 ∨ (data.length % 4 = 2 ∧ pads = 2) ∨
        (data.length % 4 = 3 ∧ pads = 1)) := by
  have happend {data cs : List Char} (hdata : ∀ c ∈ data, isData c = true) :=
    @scan_append data hdata 0 (by decide) 0 cs
  constructor
  · intro h
    have hdata : ∀ c ∈ text.takeWhile isData, isData c = true := fun c hc =>
      List.mem_takeWhile_imp hc
    have hcs : ∀ c ∈ (text.dropWhile isData).head?, isData c = false := by
      intro c hc
      have hnot := List.head?_dropWhile_not isData text
      rw [Option.mem_def.1 hc] at hnot
      exact hnot
    have hquad : (0 + (text.takeWhile isData).length) % 4 < 4 := Nat.mod_lt _ (by decide)
    rw [← @List.takeWhile_append_dropWhile _ isData text, happend hdata,
      map_eq_ok_iff] at h
    obtain ⟨rest, hrest, rfl⟩ := h
    obtain ⟨rfl, pads, hpads⟩ := exists_replicate_of_scan hcs hrest
    rw [hpads, scan_padding_eq_ok_iff hquad, Nat.zero_add] at hrest
    refine ⟨text.takeWhile isData, pads, ?_, hdata, List.append_nil _, hrest⟩
    rw [← hpads, List.takeWhile_append_dropWhile]
  · rintro ⟨data, pads, rfl, hdata, rfl, hpads⟩
    have hquad : (0 + data.length) % 4 < 4 := Nat.mod_lt _ (by decide)
    rw [happend hdata, (scan_padding_eq_ok_iff hquad).2 (by rwa [Nat.zero_add])]
    exact congrArg _ (List.append_nil _)

theorem ne_pad_of_isData {c : Char} (h : isData c = true) : c ≠ '=' := by
  rintro rfl
  cases h

/-- A text is decoded just if it consists of characters that stand for six bits and of padding. -/
theorem decode_eq_ok_iff {text : List Char} {bytes : List Nat} :
    decode text = .ok bytes ↔
      ∃ data pads, IsRead text data pads ∧ bytes = octets (groups data) := by
  constructor
  · intro h
    have hpad : ∀ cs, text ≠ '=' :: cs := by
      rintro cs rfl
      cases h
    rw [decode_eq_scan hpad, map_eq_ok_iff] at h
    obtain ⟨gs, hscan, rfl⟩ := h
    obtain ⟨data, pads, rfl, hdata, rfl, hpads⟩ := scan_eq_ok_iff.1 hscan
    refine ⟨data, pads, ⟨rfl, hdata, ?_⟩, rfl⟩
    refine hpads.imp_left fun hwhole => ⟨hwhole, fun hnone => ?_⟩
    rw [List.length_eq_zero_iff.1 hnone, List.nil_append] at hpad
    cases pads with
    | zero => rfl
    | succ pads => exact absurd List.replicate_succ (hpad _)
  · rintro ⟨data, pads, ⟨rfl, hdata, hpads⟩, rfl⟩
    have hpad : ∀ cs, data ++ List.replicate pads '=' ≠ '=' :: cs := by
      intro cs heq
      cases data with
      | nil =>
        have hnone : pads = 0 := by
          rcases hpads with hpads | hpads | hpads
          · exact hpads.2 rfl
          · cases hpads.1
          · cases hpads.1
        subst hnone
        cases heq
      | cons c data =>
        exact ne_pad_of_isData (hdata c List.mem_cons_self) (List.cons.inj heq).1
    rw [decode_eq_scan hpad, map_eq_ok_iff]
    refine ⟨groups data, scan_eq_ok_iff.2 ⟨data, pads, rfl, hdata, rfl, ?_⟩, rfl⟩
    exact hpads.imp_left And.left

/-! ## Octets -/

theorem length_groups {data : List Char} (h : ∀ c ∈ data, isData c = true) :
    (groups data).length = data.length := by
  induction data with
  | nil => rfl
  | cons c data ih =>
    rw [List.forall_mem_cons] at h
    obtain ⟨s, hs⟩ := exists_sextet? h.1
    rw [groups_cons hs, List.length_cons, List.length_cons, ih h.2]

theorem map_alphabet_groups {data : List Char} (h : ∀ c ∈ data, isData c = true) :
    (groups data).map alphabet = data := by
  induction data with
  | nil => rfl
  | cons c data ih =>
    rw [List.forall_mem_cons] at h
    obtain ⟨s, hs⟩ := exists_sextet? h.1
    rw [groups_cons hs, List.map_cons, alphabet_of_sextet? hs, ih h.2]

theorem groups_lt (data : List Char) : ∀ s ∈ groups data, s < 64 := by
  intro s hs
  obtain ⟨c, -, hc⟩ := List.mem_filterMap.1 hs
  exact sextet?_lt hc

/-- Induction over six-bit groups, four at a time. -/
@[elab_as_elim] theorem groups_induction {motive : List Nat → Prop} (nil : motive [])
    (one : ∀ a, motive [a]) (two : ∀ a b, motive [a, b]) (three : ∀ a b c, motive [a, b, c])
    (four : ∀ a b c d rest, motive rest → motive (a :: b :: c :: d :: rest)) :
    ∀ gs, motive gs
  | [] => nil
  | [a] => one a
  | [a, b] => two a b
  | [a, b, c] => three a b c
  | a :: b :: c :: d :: rest => four a b c d rest (groups_induction nil one two three four rest)

theorem length_octets (gs : List Nat) : (octets gs).length = 3 * gs.length / 4 := by
  induction gs using groups_induction with
  | four a b c d rest ih =>
    simp only [octets, List.length_cons, ih]
    omega
  | _ => simp [octets]

theorem ofDigits_octets {gs : List Nat} (h : ∀ s ∈ gs, s < 64) :
    Nat.ofDigits 256 (octets gs).reverse =
      Nat.ofDigits 64 gs.reverse / 2 ^ (6 * gs.length % 8) := by
  induction gs using groups_induction with
  | nil => rfl
  | one a =>
    have ha : a < 64 := h a List.mem_cons_self
    simp [octets, Nat.div_eq_of_lt ha]
  | two a b =>
    simp only [List.forall_mem_cons] at h
    simp only [octets, Nat.ofDigits_reverse_cons, List.reverse_nil, Nat.ofDigits_nil,
      List.length_cons, List.length_nil, Nat.reduceAdd, Nat.reduceMul, Nat.reduceMod,
      Nat.reducePow]
    omega
  | three a b c =>
    simp only [List.forall_mem_cons] at h
    simp only [octets, Nat.ofDigits_reverse_cons, List.reverse_nil, Nat.ofDigits_nil,
      List.length_cons, List.length_nil, Nat.reduceAdd, Nat.reduceMul, Nat.reduceMod,
      Nat.reducePow]
    omega
  | four a b c d rest ih =>
    simp only [List.forall_mem_cons] at h
    have hpow : 64 ^ rest.length = 2 ^ (6 * rest.length % 8) * 256 ^ (3 * rest.length / 4) := by
      rw [show 64 = 2 ^ 6 from rfl, show 256 = 2 ^ 8 from rfl, ← Nat.pow_mul, ← Nat.pow_mul,
        ← Nat.pow_add]
      congr 1
      omega
    have hspare : 6 * (a :: b :: c :: d :: rest).length % 8 = 6 * rest.length % 8 := by
      simp only [List.length_cons]
      omega
    have hblock : 64 ^ 3 * a + 64 ^ 2 * b + 64 * c + d =
        256 ^ 2 * (4 * a + b / 16) + 256 * (16 * (b % 16) + c / 4) + (64 * (c % 4) + d) := by
      omega
    have hnumber : Nat.ofDigits 64 (a :: b :: c :: d :: rest).reverse =
        Nat.ofDigits 64 rest.reverse + 2 ^ (6 * rest.length % 8) *
          (256 ^ (3 * rest.length / 4) * (64 ^ 3 * a + 64 ^ 2 * b + 64 * c + d)) := by
      simp only [Nat.ofDigits_reverse_cons, List.length_cons, Nat.pow_succ, hpow]
      ring
    rw [hspare, hnumber, Nat.add_mul_div_left _ _ (Nat.two_pow_pos _), ← ih h.2.2.2.2, hblock,
      octets]
    simp only [Nat.ofDigits_reverse_cons, length_octets, List.length_cons, Nat.pow_succ]
    ring

/-! ## Texts that are written again -/

/-- Whether a text of characters and padding is the one that its octets are written as: nothing is
padded that is whole, and no bits are set that belong to no octet. -/
def IsCanonical (data : List Char) (pads : Nat) : Prop :=
  (data.length % 4 = 0 → pads = 0) ∧
    ∀ s ∈ (groups data).getLast?, s % 2 ^ (6 * data.length % 8) = 0

/-- Octets of six-bit groups are written with as many characters, which are those of the groups if
the last one has no bits left over. -/
theorem encode_octets {gs : List Nat} (h : ∀ s ∈ gs, s < 64) (hlength : gs.length % 4 ≠ 1) :
    ∃ data, data.length = gs.length ∧
      encode (octets gs) = data ++ List.replicate ((4 - gs.length % 4) % 4) '=' ∧
      (data = gs.map alphabet ↔ ∀ s ∈ gs.getLast?, s % 2 ^ (6 * gs.length % 8) = 0) := by
  have hinj {s t : Nat} (hs : s < 64) (ht : t < 64) : alphabet s = alphabet t ↔ s = t := by
    refine ⟨fun heq => ?_, congrArg alphabet⟩
    have hsextet := congrArg sextet? heq
    rw [sextet?_alphabet hs, sextet?_alphabet ht] at hsextet
    exact Option.some.inj hsextet
  induction gs using groups_induction with
  | nil => exact ⟨[], rfl, rfl, by simp⟩
  | one a => exact absurd rfl hlength
  | two a b =>
    simp only [List.forall_mem_cons] at h
    refine ⟨[alphabet ((4 * a + b / 16) / 4), alphabet (16 * ((4 * a + b / 16) % 4))], rfl, rfl, ?_⟩
    simp only [List.map_cons, List.map_nil, List.cons.injEq, and_true]
    rw [hinj (by omega) (by omega), hinj (by omega) (by omega)]
    simp
    omega
  | three a b c =>
    simp only [List.forall_mem_cons] at h
    refine ⟨[alphabet ((4 * a + b / 16) / 4),
      alphabet (16 * ((4 * a + b / 16) % 4) + (16 * (b % 16) + c / 4) / 16),
      alphabet (4 * ((16 * (b % 16) + c / 4) % 16))], rfl, rfl, ?_⟩
    simp only [List.map_cons, List.map_nil, List.cons.injEq, and_true]
    rw [hinj (by omega) (by omega), hinj (by omega) (by omega), hinj (by omega) (by omega)]
    simp
    omega
  | four a b c d rest ih =>
    simp only [List.forall_mem_cons] at h
    simp only [List.length_cons] at hlength
    obtain ⟨data, hdata, hencode, hsame⟩ := ih h.2.2.2.2 (by omega)
    have hspare : 6 * (a :: b :: c :: d :: rest).length % 8 = 6 * rest.length % 8 := by
      simp only [List.length_cons]
      omega
    have hpads : (4 - (a :: b :: c :: d :: rest).length % 4) % 4 = (4 - rest.length % 4) % 4 := by
      simp only [List.length_cons]
      omega
    have ha : (4 * a + b / 16) / 4 = a := by omega
    have hb : 16 * ((4 * a + b / 16) % 4) + (16 * (b % 16) + c / 4) / 16 = b := by omega
    have hc : 4 * ((16 * (b % 16) + c / 4) % 16) + (64 * (c % 4) + d) / 64 = c := by omega
    have hd : (64 * (c % 4) + d) % 64 = d := by omega
    refine ⟨alphabet a :: alphabet b :: alphabet c :: alphabet d :: data, ?_, ?_, ?_⟩
    · simp only [List.length_cons, hdata]
    · rw [octets, encode, ha, hb, hc, hd, hencode, hpads]
      rfl
    · rw [hspare]
      simp only [List.map_cons, List.cons.injEq, true_and, hsame]
      cases rest with
      | nil => simp [Nat.mod_one]
      | cons e rest => simp only [List.getLast?_cons_cons]

/-- Read text is written again as it was just if it is canonical. -/
theorem encode_octets_eq_iff {text data : List Char} {pads : Nat} (h : IsRead text data pads) :
    encode (octets (groups data)) = text ↔ IsCanonical data pads := by
  obtain ⟨rfl, hdata, hpads⟩ := h
  have hlength := length_groups hdata
  have hloose : (groups data).length % 4 ≠ 1 := by
    rcases hpads with hpads | hpads | hpads <;> omega
  obtain ⟨data', hdata', hencode, hsame⟩ := encode_octets (groups_lt data) hloose
  rw [hencode, IsCanonical, ← hlength, ← hsame, map_alphabet_groups hdata, and_comm]
  constructor
  · intro heq
    obtain ⟨hfirst, hlast⟩ := List.append_inj heq (hdata'.trans hlength)
    refine ⟨hfirst, fun hwhole => ?_⟩
    rw [hwhole] at hlast
    have hcount := congrArg List.length hlast
    rw [List.length_replicate, List.length_replicate] at hcount
    exact hcount.symm
  · rintro ⟨rfl, hwhole⟩
    have hcount : (4 - (groups data').length % 4) % 4 = pads := by
      rcases hpads with hpads | hpads | hpads <;> omega
    rw [hcount]

end Base64

namespace Token

/-! ## Tokens -/

/-- The bits of a token as one number. -/
def number (t : Token) : Nat := 2 ^ 32 * t.character + 2 ^ 16 * t.length + t.scope

theorem length_ofOctets (bytes : List Nat) : (ofOctets bytes).length = bytes.length / 8 := by
  induction bytes using ofOctets.induct with
  | case1 a b c d e f g h rest ih =>
    simp only [ofOctets, List.length_cons, ih]
    omega
  | case2 bytes hshort =>
    have hlt := length_lt_of_short hshort
    simp [ofOctets, Nat.div_eq_of_lt hlt]

theorem ofDigits_ofOctets {bytes : List Nat} (hwhole : bytes.length % 8 = 0) :
    Nat.ofDigits (2 ^ 64) ((ofOctets bytes).map number).reverse =
      Nat.ofDigits 256 bytes.reverse := by
  induction bytes using ofOctets.induct with
  | case1 a b c d e f g h rest ih =>
    simp only [List.length_cons] at hwhole
    have hpow : (2 ^ 64) ^ (rest.length / 8) = 256 ^ rest.length := by
      rw [show 256 = 2 ^ 8 from rfl, ← Nat.pow_mul, ← Nat.pow_mul]
      congr 1
      omega
    rw [ofOctets, List.map_cons]
    simp only [Nat.ofDigits_reverse_cons, List.length_map, length_ofOctets, hpow,
      ih (by omega), List.length_cons, Nat.pow_succ, number, ofBigEndian, List.foldl_cons,
      List.foldl_nil]
    ring
  | case2 bytes hshort =>
    have hlt := length_lt_of_short hshort
    have hnil : bytes = [] := List.length_eq_zero_iff.1 (by omega)
    rw [hnil]
    rfl

end Token

namespace Protocol

/-- The numbers of a token, as the arguments that it is constructed from. -/
def tokenRow (t : Token) : List Datum := [.int t.character, .int t.length, .int t.scope]

/-- What packed tokens are read from: whole tokens in base64. -/
structure IsPacked (text : String) (data : List Char) (pads : Nat) : Prop where
  read : Base64.IsRead text.toList data pads
  whole : 8 ∣ 3 * data.length / 4

/-- A text is unpacked just if it is base64 of whole tokens. -/
theorem unpack_eq_ok_iff {text : String} {tokens : List Token} :
    Token.unpack text = .ok tokens ↔ ∃ data pads, IsPacked text data pads ∧
      tokens = Token.ofOctets (Base64.octets (Base64.groups data)) := by
  constructor
  · intro h
    obtain ⟨bytes, hbytes, hwhole, rfl⟩ := Token.exists_bytes_of_unpack h
    obtain ⟨data, pads, hread, rfl⟩ := Base64.decode_eq_ok_iff.1 hbytes
    rw [Base64.length_octets, Base64.length_groups hread.all] at hwhole
    exact ⟨data, pads, ⟨hread, Nat.dvd_of_mod_eq_zero hwhole⟩, rfl⟩
  · rintro ⟨data, pads, ⟨hread, hwhole⟩, rfl⟩
    refine Token.unpack_of_bytes (Base64.decode_eq_ok_iff.2 ⟨data, pads, hread, rfl⟩) ?_
    rw [Base64.length_octets, Base64.length_groups hread.all]
    exact Nat.mod_eq_zero_of_dvd hwhole

theorem decodeTokens_eq_ok_iff {text : String} {v : Datum} :
    decodeTokens (.str text) = .ok v ↔ ∃ tokens, Token.unpack text = .ok tokens ∧
      v = .list (tokens.map (Schema.tokenValue .semanticHighlightingToken)) := by
  rw [decodeTokens, Layer.ofJson, Schema.readTokens]
  cases hunpack : Token.unpack text with
  | ok tokens => simp [eq_comm]
  | error fault => cases fault <;> simp

theorem unpack_eq_nonAscii_iff {text : String} :
    Token.unpack text = .error .nonAscii ↔ ∃ c ∈ text.toList, 128 ≤ c.toNat := by
  have hany : (text.toList.any fun c => decide (128 ≤ c.toNat)) = true ↔
      ∃ c ∈ text.toList, 128 ≤ c.toNat := by
    simp only [List.any_eq_true, decide_eq_true_eq]
  rw [← hany, Token.unpack]
  split
  · rename_i hlarge
    exact iff_of_true rfl hlarge
  · rename_i hascii
    refine iff_of_false (fun h => ?_) hascii
    split at h
    · cases h
    · split at h <;> cases h

theorem decodeTokens_of_error {text : String} {fault : PackingFault}
    (h : Token.unpack text = .error fault) :
    decodeTokens (.str text) =
      if fault = .nonAscii then .error .nonAscii
      else .error (.mismatch (.tokens (.packing fault))) := by
  rw [decodeTokens, Layer.ofJson, Schema.readTokens, h]
  cases fault <;> rfl

theorem exists_decodeTokens_iff {text : String} :
    (∃ v, decodeTokens (.str text) = .ok v) ↔ ∃ data pads, IsPacked text data pads := by
  constructor
  · rintro ⟨v, hv⟩
    obtain ⟨tokens, hunpack, -⟩ := decodeTokens_eq_ok_iff.1 hv
    obtain ⟨data, pads, hpacked, -⟩ := unpack_eq_ok_iff.1 hunpack
    exact ⟨data, pads, hpacked⟩
  · rintro ⟨data, pads, hpacked⟩
    exact ⟨_, decodeTokens_eq_ok_iff.2 ⟨_, unpack_eq_ok_iff.2 ⟨data, pads, hpacked, rfl⟩, rfl⟩⟩

/-- Every other text has a fault that its packing stops at. -/
theorem exists_fault_of_not_isPacked {text : String} (h : ¬∃ data pads, IsPacked text data pads) :
    ∃ fault, Token.unpack text = .error fault := by
  cases hunpack : Token.unpack text with
  | ok tokens =>
    obtain ⟨data, pads, hpacked, -⟩ := unpack_eq_ok_iff.1 hunpack
    exact absurd ⟨data, pads, hpacked⟩ h
  | error fault => exact ⟨fault, rfl⟩

theorem mapM_tokenRow {enabled : Bool} {tokens : List Token} (h : ∀ t ∈ tokens, t.Fits) :
    (tokens.map tokenRow).mapM (constructOrdered enabled .semanticHighlightingToken) =
      .ok (tokens.map (Schema.tokenValue .semanticHighlightingToken)) := by
  rw [mapM_eq_ok_iff, List.forall₂_map_left_iff, List.forall₂_map_right_iff, List.forall₂_same]
  exact fun t ht => constructOrdered_token_iff.2 ⟨rfl, t, h t ht, standsFor_tokenValue t⟩

/-- A text is read as tokens just if it is base64 of whole tokens: characters that stand for six
bits, and the padding that may follow them. The tokens are as many as there are whole octets for,
their numbers fit, so that the constructor lets them through, and one after the other they make up
the number of the characters less the bits that are left over. What is written for them is read as
the same tokens, and it is the text again just if no padding and no bits have been passed over.
Every other text is refused, as data that does not fit or for a character outside ASCII. -/
theorem decodeTokens_language (enabled : Bool) (text : String) :
    ((∃ v, decodeTokens (.str text) = .ok v) ↔ ∃ data pads, IsPacked text data pads) ∧
      (∀ data pads, IsPacked text data pads → ∃ tokens : List Token,
        decodeTokens (.str text) =
            .ok (.list (tokens.map (Schema.tokenValue .semanticHighlightingToken))) ∧
          tokens.length = 3 * data.length / 4 / 8 ∧ (∀ t ∈ tokens, t.Fits) ∧
          (tokens.map tokenRow).mapM (constructOrdered enabled .semanticHighlightingToken) =
            .ok (tokens.map (Schema.tokenValue .semanticHighlightingToken)) ∧
          Nat.ofDigits (2 ^ 64) (tokens.map Token.number).reverse =
            Nat.ofDigits 64 (Base64.groups data).reverse / 2 ^ (6 * data.length % 8) ∧
          ∃ again, encodeTokens enabled (some (tokens.map tokenRow)) = .ok (.str again) ∧
            decodeTokens (.str again) = decodeTokens (.str text) ∧
            (again = text ↔ Base64.IsCanonical data pads)) ∧
      ((¬∃ data pads, IsPacked text data pads) →
        ((∀ c ∈ text.toList, c.toNat < 128) →
          ∃ fault, decodeTokens (.str text) = .error (.mismatch (.tokens fault))) ∧
        ((∃ c ∈ text.toList, 128 ≤ c.toNat) → decodeTokens (.str text) = .error .nonAscii)) := by
  refine ⟨exists_decodeTokens_iff, fun data pads hpacked => ?_, fun hnone => ?_⟩
  · have hunpack := unpack_eq_ok_iff.2 ⟨data, pads, hpacked, rfl⟩
    have hbytes := Base64.decode_eq_ok_iff.2 ⟨data, pads, hpacked.read, rfl⟩
    have hfits := Token.fits_of_unpack hunpack
    have hlength := Base64.length_groups hpacked.read.all
    have hdecode := decodeTokens_eq_ok_iff.2 ⟨_, hunpack, rfl⟩
    have hagain := Token.pack_of_unpack hunpack hbytes
    refine ⟨_, hdecode, ?_, hfits, mapM_tokenRow hfits, ?_, _,
      encodeTokens_eq (mapM_tokenRow hfits) (forall₂_standsFor_tokenValue _), ?_, ?_⟩
    · rw [Token.length_ofOctets, Base64.length_octets, hlength]
    · rw [Token.ofDigits_ofOctets, Base64.ofDigits_octets (Base64.groups_lt data), hlength]
      rw [Base64.length_octets, hlength]
      exact Nat.mod_eq_zero_of_dvd hpacked.whole
    · rw [hdecode]
      exact decodeTokens_eq_ok_iff.2 ⟨_, Token.unpack_pack hfits, rfl⟩
    · rw [hagain, ← Base64.encode_octets_eq_iff hpacked.read, ← String.toList_inj,
        String.toList_ofList]
  · obtain ⟨fault, hfault⟩ := exists_fault_of_not_isPacked hnone
    rw [decodeTokens_of_error hfault]
    constructor
    · intro hascii
      have hne : fault ≠ .nonAscii := by
        rintro rfl
        obtain ⟨c, hc, hlarge⟩ := unpack_eq_nonAscii_iff.1 hfault
        exact absurd (hascii c hc) (by omega)
      exact ⟨_, if_neg hne⟩
    · intro hlarge
      rw [unpack_eq_nonAscii_iff.2 hlarge] at hfault
      cases hfault
      exact if_pos rfl

/-- What is written for a token is not the text it has been read from if that has bits left over. -/
theorem decodeTokens_language_spareBits :
    IsPacked "AAAAAQACAAP=" "AAAAAQACAAP".toList 1 ∧
      ∃ again, decodeTokens (.str again) = decodeTokens (.str "AAAAAQACAAP=") ∧
        again ≠ "AAAAAQACAAP=" := by
  have hpacked : IsPacked "AAAAAQACAAP=" "AAAAAQACAAP".toList 1 :=
    ⟨⟨by decide, List.all_eq_true.1 rfl, .inr (.inr ⟨by decide, rfl⟩)⟩, by decide⟩
  have hspare : ¬Base64.IsCanonical "AAAAAQACAAP".toList 1 := fun h =>
    absurd (h.2 15 rfl) (by decide)
  obtain ⟨-, hread, -⟩ := decodeTokens_language false "AAAAAQACAAP="
  obtain ⟨tokens, -, -, -, -, -, again, -, hagain, hsame⟩ := hread _ _ hpacked
  exact ⟨hpacked, again, hagain, hsame.not.2 hspare⟩

/-- Bits that are left over and padding after whole groups are passed over. -/
example : decodeTokens (.str "AAAAAQACAAP=") = decodeTokens (.str "AAAAAQACAAM=") ∧
    decodeTokens (.str "AAAAAQACAAMAAAABAAIAAwAAAAEAAgAD===") =
      decodeTokens (.str "AAAAAQACAAMAAAABAAIAAwAAAAEAAgAD") :=
  ⟨rfl, rfl⟩

end Protocol

end LspWire
