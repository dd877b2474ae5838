import LspWire.Token.Packing

/-!
# Packed tokens come back

Octets come back from their base64 text, and tokens whose numbers fit come back from their packed
text. A text that is unpacked at all stands for tokens whose numbers fit, and packing these gives the
text of the same octets, which may differ from the one that was unpacked.
-/

namespace LspWire

namespace Base64

/-! ## Texts of octets -/

theorem alphabet_ne_pad {s : Nat} (h : s < 64) : alphabet s ≠ '=' := by
  have all : ∀ s : Fin 64, alphabet s ≠ '=' := by decide
  exact all ⟨s, h⟩

theorem toNat_alphabet_lt {s : Nat} (h : s < 64) : (alphabet s).toNat < 128 := by
  have all : ∀ s : Fin 64, (alphabet s).toNat < 128 := by decide
  exact all ⟨s, h⟩

theorem scan_alphabet {s : Nat} (h : s < 64) (quad pads count : Nat) (cs : List Char) :
    scan quad pads count false (alphabet s :: cs) =
      (scan ((quad + 1) % 4) 0 (count + 1) false cs).map (s :: ·) := by
  rw [scan, if_neg (alphabet_ne_pad h), sextet?_alphabet h]
  rfl

/-- The six-bit groups of octets. -/
def sextets : List Nat → List Nat
  | x :: y :: z :: rest =>
    x / 4 :: (16 * (x % 4) + y / 16) :: (4 * (y % 16) + z / 64) :: z % 64 :: sextets rest
  | [x, y] => [x / 4, 16 * (x % 4) + y / 16, 4 * (y % 16)]
  | [x] => [x / 4, 16 * (x % 4)]
  | [] => []

theorem scan_encode {bytes : List Nat} (h : ∀ x ∈ bytes, x < 256) (count : Nat) :
    scan 0 0 count false (encode bytes) = .ok (sextets bytes) := by
  induction bytes using encode.induct generalizing count with
  | case1 x y z rest ih =>
    simp only [List.forall_mem_cons] at h
    rw [encode, scan_alphabet (by omega), scan_alphabet (by omega), scan_alphabet (by omega),
      scan_alphabet (by omega), ih h.2.2.2]
    rfl
  | case2 x y =>
    simp only [List.forall_mem_cons] at h
    rw [encode, scan_alphabet (by omega), scan_alphabet (by omega), scan_alphabet (by omega)]
    rfl
  | case3 x =>
    simp only [List.forall_mem_cons] at h
    rw [encode, scan_alphabet (by omega), scan_alphabet (by omega)]
    rfl
  | case4 => rfl

theorem octets_sextets {bytes : List Nat} (h : ∀ x ∈ bytes, x < 256) :
    octets (sextets bytes) = bytes := by
  induction bytes using sextets.induct with
  | case1 x y z rest ih =>
    simp only [List.forall_mem_cons] at h
    rw [sextets, octets, ih h.2.2.2, List.cons.injEq, List.cons.injEq, List.cons.injEq]
    exact ⟨by omega, by omega, by omega, rfl⟩
  | case2 x y =>
    simp only [List.forall_mem_cons] at h
    rw [sextets, octets, List.cons.injEq, List.cons.injEq]
    exact ⟨by omega, by omega, rfl⟩
  | case3 x =>
    simp only [List.forall_mem_cons] at h
    rw [sextets, octets, List.cons.injEq]
    exact ⟨by omega, rfl⟩
  | case4 => rfl

theorem encode_ne_pad {bytes : List Nat} (h : ∀ x ∈ bytes, x < 256) (cs : List Char) :
    encode bytes ≠ '=' :: cs := by
  have hhead {x : Nat} (hx : x < 256) {rest : List Char} : alphabet (x / 4) :: rest ≠ '=' :: cs :=
    fun heq => alphabet_ne_pad (by omega) (List.cons.inj heq).1
  match bytes, h with
  | x :: y :: z :: rest, h => exact hhead (h x List.mem_cons_self)
  | [x, y], h => exact hhead (h x List.mem_cons_self)
  | [x], h => exact hhead (h x List.mem_cons_self)
  | [], _ => nofun

theorem toNat_lt_of_mem_encode {bytes : List Nat} (h : ∀ x ∈ bytes, x < 256) :
    ∀ c ∈ encode bytes, c.toNat < 128 := by
  have hpad : ('='.toNat) < 128 := by decide
  induction bytes using encode.induct with
  | case1 x y z rest ih =>
    simp only [List.forall_mem_cons] at h
    simp only [encode, List.forall_mem_cons]
    exact ⟨toNat_alphabet_lt (by omega), toNat_alphabet_lt (by omega), toNat_alphabet_lt (by omega),
      toNat_alphabet_lt (by omega), ih h.2.2.2⟩
  | case2 x y =>
    simp only [List.forall_mem_cons] at h
    simp only [encode, List.forall_mem_cons]
    exact ⟨toNat_alphabet_lt (by omega), toNat_alphabet_lt (by omega), toNat_alphabet_lt (by omega),
      hpad, List.forall_mem_nil _⟩
  | case3 x =>
    simp only [List.forall_mem_cons] at h
    simp only [encode, List.forall_mem_cons]
    exact ⟨toNat_alphabet_lt (by omega), toNat_alphabet_lt (by omega), hpad, hpad,
      List.forall_mem_nil _⟩
  | case4 => exact List.forall_mem_nil _

/-- A text that does not begin with padding is scanned. -/
theorem decode_eq_scan {text : List Char} (h : ∀ cs, text ≠ '=' :: cs) :
    decode text = (scan 0 0 0 false text).map octets := by
  unfold decode
  split
  · exact absurd rfl (h _)
  · rfl

/-- Octets come back from their text. -/
theorem decode_encode {bytes : List Nat} (h : ∀ x ∈ bytes, x < 256) :
    decode (encode bytes) = .ok bytes := by
  rw [decode_eq_scan (encode_ne_pad h), scan_encode h, Except.map, octets_sextets h]

/-! ## Octets of texts -/

theorem sextet?_lt {c : Char} {s : Nat} (h : sextet? c = some s) : s < 64 := by
  unfold sextet? at h
  dsimp only at h
  split at h
  · simp only [Option.some.injEq] at h
    omega
  · split at h
    · simp only [Option.some.injEq] at h
      omega
    · split at h
      · simp only [Option.some.injEq] at h
        omega
      · split at h
        · simp only [Option.some.injEq] at h
          omega
        · split at h
          · simp only [Option.some.injEq] at h
            omega
          · cases h

theorem scan_lt {quad pads count : Nat} {padded : Bool} {cs : List Char} {groups : List Nat}
    (h : scan quad pads count padded cs = .ok groups) : ∀ s ∈ groups, s < 64 := by
  induction cs generalizing quad pads count padded groups with
  | nil =>
    rw [scan] at h
    split at h
    · cases h
      exact List.forall_mem_nil _
    · split at h <;> cases h
  | cons c cs ih =>
    rw [scan] at h
    split at h
    · split at h
      · exact ih h
      · split at h
        · exact ih h
        · split at h
          · cases h
            exact List.forall_mem_nil _
          · cases h
    · split at h
      · cases h
      · rename_i s hs
        split at h
        · cases h
        · cases hrest : scan ((quad + 1) % 4) 0 (count + 1) false cs with
          | error fault =>
            rw [hrest] at h
            cases h
          | ok rest =>
            rw [hrest] at h
            cases h
            exact List.forall_mem_cons.2 ⟨sextet?_lt hs, ih hrest⟩

theorem toNat_lt_of_sextet? {c : Char} {s : Nat} (h : sextet? c = some s) : c.toNat < 128 := by
  unfold sextet? at h
  dsimp only at h
  split at h
  · omega
  · split at h
    · omega
    · split at h
      · omega
      · split at h
        · rename_i hc
          rw [hc]
          decide
        · split at h
          · rename_i hc
            rw [hc]
            decide
          · cases h

theorem toNat_lt_of_scan {quad pads count : Nat} {padded : Bool} {cs : List Char}
    {groups : List Nat} (h : scan quad pads count padded cs = .ok groups) :
    ∀ c ∈ cs, c.toNat < 128 := by
  induction cs generalizing quad pads count padded groups with
  | nil => exact List.forall_mem_nil _
  | cons c cs ih =>
    rw [scan] at h
    split at h
    · rename_i hpad
      refine List.forall_mem_cons.2 ⟨hpad ▸ by decide, ?_⟩
      split at h
      · exact ih h
      · split at h
        · exact ih h
        · split at h
          · rename_i hempty
            rw [List.isEmpty_iff.1 hempty]
            exact List.forall_mem_nil _
          · cases h
    · split at h
      · cases h
      · rename_i s hs
        refine List.forall_mem_cons.2 ⟨toNat_lt_of_sextet? hs, ?_⟩
        split at h
        · cases h
        · cases hrest : scan ((quad + 1) % 4) 0 (count + 1) false cs with
          | error fault =>
            rw [hrest] at h
            cases h
          | ok rest => exact ih hrest

theorem toNat_lt_of_decode {text : List Char} {bytes : List Nat} (h : decode text = .ok bytes) :
    ∀ c ∈ text, c.toNat < 128 := by
  unfold decode at h
  split at h
  · cases h
  · cases hscan : scan 0 0 0 false text with
    | error fault =>
      rw [hscan] at h
      cases h
    | ok groups => exact toNat_lt_of_scan hscan

theorem octets_lt {groups : List Nat} (h : ∀ s ∈ groups, s < 64) :
    ∀ x ∈ octets groups, x < 256 := by
  induction groups using octets.induct with
  | case1 a b c d rest ih =>
    simp only [List.forall_mem_cons] at h
    simp only [octets, List.forall_mem_cons]
    exact ⟨by omega, by omega, by omega, ih h.2.2.2.2⟩
  | case2 a b c =>
    simp only [List.forall_mem_cons] at h
    simp only [octets, List.forall_mem_cons]
    exact ⟨by omega, by omega, List.forall_mem_nil _⟩
  | case3 a b =>
    simp only [List.forall_mem_cons] at h
    simp only [octets, List.forall_mem_cons]
    exact ⟨by omega, List.forall_mem_nil _⟩
  | case4 groups => simp [octets]

theorem decode_lt {text : List Char} {bytes : List Nat} (h : decode text = .ok bytes) :
    ∀ x ∈ bytes, x < 256 := by
  unfold decode at h
  split at h
  · cases h
  · cases hscan : scan 0 0 0 false text with
    | error fault =>
      rw [hscan] at h
      cases h
    | ok groups =>
      rw [hscan] at h
      cases h
      exact octets_lt (scan_lt hscan)

end Base64

namespace Token

/-! ## Octets of tokens -/

theorem bigEndian_lt (width n : Nat) : ∀ x ∈ bigEndian width n, x < 256 := by
  induction width with
  | zero => exact List.forall_mem_nil _
  | succ width ih => exact List.forall_mem_cons.2 ⟨Nat.mod_lt _ (by decide), ih⟩

theorem octets_lt (t : Token) : ∀ x ∈ t.octets, x < 256 := by
  intro x hx
  rw [octets, List.mem_append, List.mem_append] at hx
  rcases hx with (hx | hx) | hx
  · exact bigEndian_lt 4 _ x hx
  · exact bigEndian_lt 2 _ x hx
  · exact bigEndian_lt 2 _ x hx

/-- The octets of a number make up what fits of it. -/
theorem foldl_bigEndian (width n m : Nat) :
    (bigEndian width n).foldl (fun n x => 256 * n + x) m = 256 ^ width * m + n % 256 ^ width := by
  induction width generalizing m with
  | zero => simp [bigEndian, Nat.mod_one]
  | succ width ih =>
    rw [bigEndian, List.foldl_cons, ih, Nat.mul_add, Nat.add_assoc, ← Nat.mul_assoc, ← Nat.pow_succ,
      Nat.pow_succ, Nat.mod_mul, Nat.add_comm (n % 256 ^ width)]

theorem ofBigEndian_bigEndian (width : Nat) {n : Nat} (h : n < 256 ^ width) :
    ofBigEndian (bigEndian width n) = n := by
  rw [ofBigEndian, foldl_bigEndian, Nat.mod_eq_of_lt h, Nat.mul_zero, Nat.zero_add]

theorem bigEndian_ofBigEndian_pair {a b : Nat} (ha : a < 256) (hb : b < 256) :
    bigEndian 2 (ofBigEndian [a, b]) = [a, b] := by
  simp only [bigEndian, ofBigEndian, List.foldl_cons, List.foldl_nil, List.cons.injEq, and_true]
  omega

theorem bigEndian_ofBigEndian_quad {a b c d : Nat} (ha : a < 256) (hb : b < 256) (hc : c < 256)
    (hd : d < 256) : bigEndian 4 (ofBigEndian [a, b, c, d]) = [a, b, c, d] := by
  simp only [bigEndian, ofBigEndian, List.foldl_cons, List.foldl_nil, List.cons.injEq, and_true]
  omega

theorem ofOctets_append {t : Token} (h : t.Fits) (rest : List Nat) :
    ofOctets (t.octets ++ rest) = t :: ofOctets rest := by
  have hcharacter := ofBigEndian_bigEndian 4 h.1
  have hlength := ofBigEndian_bigEndian 2 h.2.1
  have hscope := ofBigEndian_bigEndian 2 h.2.2
  simp only [bigEndian] at hcharacter hlength hscope
  simp only [octets, bigEndian, List.cons_append, List.nil_append, ofOctets]
  rw [hcharacter, hlength, hscope]

theorem ofOctets_flatMap {tokens : List Token} (h : ∀ t ∈ tokens, t.Fits) :
    ofOctets (tokens.flatMap octets) = tokens := by
  induction tokens with
  | nil => rfl
  | cons t ts ih =>
    rw [List.forall_mem_cons] at h
    rw [List.flatMap_cons, ofOctets_append h.1, ih h.2]

theorem fits_of_mem_ofOctets {bytes : List Nat} (h : ∀ x ∈ bytes, x < 256) :
    ∀ t ∈ ofOctets bytes, t.Fits := by
  induction bytes using ofOctets.induct with
  | case1 a b c d e f g h' rest ih =>
    simp only [List.forall_mem_cons] at h
    simp only [ofOctets, List.forall_mem_cons, Fits, ofBigEndian, List.foldl_cons, List.foldl_nil]
    exact ⟨⟨by omega, by omega, by omega⟩, ih h.2.2.2.2.2.2.2.2⟩
  | case2 bytes hshort => simp [ofOctets]

theorem length_lt_of_short {bytes : List Nat} (hshort : ∀ a b c d e f g h rest,
    bytes = a :: b :: c :: d :: e :: f :: g :: h :: rest → False) : bytes.length < 8 := by
  rcases bytes with _ | ⟨a, _ | ⟨b, _ | ⟨c, _ | ⟨d, _ | ⟨e, _ | ⟨f, _ | ⟨g, _ | ⟨h, rest⟩⟩⟩⟩⟩⟩⟩⟩
  iterate 8 · simp
  · exact absurd rfl (hshort a b c d e f g h rest)

theorem flatMap_ofOctets {bytes : List Nat} (h : ∀ x ∈ bytes, x < 256)
    (hwhole : bytes.length % 8 = 0) : (ofOctets bytes).flatMap octets = bytes := by
  induction bytes using ofOctets.induct with
  | case1 a b c d e f g h' rest ih =>
    simp only [List.forall_mem_cons] at h
    obtain ⟨ha, hb, hc, hd, he, hf, hg, hh, hrest⟩ := h
    rw [List.length_cons, List.length_cons, List.length_cons, List.length_cons, List.length_cons,
      List.length_cons, List.length_cons, List.length_cons] at hwhole
    rw [ofOctets, List.flatMap_cons, ih hrest (by omega), octets,
      bigEndian_ofBigEndian_quad ha hb hc hd, bigEndian_ofBigEndian_pair he hf,
      bigEndian_ofBigEndian_pair hg hh]
    rfl
  | case2 bytes hshort =>
    have hlt := length_lt_of_short hshort
    have hnil : bytes = [] := List.length_eq_zero_iff.1 (by omega)
    rw [hnil]
    rfl

/-! ## Texts of tokens -/

theorem flatMap_octets_lt (tokens : List Token) : ∀ x ∈ tokens.flatMap octets, x < 256 := by
  intro x hx
  obtain ⟨t, -, ht⟩ := List.mem_flatMap.1 hx
  exact octets_lt t x ht

theorem length_flatMap_octets (tokens : List Token) :
    (tokens.flatMap octets).length % 8 = 0 := by
  induction tokens with
  | nil => rfl
  | cons t ts ih => rw [List.flatMap_cons, List.length_append, length_octets, Nat.add_mod_left, ih]

/-- Tokens whose numbers fit come back from their text. -/
theorem unpack_pack {tokens : List Token} (h : ∀ t ∈ tokens, t.Fits) :
    unpack (pack tokens) = .ok tokens := by
  have hbytes := flatMap_octets_lt tokens
  have hascii : ¬((Base64.encode (tokens.flatMap octets)).any fun c => decide (128 ≤ c.toNat)) =
      true := by
    rw [List.any_eq_true]
    rintro ⟨c, hc, hlarge⟩
    have hsmall := Base64.toNat_lt_of_mem_encode hbytes c hc
    exact absurd (of_decide_eq_true hlarge) (by omega)
  rw [unpack, pack, String.toList_ofList, if_neg hascii, Base64.decode_encode hbytes]
  dsimp only
  rw [if_pos (length_flatMap_octets tokens), ofOctets_flatMap h]

theorem exists_bytes_of_unpack {text : String} {tokens : List Token}
    (h : unpack text = .ok tokens) :
    ∃ bytes, Base64.decode text.toList = .ok bytes ∧ bytes.length % 8 = 0 ∧
      tokens = ofOctets bytes := by
  unfold unpack at h
  dsimp only at h
  split at h
  · cases h
  · split at h
    · cases h
    · rename_i bytes hbytes
      split at h
      · rename_i hwhole
        exact ⟨bytes, hbytes, hwhole, (Except.ok.inj h).symm⟩
      · cases h

theorem unpack_of_bytes {text : String} {bytes : List Nat}
    (hbytes : Base64.decode text.toList = .ok bytes) (hwhole : bytes.length % 8 = 0) :
    unpack text = .ok (ofOctets bytes) := by
  have hascii : ¬(text.toList.any fun c => decide (128 ≤ c.toNat)) = true := by
    rw [List.any_eq_true]
    rintro ⟨c, hc, hlarge⟩
    have hsmall := Base64.toNat_lt_of_decode hbytes c hc
    exact absurd (of_decide_eq_true hlarge) (by omega)
  rw [unpack, if_neg hascii, hbytes]
  exact if_pos hwhole

theorem fits_of_unpack {text : String} {tokens : List Token} (h : unpack text = .ok tokens) :
    ∀ t ∈ tokens, t.Fits := by
  obtain ⟨bytes, hbytes, -, rfl⟩ := exists_bytes_of_unpack h
  exact fits_of_mem_ofOctets (Base64.decode_lt hbytes)

/-- Unpacked tokens are packed into the text of the same octets. -/
theorem pack_of_unpack {text : String} {tokens : List Token} {bytes : List Nat}
    (h : unpack text = .ok tokens) (hbytes : Base64.decode text.toList = .ok bytes) :
    pack tokens = String.ofList (Base64.encode bytes) := by
  obtain ⟨bytes', hbytes', hwhole, rfl⟩ := exists_bytes_of_unpack h
  rw [hbytes, Except.ok.injEq] at hbytes'
  subst hbytes'
  rw [pack, flatMap_ofOctets (Base64.decode_lt hbytes) hwhole]

end Token

end LspWire
