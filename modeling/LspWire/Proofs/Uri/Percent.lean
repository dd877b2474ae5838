import LspWire.Proofs.Notation.Strings
import LspWire.Text.Percent
import Mathlib

/-!
# Encoded texts

A text that is encoded octet by octet is decoded as the text: the octets of a character are read as
the character, and the digits of an octet as the octet. An encoded text consists of characters that
stand for themselves and of percent signs, so it holds none of the marks that part a URI. Slashes
stand for themselves, so a text is cut at the same slashes as its encoded form.
-/

namespace LspWire.Text

/-! ## Octets of characters -/

namespace Utf8

theorem decodeFrom_cons (state : Option Begun) (x : Nat) (xs : List Nat) :
    decodeFrom state (x :: xs) = (next state x).1 ++ decodeFrom (next state x).2 xs := by
  cases state <;> rfl

/-- An octet of ASCII is a character. -/
theorem decodeFrom_ascii {x : Nat} (h : x < 0x80) (xs : List Nat) :
    decodeFrom none (x :: xs) = Char.ofNat x :: decodeFrom none xs := by
  rw [decodeFrom_cons, next, first, if_pos h]
  rfl

theorem decodeFrom_begun {x : Nat} {b : Begun} (hx : 0x80 ≤ x) (h : begun? x = some b)
    (xs : List Nat) : decodeFrom none (x :: xs) = decodeFrom (some b) xs := by
  rw [decodeFrom_cons, next, first, if_neg (Nat.not_lt.2 hx), h]
  rfl

theorem decodeFrom_more {value owed low high x : Nat} (hx : low ≤ x ∧ x ≤ high) (xs : List Nat) :
    decodeFrom (some ⟨value, owed + 2, low, high⟩) (x :: xs) =
      decodeFrom (some ⟨64 * value + (x - 0x80), owed + 1, 0x80, 0xBF⟩) xs := by
  rw [decodeFrom_cons, next, if_pos hx]
  dsimp only
  rw [if_neg (by omega)]
  rfl

theorem decodeFrom_last {value low high x : Nat} (hx : low ≤ x ∧ x ≤ high) (xs : List Nat) :
    decodeFrom (some ⟨value, 1, low, high⟩) (x :: xs) =
      Char.ofNat (64 * value + (x - 0x80)) :: decodeFrom none xs := by
  rw [decodeFrom_cons, next, if_pos hx]
  rfl

/-- The octets of a character are read as the character, whatever follows them. -/
theorem decodeFrom_encodeChar (c : Char) (xs : List Nat) :
    decodeFrom none (encodeChar c ++ xs) = c :: decodeFrom none xs := by
  have hvalid := Json.Reader.toNat_cases c
  have hchar {n : Nat} (h : n = c.toNat) : Char.ofNat n = c := h ▸ Char.ofNat_toNat c
  unfold encodeChar
  dsimp only
  split_ifs with hone htwo hthree
  · rw [List.singleton_append, decodeFrom_ascii hone, hchar rfl]
  · have hbegun : begun? (0xC0 + c.toNat / 64) = some ⟨c.toNat / 64, 1, 0x80, 0xBF⟩ := by
      rw [begun?, if_neg (by omega), if_pos (by omega), Nat.add_sub_cancel_left]
    rw [List.cons_append, List.singleton_append, decodeFrom_begun (by omega) hbegun,
      decodeFrom_last (by omega), hchar (by omega)]
  · have hbegun : begun? (0xE0 + c.toNat / 4096) = some ⟨c.toNat / 4096, 2,
        if 0xE0 + c.toNat / 4096 = 0xE0 then 0xA0 else 0x80,
        if 0xE0 + c.toNat / 4096 = 0xED then 0x9F else 0xBF⟩ := by
      rw [begun?, if_neg (by omega), if_neg (by omega), if_pos (by omega), Nat.add_sub_cancel_left]
    rw [List.cons_append, List.cons_append, List.singleton_append,
      decodeFrom_begun (by omega) hbegun,
      decodeFrom_more ⟨by split_ifs <;> omega, by split_ifs <;> omega⟩,
      decodeFrom_last (by omega), hchar (by omega)]
  · have hbegun : begun? (0xF0 + c.toNat / 262144) = some ⟨c.toNat / 262144, 3,
        if 0xF0 + c.toNat / 262144 = 0xF0 then 0x90 else 0x80,
        if 0xF0 + c.toNat / 262144 = 0xF4 then 0x8F else 0xBF⟩ := by
      rw [begun?, if_neg (by omega), if_neg (by omega), if_neg (by omega), if_pos (by omega),
        Nat.add_sub_cancel_left]
    rw [List.cons_append, List.cons_append, List.cons_append, List.singleton_append,
      decodeFrom_begun (by omega) hbegun,
      decodeFrom_more ⟨by split_ifs <;> omega, by split_ifs <;> omega⟩,
      decodeFrom_more (by omega), decodeFrom_last (by omega), hchar (by omega)]

theorem decode_encode (cs : List Char) : decode (encode cs) = cs := by
  induction cs with
  | nil => rfl
  | cons c cs ih =>
    rw [decode] at ih ⊢
    rw [encode_cons, decodeFrom_encodeChar, ih]

theorem encodeChar_lt {c : Char} : ∀ x ∈ encodeChar c, x < 256 := by
  have hvalid := Json.Reader.toNat_cases c
  unfold encodeChar
  dsimp only
  split_ifs <;> simp only [List.mem_cons, List.not_mem_nil, or_false] <;> rintro x h <;> omega

theorem eq_of_mem_encodeChar {c : Char} {x : Nat} (hx : x ∈ encodeChar c) (h : x < 0x80) :
    c = Char.ofNat x := by
  unfold encodeChar at hx
  dsimp only at hx
  split_ifs at hx <;> simp only [List.mem_cons, List.not_mem_nil, or_false] at hx
  · rw [hx, Char.ofNat_toNat]
  all_goals omega

theorem encode_lt {cs : List Char} : ∀ x ∈ encode cs, x < 256 := by
  intro x hx
  obtain ⟨c, -, hxc⟩ := List.mem_flatMap.1 hx
  exact encodeChar_lt x hxc

end Utf8

/-! ## Digits of octets -/

theorem hex_two {n : Nat} (h : n < 256) : hex 2 n = [(n / 16).digitChar, (n % 16).digitChar] := by
  rw [hex_succ (by decide), hex_one (by omega)]
  rfl

theorem hexValue?_toUpper_digitChar {n : Nat} (h : n < 16) :
    hexValue? n.digitChar.toUpper = some n := by
  interval_cases n <;> rfl

namespace Percent

theorem isAlphanum_toUpper_digitChar {n : Nat} (h : n < 16) :
    n.digitChar.toUpper.isAlphanum = true := by
  interval_cases n <;> rfl

theorem encodeOctet_cases {x : Nat} (h : x < 256) :
    (x < 0x80 ∧ isPlain (Char.ofNat x) = true ∧ encodeOctet x = [Char.ofNat x]) ∨
      encodeOctet x = ['%', (x / 16).digitChar.toUpper, (x % 16).digitChar.toUpper] := by
  unfold encodeOctet
  split_ifs with hplain
  · rw [Bool.and_eq_true, decide_eq_true_eq] at hplain
    exact .inl ⟨hplain.1, hplain.2, rfl⟩
  · rw [hex_two h]
    exact .inr rfl

theorem octets_cons_of_ne {c : Char} (h : c ≠ '%') (cs : List Char) :
    octets (c :: cs) = Utf8.encodeChar c ++ octets cs := by
  rw [octets]
  simp [h]

theorem ne_percent_of_isPlain {c : Char} (h : isPlain c = true) : c ≠ '%' := by
  rintro rfl
  cases h

theorem octets_encodeOctet {x : Nat} (h : x < 256) (cs : List Char) :
    octets (encodeOctet x ++ cs) = x :: octets cs := by
  obtain ⟨hx, hplain, heq⟩ | heq := encodeOctet_cases h
  · have htoNat : (Char.ofNat x).toNat = x := by
      rw [Char.ofNat, dif_pos (.inl (by omega))]
      rfl
    rw [heq, List.singleton_append, octets_cons_of_ne (ne_percent_of_isPlain hplain),
      Utf8.encodeChar, htoNat, if_pos hx]
    rfl
  · have hoctet : octet? (x / 16).digitChar.toUpper (x % 16).digitChar.toUpper = some x := by
      rw [octet?, hexValue?_toUpper_digitChar (by omega), hexValue?_toUpper_digitChar (by omega)]
      exact congrArg some (by omega)
    rw [heq]
    change octets ('%' :: _ :: _ :: cs) = _
    rw [octets, hoctet]

theorem octets_encode (cs : List Char) : octets (encode cs) = Utf8.encode cs := by
  have hoctets (xs : List Nat) (h : ∀ x ∈ xs, x < 256) : octets (xs.flatMap encodeOctet) = xs := by
    induction xs with
    | nil => rfl
    | cons x xs ih =>
      rw [List.forall_mem_cons] at h
      rw [List.flatMap_cons, octets_encodeOctet h.1, ih h.2]
  exact hoctets _ Utf8.encode_lt

/-- Decoding undoes encoding. -/
@[simp] theorem decode_encode (cs : List Char) : decode (encode cs) = cs := by
  rw [decode, octets_encode, Utf8.decode_encode]

/-! ## Characters of encoded texts -/

theorem encode_append (cs ds : List Char) : encode (cs ++ ds) = encode cs ++ encode ds := by
  rw [encode, Utf8.encode, List.flatMap_append, List.flatMap_append]
  rfl

theorem encode_cons (c : Char) (cs : List Char) : encode (c :: cs) = encode [c] ++ encode cs :=
  encode_append [c] cs

theorem isPlain_toUpper_digitChar {n : Nat} (h : n < 16) :
    isPlain n.digitChar.toUpper = true := by
  rw [isPlain, isAlphanum_toUpper_digitChar h, Bool.true_or]

/-- Encoded texts consist of characters that stand for themselves and of percent signs. -/
theorem isPlain_or_eq_of_mem_encode {c : Char} {cs : List Char} (h : c ∈ encode cs) :
    isPlain c = true ∨ c = '%' := by
  obtain ⟨x, hx, hc⟩ := List.mem_flatMap.1 h
  obtain ⟨-, hplain, heq⟩ | heq := encodeOctet_cases (Utf8.encode_lt x hx)
  · rw [heq, List.mem_singleton] at hc
    exact .inl (hc ▸ hplain)
  · have hlt := Utf8.encode_lt x hx
    rw [heq, List.mem_cons, List.mem_cons, List.mem_singleton] at hc
    obtain rfl | rfl | rfl := hc
    · exact .inr rfl
    · exact .inl (isPlain_toUpper_digitChar (by omega))
    · exact .inl (isPlain_toUpper_digitChar (by omega))

theorem not_mem_encode {c : Char} (hplain : isPlain c = false) (hc : c ≠ '%') (cs : List Char) :
    c ∉ encode cs := by
  intro h
  obtain h | h := isPlain_or_eq_of_mem_encode h
  · rw [hplain] at h
    cases h
  · exact hc h

theorem bounds_of_isAlphanum {c : Char} (h : c.isAlphanum = true) :
    0x20 < c.toNat ∧ c.toNat < 0x80 := by
  have hn : c.val.toNat = c.toNat := rfl
  simp only [Char.isAlphanum, Char.isAlpha, Char.isUpper, Char.isLower, Char.isDigit,
    Bool.or_eq_true, Bool.and_eq_true, decide_eq_true_eq, UInt32.le_iff_toNat_le, ge_iff_le,
    hn] at h
  simp at h
  omega

theorem bounds_of_isPlain {c : Char} (h : isPlain c = true) : 0x20 < c.toNat ∧ c.toNat < 0x80 := by
  rw [isPlain, Bool.or_eq_true] at h
  obtain h | h := h
  · exact bounds_of_isAlphanum h
  · have hmarks : ∀ d ∈ "_.-~/".toList, 0x20 < d.toNat ∧ d.toNat < 0x80 := by simp
    exact hmarks c (List.contains_iff_mem.1 h)

theorem encode_singleton {c : Char} (h : isPlain c = true) : encode [c] = [c] := by
  have hc := (bounds_of_isPlain h).2
  have hchar : Utf8.encodeChar c = [c.toNat] := if_pos hc
  rw [encode, Utf8.encode_cons, Utf8.encode_nil, List.append_nil, hchar, List.flatMap_singleton,
    encodeOctet, Char.ofNat_toNat, h, decide_eq_true hc]
  rfl

theorem encode_cons_of_isPlain {c : Char} (h : isPlain c = true) (cs : List Char) :
    encode (c :: cs) = c :: encode cs := by
  rw [encode_cons, encode_singleton h, List.singleton_append]

theorem encode_slash (cs : List Char) : encode ('/' :: cs) = '/' :: encode cs :=
  encode_cons_of_isPlain rfl cs

theorem slash_not_mem_encode {c : Char} (hc : c ≠ '/') : '/' ∉ encode [c] := by
  intro h
  obtain ⟨x, hx, hslash⟩ := List.mem_flatMap.1 h
  obtain ⟨hascii, -, heq⟩ | heq := encodeOctet_cases (Utf8.encode_lt x hx)
  · rw [Utf8.encode_cons, Utf8.encode_nil, List.append_nil] at hx
    rw [heq, List.mem_singleton] at hslash
    exact hc ((Utf8.eq_of_mem_encodeChar hx hascii).trans hslash.symm)
  · have hlt := Utf8.encode_lt x hx
    have hdigit {n : Nat} (hn : n < 16) : n.digitChar.toUpper ≠ '/' := by
      intro heq
      have halphanum := isAlphanum_toUpper_digitChar hn
      rw [heq] at halphanum
      cases halphanum
    rw [heq, List.mem_cons, List.mem_cons, List.mem_singleton] at hslash
    obtain hslash | hslash | hslash := hslash
    · cases hslash
    · exact hdigit (by omega) hslash.symm
    · exact hdigit (by omega) hslash.symm

theorem takeWhile_encode (cs : List Char) :
    (encode cs).takeWhile (· ≠ '/') = encode (cs.takeWhile (· ≠ '/')) := by
  induction cs with
  | nil => rfl
  | cons c cs ih =>
    by_cases hc : c = '/'
    · subst hc
      rw [encode_slash, List.takeWhile_cons_of_neg (by decide),
        List.takeWhile_cons_of_neg (by decide), encode_nil]
    · have hne : ∀ d ∈ encode [c], decide (d ≠ '/') = true := fun d hd =>
        decide_eq_true fun heq => slash_not_mem_encode hc (heq ▸ hd)
      have hpos : (c :: cs).takeWhile (· ≠ '/') = c :: cs.takeWhile (· ≠ '/') :=
        List.takeWhile_cons_of_pos (decide_eq_true hc)
      rw [encode_cons, List.takeWhile_append_of_pos hne, ih, hpos, encode_cons c (cs.takeWhile _)]

theorem slash_not_mem_encode_of_not_mem {cs : List Char} (h : '/' ∉ cs) : '/' ∉ encode cs := by
  have htake : cs.takeWhile (· ≠ '/') = cs :=
    List.takeWhile_eq_self_iff.2 fun c hc => decide_eq_true fun heq => h (heq ▸ hc)
  have hall := List.takeWhile_eq_self_iff.1 ((takeWhile_encode cs).trans (congrArg encode htake))
  exact fun hmem => of_decide_eq_true (hall _ hmem) rfl

theorem dropWhile_encode (cs : List Char) :
    (encode cs).dropWhile (· ≠ '/') = encode (cs.dropWhile (· ≠ '/')) := by
  have happend : (encode cs).takeWhile (· ≠ '/') ++ (encode cs).dropWhile (· ≠ '/') =
      encode (cs.takeWhile (· ≠ '/')) ++ encode (cs.dropWhile (· ≠ '/')) := by
    rw [List.takeWhile_append_dropWhile, ← encode_append, List.takeWhile_append_dropWhile]
  rw [takeWhile_encode] at happend
  exact List.append_cancel_left happend

theorem encode_ne_nil {cs : List Char} (h : cs ≠ []) : encode cs ≠ [] := fun hnil =>
  h (by rw [← decode_encode cs, hnil, decode_nil])

theorem length_le_length_encode (cs : List Char) : cs.length ≤ (encode cs).length := by
  induction cs with
  | nil => exact Nat.le_refl 0
  | cons c cs ih =>
    have hpos : 0 < (encode [c]).length :=
      List.length_pos_iff.2 (encode_ne_nil (List.cons_ne_nil c []))
    rw [encode_cons, List.length_append, List.length_cons]
    omega

theorem encode_eq_self_iff {cs : List Char} : encode cs = cs ↔ ∀ c ∈ cs, isPlain c = true := by
  induction cs with
  | nil => simp
  | cons c cs ih =>
    rw [List.forall_mem_cons, ← ih]
    constructor
    · intro h
      obtain hplain | rfl := isPlain_or_eq_of_mem_encode (h ▸ List.mem_cons_self (a := c) (l := cs))
      · rw [encode_cons_of_isPlain hplain] at h
        exact ⟨hplain, (List.cons.inj h).2⟩
      · -- A percent sign takes three characters, so nothing makes up for the other two.
        have hpercent : encode ['%'] = ['%', '2', '5'] := by decide
        have hlength := congrArg List.length h
        have hle := length_le_length_encode cs
        rw [encode_cons, hpercent, List.length_append] at hlength
        simp only [List.length_cons, List.length_nil] at hlength
        omega
    · rintro ⟨hplain, h⟩
      rw [encode_cons_of_isPlain hplain, h]

/-! ## Slashes in front -/

theorem decode_slash (cs : List Char) : decode ('/' :: cs) = '/' :: decode cs := by
  rw [decode, octets_cons_of_ne (by decide)]
  exact Utf8.decodeFrom_ascii (by decide) _

theorem head?_encode_iff {cs : List Char} :
    (encode cs).head? = some '/' ↔ cs.head? = some '/' := by
  constructor
  · intro h
    obtain ⟨rest, hrest⟩ := List.head?_eq_some_iff.1 h
    rw [← decode_encode cs, hrest, decode_slash]
    rfl
  · intro h
    obtain ⟨rest, rfl⟩ := List.head?_eq_some_iff.1 h
    rw [encode_slash]
    rfl

end Percent

end LspWire.Text
