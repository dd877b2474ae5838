import LspWire.Json.Printer
import LspWire.Json.Reader
import Mathlib.Data.Nat.Digits.Defs
import Mathlib.Tactic.IntervalCases

/-!
# Strings in notation

A written string is read as the string, whatever text follows it. Character by character, the reader
takes what has been written for a character as the codes of the character: its own, or those of the
two halves of a pair. The halves are no numbers of characters, so the codes of a text give the text
back.
-/

namespace LspWire

namespace Text

theorem hexValue?_digitChar {n : Nat} (h : n < 16) : hexValue? n.digitChar = some n := by
  interval_cases n <;> rfl

theorem hex_one {n : Nat} (h : n < 16) : hex 1 n = [n.digitChar] := by
  rw [hex, Nat.toDigits_of_lt_base h]
  rfl

/-- The last digit of a number stands after the digits of its quotient, zeros in front included. -/
theorem hex_succ {width : Nat} (hwidth : 0 < width) (n : Nat) :
    hex (width + 1) n = hex width (n / 16) ++ [(n % 16).digitChar] := by
  rw [hex, hex, Nat.toDigits_eq_if (by decide)]
  split
  · rename_i h
    obtain ⟨width, rfl⟩ := Nat.exists_eq_add_of_lt hwidth
    rw [Nat.div_eq_of_lt h, Nat.mod_eq_of_lt h, Nat.toDigits_zero]
    simp [List.replicate_succ']
  · simp

theorem hex_four {n : Nat} (h : n < 0x10000) :
    hex 4 n = [(n / 16 / 16 / 16).digitChar, (n / 16 / 16 % 16).digitChar,
      (n / 16 % 16).digitChar, (n % 16).digitChar] := by
  rw [hex_succ (by decide), hex_succ (by decide), hex_succ (by decide), hex_one (by omega)]
  rfl

end Text

namespace Json.Reader

variable {start cs : List Char}

/-! ## Codes -/

theorem code?_digitChar {n : Nat} (h : n < 0x10000) :
    code? (n / 16 / 16 / 16).digitChar (n / 16 / 16 % 16).digitChar (n / 16 % 16).digitChar
      (n % 16).digitChar = some n := by
  have hlast (m : Nat) : Text.hexValue? (m % 16).digitChar = some (m % 16) :=
    Text.hexValue?_digitChar (Nat.mod_lt m (by decide))
  rw [code?, Text.hexValue?_digitChar (by omega), hlast, hlast, hlast]
  exact congrArg some (by omega)

theorem codes_cons {c : Char} (hquote : c ≠ '"') (hescape : c ≠ '\\') (hc : 0x20 ≤ c.toNat) :
    codes start (c :: cs) = (codes start cs).map fun (ns, after) => (c.toNat :: ns, after) := by
  rw [codes]
  · rw [if_neg (Nat.not_lt.2 hc)]
  all_goals simp [hquote, hescape]

theorem codes_shortEscape {c d : Char} (h : shortEscape? c = some d) :
    codes start ('\\' :: c :: cs) =
      (codes start cs).map fun (ns, after) => (d.toNat :: ns, after) := by
  have hne : c ≠ 'u' := by
    rintro rfl
    cases h
  rw [codes]
  · rw [h]
  all_goals simp [hne]

theorem codes_unitEscape {n : Nat} (h : n < 0x10000) (hcs : cs ≠ []) :
    codes start (unitEscape n ++ cs) =
      (codes start cs).map fun (ns, after) => (n :: ns, after) := by
  have hempty : cs.isEmpty = false := by simpa using hcs
  rw [unitEscape, Text.hex_four h]
  change codes start ('\\' :: 'u' :: _ :: _ :: _ :: _ :: cs) = _
  rw [codes, code?_digitChar h, hempty]

/-- The codes that stand for a character: its own, or those of two halves. -/
def units (c : Char) : List Nat :=
  if c.toNat < 0x10000 then [c.toNat]
  else [0xD800 + (c.toNat - 0x10000) / 0x400, 0xDC00 + (c.toNat - 0x10000) % 0x400]

theorem units_of_lt {c : Char} (h : c.toNat < 0x10000) : units c = [c.toNat] := if_pos h

/-- The numbers of characters leave out the halves of pairs. -/
theorem toNat_cases (c : Char) :
    c.toNat < 0xD800 ∨ 0xDFFF < c.toNat ∧ c.toNat < 0x110000 :=
  c.valid

theorem halves_lt (c : Char) :
    0xD800 + (c.toNat - 0x10000) / 0x400 < 0x10000 ∧
      0xDC00 + (c.toNat - 0x10000) % 0x400 < 0x10000 := by
  have hvalid := toNat_cases c
  omega

theorem escapedChar_cases (c : Char) :
    (∃ e, escapedChar c = ['\\', e] ∧ shortEscape? e = some c ∧ c.toNat < 0x10000) ∨
      (escapedChar c = [c] ∧ c ≠ '"' ∧ c ≠ '\\' ∧ 0x20 ≤ c.toNat ∧ c.toNat < 0x10000) ∨
      (escapedChar c = unitEscape c.toNat ∧ c.toNat < 0x10000) ∨
      (escapedChar c = unitEscape (0xD800 + (c.toNat - 0x10000) / 0x400) ++
        unitEscape (0xDC00 + (c.toNat - 0x10000) % 0x400) ∧ 0x10000 ≤ c.toNat) := by
  by_cases hshort : ∃ e, escapedChar c = ['\\', e] ∧ shortEscape? e = some c ∧ c.toNat < 0x10000
  · exact .inl hshort
  -- A character without a short escape is none of those that are looked for first.
  have hne (e : Char) {d : Char} (he : shortEscape? e = some d) (hlt : d.toNat < 0x10000)
      (hd : escapedChar d = ['\\', e]) : c ≠ d := by
    rintro rfl
    exact hshort ⟨e, hd, he, hlt⟩
  have hquote : c ≠ '"' := hne '"' rfl (by decide) rfl
  have hescape : c ≠ '\\' := hne '\\' rfl (by decide) rfl
  rw [escapedChar, if_neg hquote, if_neg hescape, if_neg (hne 'n' rfl (by decide) rfl),
    if_neg (hne 'r' rfl (by decide) rfl), if_neg (hne 't' rfl (by decide) rfl),
    if_neg (hne 'b' rfl (by decide) rfl), if_neg (hne 'f' rfl (by decide) rfl)]
  refine .inr ?_
  split
  · rename_i hplain
    exact .inl ⟨rfl, hquote, hescape, hplain.1, by omega⟩
  · split
    · rename_i hunit
      exact .inr (.inl ⟨rfl, hunit⟩)
    · rename_i hunit
      exact .inr (.inr ⟨rfl, Nat.not_lt.1 hunit⟩)

/-- What has been written for a character is read as its codes. Something must follow it, since a
code escape at the end of a text is not read. -/
theorem codes_escapedChar (c : Char) (hcs : cs ≠ []) :
    codes start (escapedChar c ++ cs) =
      (codes start cs).map fun (ns, after) => (units c ++ ns, after) := by
  obtain ⟨e, hc, he, hlt⟩ | ⟨hc, hquote, hescape, hlow, hlt⟩ | ⟨hc, hlt⟩ | ⟨hc, hhigh⟩ :=
    escapedChar_cases c
  · rw [hc, units_of_lt hlt]
    exact codes_shortEscape he
  · rw [hc, units_of_lt hlt]
    exact codes_cons hquote hescape hlow
  · rw [hc, units_of_lt hlt]
    exact codes_unitEscape hlt hcs
  · have hne (n : Nat) : unitEscape n ++ cs ≠ [] := List.cons_ne_nil _ _
    rw [hc, units, if_neg (Nat.not_lt.2 hhigh), List.append_assoc,
      codes_unitEscape (halves_lt c).1 (hne _), codes_unitEscape (halves_lt c).2 hcs]
    cases codes start cs <;> rfl

theorem codes_flatMap (cs rest : List Char) :
    codes start (cs.flatMap escapedChar ++ '"' :: rest) = .ok (cs.flatMap units, rest) := by
  induction cs with
  | nil => rfl
  | cons c cs ih =>
    rw [List.flatMap_cons, List.append_assoc, codes_escapedChar c (by simp), ih]
    rfl

/-! ## Characters -/

theorem isHighSurrogate_toNat (c : Char) : isHighSurrogate c.toNat = false := by
  have hvalid := toNat_cases c
  rw [isHighSurrogate, Bool.and_eq_false_iff, decide_eq_false_iff_not, decide_eq_false_iff_not]
  omega

theorem isLowSurrogate_toNat (c : Char) : isLowSurrogate c.toNat = false := by
  have hvalid := toNat_cases c
  rw [isLowSurrogate, Bool.and_eq_false_iff, decide_eq_false_iff_not, decide_eq_false_iff_not]
  omega

theorem charOfCode_toNat (c : Char) : charOfCode c.toNat = c := by
  rw [charOfCode, isHighSurrogate_toNat, isLowSurrogate_toNat]
  exact Char.ofNat_toNat c

theorem charsOfCodes_cons {n : Nat} (h : isHighSurrogate n = false) (codes : List Nat) :
    charsOfCodes (n :: codes) = charOfCode n :: charsOfCodes codes := by
  cases codes with
  | nil => rfl
  | cons m codes =>
    rw [charsOfCodes, h]
    rfl

/-- The codes of a character stand for it, whatever codes follow them. -/
theorem charsOfCodes_units (c : Char) (codes : List Nat) :
    charsOfCodes (units c ++ codes) = c :: charsOfCodes codes := by
  have hvalid := toNat_cases c
  unfold units
  split_ifs with h
  · rw [List.singleton_append, charsOfCodes_cons (isHighSurrogate_toNat c), charOfCode_toNat]
  · have hhigh : isHighSurrogate (0xD800 + (c.toNat - 0x10000) / 0x400) = true := by
      simp only [isHighSurrogate, Bool.and_eq_true, decide_eq_true_eq]
      omega
    have hlow : isLowSurrogate (0xDC00 + (c.toNat - 0x10000) % 0x400) = true := by
      simp only [isLowSurrogate, Bool.and_eq_true, decide_eq_true_eq]
      omega
    have hcode : 0x10000 + (0xD800 + (c.toNat - 0x10000) / 0x400 - 0xD800) * 0x400 +
        (0xDC00 + (c.toNat - 0x10000) % 0x400 - 0xDC00) = c.toNat := by
      omega
    rw [List.cons_append, List.singleton_append, charsOfCodes, hhigh, hlow, Bool.and_true,
      if_pos rfl, hcode, Char.ofNat_toNat]

theorem charsOfCodes_flatMap (cs : List Char) : charsOfCodes (cs.flatMap units) = cs := by
  induction cs with
  | nil => rfl
  | cons c cs ih => rw [List.flatMap_cons, charsOfCodes_units, ih]

theorem toList_stringText (s : String) :
    (stringText s).toList = '"' :: (s.toList.flatMap escapedChar ++ ['"']) := by
  rw [stringText, String.toList_ofList, List.cons_append]

/-- A written string is read as the string, whatever follows it. -/
theorem string_stringText (s : String) (rest : List Char) :
    string ((stringText s).toList ++ rest) = .ok (s, rest) := by
  rw [toList_stringText, string, List.cons_append, List.drop_one, List.tail_cons,
    List.append_assoc, List.singleton_append, codes_flatMap]
  change Except.ok (String.ofList (charsOfCodes (s.toList.flatMap units)), rest) = _
  rw [charsOfCodes_flatMap, String.ofList_toList]

end Json.Reader

end LspWire
