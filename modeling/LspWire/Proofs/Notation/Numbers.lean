import LspWire.Json.Printer
import LspWire.Json.Reader
import Mathlib.Data.List.TakeWhile
import Mathlib.Data.Nat.Digits.Defs
import Mathlib.Tactic.IntervalCases

/-!
# Numbers in notation

A number ends where a value may end, so what follows it does not change how it is read. It is read
part by part: a sign, the digits before the point, those after it, and an exponent. An integer
within the limit of digits is read from its text.
-/

namespace LspWire.Json.Reader

variable {cs rest : List Char}

/-! ## What follows a value -/

/-- The characters that may follow a value. -/
def delimiters : List Char := [' ', '\t', '\n', '\r', ',', ']', '}']

/-- Texts that may follow a value. -/
def Follows (rest : List Char) : Prop := ∀ c ∈ rest.head?, c ∈ delimiters

theorem follows_nil : Follows [] := nofun

theorem follows_cons {c : Char} (h : c ∈ delimiters) (cs : List Char) : Follows (c :: cs) := by
  intro d hd
  cases hd
  exact h

/-- No part of a number begins with a delimiter. -/
theorem ne_of_mem_delimiters {c : Char} (h : c ∈ delimiters) :
    c.isDigit = false ∧ c ≠ '.' ∧ c ≠ 'e' ∧ c ≠ 'E' ∧ c ≠ '+' ∧ c ≠ '-' := by
  simp only [delimiters, List.mem_cons, List.not_mem_nil, or_false] at h
  obtain rfl | rfl | rfl | rfl | rfl | rfl | rfl := h <;> decide

theorem Follows.cases (h : Follows rest) :
    rest = [] ∨ ∃ c cs, rest = c :: cs ∧ c ∈ delimiters := by
  cases rest with
  | nil => exact .inl rfl
  | cons c cs => exact .inr ⟨c, cs, rfl, h c rfl⟩

/-! ## Parts of numbers -/

/-- A minus sign at the front of a text, and what follows it. -/
def minusPart : List Char → Bool × List Char
  | '-' :: cs => (true, cs)
  | cs => (false, cs)

/-- A sign at the front of a text, and what follows it. -/
def signPart : List Char → Bool × List Char
  | '-' :: cs => (true, cs)
  | '+' :: cs => (false, cs)
  | cs => (false, cs)

theorem minusPart_of_ne {c : Char} (h : c ≠ '-') (cs : List Char) :
    minusPart (c :: cs) = (false, c :: cs) := by
  unfold minusPart
  split
  · rename_i heq
    exact absurd (List.cons.inj heq).1 h
  · rfl

theorem signPart_of_ne {c : Char} (hminus : c ≠ '-') (hplus : c ≠ '+') (cs : List Char) :
    signPart (c :: cs) = (false, c :: cs) := by
  unfold signPart
  split
  · rename_i heq
    exact absurd (List.cons.inj heq).1 hminus
  · rename_i heq
    exact absurd (List.cons.inj heq).1 hplus
  · rfl

theorem fractionPart_of_ne {c : Char} (h : c ≠ '.') (cs : List Char) :
    fractionPart (c :: cs) = ([], c :: cs) := by
  unfold fractionPart
  split
  · rename_i heq
    exact absurd (List.cons.inj heq).1 h
  · rfl

theorem integerPart?_of_ne {c : Char} (h : c ≠ '0') (cs : List Char) :
    integerPart? (c :: cs) =
      if (digits (c :: cs)).1.isEmpty then none else some (digits (c :: cs)) := by
  unfold integerPart?
  split
  · rename_i heq
    exact absurd (List.cons.inj heq).1 h
  · rfl

/-- The number with some parts. -/
def numeral (negative : Bool) (whole fraction : List Char) (exponent? : Option Int) :
    Except ReadError Scalar :=
  if fraction.isEmpty && exponent?.isNone then
    if Number.digitLimit < whole.length then .error (.longInteger whole.length)
    else
      let n : Int := Text.ofDigits 0 (digitValues whole)
      .ok (.int (if negative then -n else n))
  else
    .ok (.float (Binary64.ofDecimal negative (Text.ofDigits 0 (digitValues (whole ++ fraction)))
      (exponent?.getD 0 - fraction.length)))

theorem numeral_int (negative : Bool) {whole : List Char}
    (h : whole.length ≤ Number.digitLimit) :
    numeral negative whole [] none =
      .ok (.int (if negative then -(Text.ofDigits 0 (digitValues whole) : Int)
        else Text.ofDigits 0 (digitValues whole))) :=
  if_neg (Nat.not_lt.2 h)

/-- A number is read part by part. -/
theorem number_eq (cs : List Char) :
    number cs = match integerPart? (minusPart cs).2 with
      | none => noValue cs
      | some (whole, after) =>
        (numeral (minusPart cs).1 whole (fractionPart after).1
          (exponentPart (fractionPart after).2).1).map fun s =>
            (s, (exponentPart (fractionPart after).2).2) := by
  unfold number
  generalize hlimit : Number.digitLimit = limit
  split
  rename_i negative unsigned hsign
  change minusPart cs = (negative, unsigned) at hsign
  rw [hsign]
  dsimp only
  cases integerPart? unsigned with
  | none => rfl
  | some found =>
    dsimp only
    rw [numeral, hlimit]
    split
    · split <;> rfl
    · rfl

theorem exponentPart_cons (e : Char) (cs : List Char) :
    exponentPart (e :: cs) =
      if (e = 'e' ∨ e = 'E') ∧ (digits (signPart cs).2).1 ≠ [] then
        (some (if (signPart cs).1 then
            -(Text.ofDigits 0 (digitValues (digits (signPart cs).2).1) : Int)
          else Text.ofDigits 0 (digitValues (digits (signPart cs).2).1)),
          (digits (signPart cs).2).2)
      else (none, e :: cs) := by
  have hsign : exponentPart (e :: cs) =
      if e = 'e' ∨ e = 'E' then
        if (digits (signPart cs).2).1.isEmpty then (none, e :: cs)
        else
          (some (if (signPart cs).1 then
              -(Text.ofDigits 0 (digitValues (digits (signPart cs).2).1) : Int)
            else Text.ofDigits 0 (digitValues (digits (signPart cs).2).1)),
            (digits (signPart cs).2).2)
      else (none, e :: cs) := rfl
  rw [hsign]
  by_cases he : e = 'e' ∨ e = 'E'
  · cases hds : (digits (signPart cs).2).1 with
    | nil => simp
    | cons d ds => simp [he]
  · simp [he]

/-! ## What follows a number -/

theorem digits_append (h : Follows rest) (cs : List Char) :
    digits (cs ++ rest) = ((digits cs).1, (digits cs).2 ++ rest) := by
  induction cs with
  | nil =>
    obtain rfl | ⟨c, cs, rfl, hc⟩ := h.cases
    · rfl
    · have hdigit := (ne_of_mem_delimiters hc).1
      simp [digits, hdigit]
  | cons c cs ih =>
    rw [digits, Prod.mk.injEq] at ih
    cases hdigit : c.isDigit with
    | true => simp [digits, hdigit, ih]
    | false => simp [digits, hdigit]

theorem integerPart?_append (h : Follows rest) {whole after : List Char}
    (hcs : integerPart? cs = some (whole, after)) :
    integerPart? (cs ++ rest) = some (whole, after ++ rest) := by
  cases cs with
  | nil => cases hcs
  | cons c cs =>
    by_cases hzero : c = '0'
    · subst hzero
      cases hcs
      rfl
    · rw [integerPart?_of_ne hzero] at hcs
      rw [List.cons_append, integerPart?_of_ne hzero, ← List.cons_append, digits_append h]
      split at hcs
      · cases hcs
      · rename_i hsome
        rw [if_neg hsome]
        rw [Option.some.injEq] at hcs
        rw [hcs]

theorem minusPart_append (h : Follows rest) (cs : List Char) :
    minusPart (cs ++ rest) = ((minusPart cs).1, (minusPart cs).2 ++ rest) := by
  cases cs with
  | nil =>
    obtain rfl | ⟨c, cs, rfl, hc⟩ := h.cases
    · rfl
    · exact minusPart_of_ne (ne_of_mem_delimiters hc).2.2.2.2.2 cs
  | cons c cs =>
    by_cases hminus : c = '-'
    · rw [hminus]
      rfl
    · rw [List.cons_append, minusPart_of_ne hminus, minusPart_of_ne hminus]
      rfl

theorem signPart_append (h : Follows rest) (cs : List Char) :
    signPart (cs ++ rest) = ((signPart cs).1, (signPart cs).2 ++ rest) := by
  cases cs with
  | nil =>
    obtain rfl | ⟨c, cs, rfl, hc⟩ := h.cases
    · rfl
    · obtain ⟨-, -, -, -, hplus, hminus⟩ := ne_of_mem_delimiters hc
      exact signPart_of_ne hminus hplus cs
  | cons c cs =>
    by_cases hminus : c = '-'
    · rw [hminus]
      rfl
    · by_cases hplus : c = '+'
      · rw [hplus]
        rfl
      · rw [List.cons_append, signPart_of_ne hminus hplus, signPart_of_ne hminus hplus]
        rfl

theorem fractionPart_append (h : Follows rest) (cs : List Char) :
    fractionPart (cs ++ rest) = ((fractionPart cs).1, (fractionPart cs).2 ++ rest) := by
  cases cs with
  | nil =>
    obtain rfl | ⟨c, cs, rfl, hc⟩ := h.cases
    · rfl
    · exact fractionPart_of_ne (ne_of_mem_delimiters hc).2.1 cs
  | cons c cs =>
    by_cases hpoint : c = '.'
    · rw [hpoint, List.cons_append, fractionPart, fractionPart, digits_append h]
      split <;> rfl
    · rw [List.cons_append, fractionPart_of_ne hpoint, fractionPart_of_ne hpoint]
      rfl

theorem exponentPart_append (h : Follows rest) (cs : List Char) :
    exponentPart (cs ++ rest) = ((exponentPart cs).1, (exponentPart cs).2 ++ rest) := by
  cases cs with
  | nil =>
    obtain rfl | ⟨c, cs, rfl, hc⟩ := h.cases
    · rfl
    · obtain ⟨-, -, he, hE, -⟩ := ne_of_mem_delimiters hc
      rw [List.nil_append, exponentPart_cons, if_neg fun h => h.1.elim he hE]
      rfl
  | cons e cs =>
    rw [List.cons_append, exponentPart_cons, exponentPart_cons, signPart_append h, digits_append h]
    split <;> rfl

/-- What follows a number does not change how it is read. -/
theorem number_append (h : Follows rest) {s : Scalar} {after : List Char}
    (hcs : number cs = .ok (s, after)) : number (cs ++ rest) = .ok (s, after ++ rest) := by
  rw [number_eq] at hcs ⊢
  rw [minusPart_append h]
  cases hwhole : integerPart? (minusPart cs).2 with
  | none =>
    rw [hwhole] at hcs
    cases hcs
  | some found =>
    obtain ⟨whole, afterWhole⟩ := found
    rw [hwhole] at hcs
    rw [integerPart?_append h hwhole]
    dsimp only at hcs ⊢
    rw [fractionPart_append h, exponentPart_append h]
    dsimp only
    cases hs : numeral (minusPart cs).1 whole (fractionPart afterWhole).1
      (exponentPart (fractionPart afterWhole).2).1 with
    | error e =>
      rw [hs] at hcs
      cases hcs
    | ok s' =>
      rw [hs] at hcs
      cases hcs
      rfl

/-! ## Integers -/

theorem ofDigits_digitValues (ds : List Char) :
    Text.ofDigits 0 (digitValues ds) = Nat.ofDigitChars 10 ds 0 := by
  rw [Text.ofDigits, digitValues, List.foldl_map]
  rfl

theorem head_toDigits {n : Nat} (h : 0 < n) :
    ∃ c cs, Nat.toDigits 10 n = c :: cs ∧ c ≠ '0' := by
  induction n using Nat.strong_induction_on with
  | _ n ih =>
    rw [Nat.toDigits_eq_if (by decide)]
    split
    · rename_i hlt
      refine ⟨_, [], rfl, ?_⟩
      interval_cases n <;> decide
    · rename_i hge
      obtain ⟨c, cs, hcs, hc⟩ := ih (n / 10) (Nat.div_lt_self h (by decide))
        (Nat.div_pos (Nat.not_lt.1 hge) (by decide))
      rw [hcs]
      exact ⟨c, _, rfl, hc⟩

theorem digits_of_all {ds : List Char} (hds : ∀ c ∈ ds, c.isDigit = true)
    (hrest : ∀ c ∈ rest.head?, c.isDigit = false) : digits (ds ++ rest) = (ds, rest) := by
  have hstop : rest.takeWhile Char.isDigit = [] ∧ rest.dropWhile Char.isDigit = rest := by
    cases rest with
    | nil => exact ⟨rfl, rfl⟩
    | cons c cs => simp [hrest c rfl]
  rw [digits, List.takeWhile_append_of_pos hds, List.dropWhile_append_of_pos hds, hstop.1, hstop.2,
    List.append_nil]

theorem digits_append_nil {ds : List Char} (hds : ∀ c ∈ ds, c.isDigit = true) :
    digits ds = (ds, []) := by
  have h : digits (ds ++ []) = (ds, []) := digits_of_all hds nofun
  rwa [List.append_nil] at h

theorem isDigit_of_mem_toDigits {n : Nat} : ∀ c ∈ Nat.toDigits 10 n, c.isDigit = true :=
  fun _ hc => Nat.isDigit_of_mem_toDigits (by decide) (by decide) hc

theorem integerPart?_toDigits (n : Nat) :
    integerPart? (Nat.toDigits 10 n) = some (Nat.toDigits 10 n, []) := by
  obtain rfl | hn := Nat.eq_zero_or_pos n
  · rfl
  · obtain ⟨c, cs, hcs, hc⟩ := head_toDigits hn
    have hdigits := digits_append_nil (isDigit_of_mem_toDigits (n := n))
    rw [hcs] at hdigits ⊢
    rw [integerPart?_of_ne hc, hdigits]
    rfl

theorem minusPart_of_isDigit {c : Char} (h : c.isDigit = true) (cs : List Char) :
    minusPart (c :: cs) = (false, c :: cs) := by
  refine minusPart_of_ne ?_ cs
  rintro rfl
  cases h

theorem minusPart_toDigits (n : Nat) :
    minusPart (Nat.toDigits 10 n) = (false, Nat.toDigits 10 n) := by
  cases h : Nat.toDigits 10 n with
  | nil => exact absurd h Nat.toDigits_ne_nil
  | cons c cs => exact minusPart_of_isDigit (isDigit_of_mem_toDigits c (h ▸ List.mem_cons_self)) cs

theorem minusPart_toString (n : Int) :
    minusPart (toString n).toList = (decide (n < 0), Nat.toDigits 10 n.natAbs) := by
  cases n with
  | ofNat n =>
    change minusPart n.repr.toList = _
    rw [Nat.toList_repr, minusPart_toDigits]
    rfl
  | negSucc n =>
    change minusPart ("-" ++ n.succ.repr).toList = _
    rw [String.toList_append, Nat.toList_repr, decide_eq_true (Int.negSucc_lt_zero n)]
    rfl

theorem signed_natAbs (n : Int) :
    (if decide (n < 0) = true then -(n.natAbs : Int) else n.natAbs) = n := by
  cases n with
  | ofNat n => rfl
  | negSucc n =>
    rw [decide_eq_true (Int.negSucc_lt_zero n)]
    rfl

/-- An integer within the limit of digits is read from its text. -/
theorem number_toString {n : Int} (h : (Nat.toDigits 10 n.natAbs).length ≤ Number.digitLimit) :
    number (toString n).toList = .ok (.int n, []) := by
  have hnat : (Text.ofDigits 0 (digitValues (Nat.toDigits 10 n.natAbs)) : Int) = n.natAbs := by
    rw [ofDigits_digitValues, Nat.ofDigitChars_toDigits (by decide) (by decide)]
  rw [number_eq, minusPart_toString, integerPart?_toDigits]
  change (numeral (decide (n < 0)) (Nat.toDigits 10 n.natAbs) [] none).map _ = _
  rw [numeral_int _ h, hnat, signed_natAbs]
  rfl

/-! ## Words -/

theorem after?_of_ne {w c : Char} (h : w ≠ c) (ws cs : List Char) :
    after? (w :: ws) (c :: cs) = none :=
  if_neg h

theorem isDigit_of_integerPart? {r : List Char × List Char} (h : integerPart? cs = some r) :
    ∃ c ds, cs = c :: ds ∧ c.isDigit = true := by
  cases cs with
  | nil => cases h
  | cons c ds =>
    refine ⟨c, ds, rfl, ?_⟩
    by_cases hzero : c = '0'
    · rw [hzero]
      rfl
    · rw [integerPart?_of_ne hzero] at h
      by_contra hdigit
      simp [digits, hdigit] at h

theorem isDigit_of_number {r : Scalar × List Char} (h : number cs = .ok r) :
    ∃ c ds, (cs = c :: ds ∨ cs = '-' :: c :: ds) ∧ c.isDigit = true := by
  rw [number_eq] at h
  cases hwhole : integerPart? (minusPart cs).2 with
  | none =>
    rw [hwhole] at h
    cases h
  | some found =>
    obtain ⟨c, ds, hcs, hc⟩ := isDigit_of_integerPart? hwhole
    refine ⟨c, ds, ?_, hc⟩
    cases cs with
    | nil => cases hcs
    | cons d cs =>
      by_cases hminus : d = '-'
      · subst hminus
        exact .inr (congrArg _ hcs)
      · rw [minusPart_of_ne hminus] at hcs
        exact .inl hcs

/-- A number begins with no word. -/
theorem plain_of_number {r : Scalar × List Char} (h : number cs = .ok r) : plain cs = .ok r := by
  obtain ⟨c, ds, hcs, hc⟩ := isDigit_of_number h
  have hne {w : Char} (hw : w.isDigit = false) : w ≠ c := by
    rintro rfl
    rw [hc] at hw
    cases hw
  have hwords : ∀ found ∈ words,
      (after? found.1.toList cs).map (fun after => (found.2, after)) = none := by
    intro found hfound
    refine Option.map_eq_none_iff.2 ?_
    simp only [words, List.mem_cons, List.not_mem_nil, or_false] at hfound
    obtain rfl | rfl := hcs
    · obtain rfl | rfl | rfl | rfl | rfl | rfl := hfound <;> exact after?_of_ne (hne rfl) _ _
    · obtain rfl | rfl | rfl | rfl | rfl | rfl := hfound
      all_goals first
        | exact after?_of_ne (by decide) _ _
        | exact after?_of_ne (hne rfl) _ _
  rw [plain, List.findSome?_eq_none_iff.2 hwords]
  exact h

theorem plain_word (word : String) {s : Scalar} (h : (word, s) ∈ words) (rest : List Char) :
    plain (word.toList ++ rest) = .ok (s, rest) := by
  simp only [words, List.mem_cons, List.not_mem_nil, or_false, Prod.mk.injEq] at h
  obtain ⟨rfl, rfl⟩ | ⟨rfl, rfl⟩ | ⟨rfl, rfl⟩ | ⟨rfl, rfl⟩ | ⟨rfl, rfl⟩ | ⟨rfl, rfl⟩ := h <;> rfl

end LspWire.Json.Reader
