import LspWire.Json.Outline
import LspWire.Proofs.Notation.Accepted

/-!
# Texts nest as deep as their data

Data nests no deeper than the text that it is read from. What lies between brackets and quotes does
not count, and a string is passed from its opening quote to its closing one, so each reader leaves a
text that nests no deeper than the one it was given. The induction is on the fuel of the readers.
-/

namespace LspWire

namespace Json

/-! ## Flat parts of texts -/

/-- Whether a character neither opens nor closes anything. -/
def isFlat (c : Char) : Bool := !(['"', '[', ']', '{', '}'].contains c)

theorem nestingFrom_cons_of_isFlat {c : Char} (h : isFlat c = true) (level : Nat)
    (cs : List Char) : nestingFrom false level (c :: cs) = nestingFrom false level cs := by
  simp only [isFlat, List.contains_cons, List.contains_nil, Bool.or_false, Bool.not_or,
    Bool.and_eq_true, Bool.not_eq_true', beq_eq_false_iff_ne] at h
  obtain ⟨hquote, harr, harr', hobj, hobj'⟩ := h
  rw [nestingFrom, if_neg hquote, if_neg (not_or.2 ⟨harr, hobj⟩), if_neg (not_or.2 ⟨harr', hobj'⟩)]

/-- A text that begins with flat characters, and what follows them. -/
def IsPassed (cs after : List Char) : Prop :=
  ∃ ds, (∀ c ∈ ds, isFlat c = true) ∧ cs = ds ++ after

namespace IsPassed

variable {cs after rest : List Char}

theorem refl (cs : List Char) : IsPassed cs cs := ⟨[], List.forall_mem_nil _, rfl⟩

theorem cons {c : Char} (hc : isFlat c = true) (h : IsPassed cs after) :
    IsPassed (c :: cs) after := by
  obtain ⟨ds, hds, rfl⟩ := h
  exact ⟨c :: ds, List.forall_mem_cons.2 ⟨hc, hds⟩, rfl⟩

theorem trans (h : IsPassed cs after) (h' : IsPassed after rest) : IsPassed cs rest := by
  obtain ⟨ds, hds, rfl⟩ := h
  obtain ⟨es, hes, rfl⟩ := h'
  exact ⟨ds ++ es, fun c hc => (List.mem_append.1 hc).elim (hds c) (hes c),
    (List.append_assoc ds es rest).symm⟩

theorem dropWhile {p : Char → Bool} (hp : ∀ c, p c = true → isFlat c = true) (cs : List Char) :
    IsPassed cs (cs.dropWhile p) :=
  ⟨cs.takeWhile p, fun c hc => hp c (List.mem_takeWhile_imp hc),
    List.takeWhile_append_dropWhile.symm⟩

theorem nestingFrom_eq (h : IsPassed cs after) (level : Nat) :
    nestingFrom false level cs = nestingFrom false level after := by
  obtain ⟨ds, hds, rfl⟩ := h
  induction ds with
  | nil => rfl
  | cons d ds ih =>
    rw [List.forall_mem_cons] at hds
    rw [List.cons_append, nestingFrom_cons_of_isFlat hds.1, ih hds.2]

end IsPassed

theorem le_nestingFrom (inside : Bool) (level : Nat) (cs : List Char) :
    level ≤ nestingFrom inside level cs := by
  fun_induction nestingFrom inside level cs with
  | case1 => exact Nat.le_refl _
  | case2 level c cs ih => exact ih
  | case3 level c cs _ ih => exact ih
  | case4 level cs ih => exact ih
  | case5 level c cs _ _ ih => exact Nat.le_of_succ_le ih
  | case6 => exact Nat.le_max_left _ _
  | case7 level c cs _ _ _ ih => exact ih

namespace Reader

variable {cs after : List Char} {s : Scalar}

/-! ## Scalars -/

theorem isFlat_of_isSpace (c : Char) (h : isSpace c = true) : isFlat c = true := by
  simp only [isSpace, Bool.or_eq_true, decide_eq_true_eq] at h
  obtain ((rfl | rfl) | rfl) | rfl := h <;> rfl

theorem isPassed_skipSpace (cs : List Char) : IsPassed cs (skipSpace cs) :=
  .dropWhile isFlat_of_isSpace cs

theorem isFlat_of_isDigit (c : Char) (h : c.isDigit = true) : isFlat c = true := by
  simp only [isFlat, List.contains_cons, List.contains_nil, Bool.or_false, Bool.not_or,
    Bool.and_eq_true, Bool.not_eq_true', beq_eq_false_iff_ne]
  refine ⟨?_, ?_, ?_, ?_, ?_⟩ <;> (rintro rfl; cases h)

theorem isPassed_digits (cs : List Char) : IsPassed cs (digits cs).2 :=
  .dropWhile isFlat_of_isDigit cs

theorem isPassed_integerPart? {whole : List Char} (h : integerPart? cs = some (whole, after)) :
    IsPassed cs after := by
  unfold integerPart? at h
  split at h
  · cases h
    exact .cons rfl (.refl _)
  · split at h
    · cases h
    · rw [Option.some.injEq] at h
      have hdigits := isPassed_digits cs
      rwa [h] at hdigits

theorem isPassed_fractionPart (cs : List Char) : IsPassed cs (fractionPart cs).2 := by
  unfold fractionPart
  split
  · split
    · exact .refl _
    · exact .cons rfl (isPassed_digits _)
  · exact .refl _

theorem isPassed_signPart (cs : List Char) : IsPassed cs (signPart cs).2 := by
  unfold signPart
  split
  · exact .cons rfl (.refl _)
  · exact .cons rfl (.refl _)
  · exact .refl _

theorem isPassed_minusPart (cs : List Char) : IsPassed cs (minusPart cs).2 := by
  unfold minusPart
  split
  · exact .cons rfl (.refl _)
  · exact .refl _

theorem isPassed_exponentPart (cs : List Char) : IsPassed cs (exponentPart cs).2 := by
  cases cs with
  | nil => exact .refl _
  | cons e cs =>
    rw [exponentPart_cons]
    split
    · rename_i h
      have hflat : isFlat e = true := by
        obtain rfl | rfl := h.1 <;> rfl
      exact .cons hflat ((isPassed_signPart cs).trans (isPassed_digits _))
    · exact .refl _

theorem isPassed_number (h : number cs = .ok (s, after)) : IsPassed cs after := by
  rw [number_eq] at h
  cases hwhole : integerPart? (minusPart cs).2 with
  | none =>
    rw [hwhole] at h
    cases h
  | some found =>
    obtain ⟨whole, afterWhole⟩ := found
    rw [hwhole] at h
    obtain ⟨s', -, heq⟩ := map_eq_ok_iff.1 h
    cases heq
    exact (isPassed_minusPart cs).trans ((isPassed_integerPart? hwhole).trans
      ((isPassed_fractionPart _).trans (isPassed_exponentPart _)))

theorem isPassed_after? {ws : List Char} (hws : ∀ c ∈ ws, isFlat c = true)
    (h : after? ws cs = some after) : IsPassed cs after := by
  induction ws generalizing cs with
  | nil =>
    cases h
    exact .refl _
  | cons w ws ih =>
    obtain ⟨ds, rfl⟩ := eq_cons_of_after? h
    rw [List.forall_mem_cons] at hws
    rw [after?, if_pos rfl] at h
    exact .cons hws.1 (ih hws.2 h)

theorem isPassed_plain (h : plain cs = .ok (s, after)) : IsPassed cs after := by
  obtain ⟨word, hword, hafter⟩ | hnumber := cases_of_plain h
  · have hflat : words.all (fun word => word.1.toList.all isFlat) = true := by decide
    exact isPassed_after? (List.all_eq_true.1 (List.all_eq_true.1 hflat _ hword)) hafter
  · exact isPassed_number hnumber

/-! ## Strings -/

theorem nestingFrom_string_cons {c : Char} (hquote : c ≠ '"') (hescape : c ≠ '\\') (level : Nat)
    (cs : List Char) : nestingFrom true level (c :: cs) = nestingFrom true level cs := by
  rw [nestingFrom, decide_eq_true hquote]
  exact fun _ _ h _ => hescape h

theorem ne_of_hexValue? {c : Char} {n : Nat} (h : Text.hexValue? c = some n) :
    c ≠ '"' ∧ c ≠ '\\' := by
  refine ⟨?_, ?_⟩ <;> (rintro rfl; cases h)

theorem nestingFrom_of_code? {a b c d : Char} {n : Nat} (h : code? a b c d = some n) (level : Nat)
    (cs : List Char) :
    nestingFrom true level (a :: b :: c :: d :: cs) = nestingFrom true level cs := by
  simp only [code?, Option.bind_eq_bind, Option.bind_eq_some_iff] at h
  obtain ⟨_, ha, _, hb, _, hc, _, hd, -⟩ := h
  rw [nestingFrom_string_cons (ne_of_hexValue? ha).1 (ne_of_hexValue? ha).2,
    nestingFrom_string_cons (ne_of_hexValue? hb).1 (ne_of_hexValue? hb).2,
    nestingFrom_string_cons (ne_of_hexValue? hc).1 (ne_of_hexValue? hc).2,
    nestingFrom_string_cons (ne_of_hexValue? hd).1 (ne_of_hexValue? hd).2]

/-- A string opens nothing up to its closing quote. -/
theorem nestingFrom_codes {start : List Char} {ns : List Nat} (level : Nat)
    (h : codes start cs = .ok (ns, after)) :
    nestingFrom true level cs = nestingFrom false level after := by
  fun_induction codes start cs generalizing ns with
  | case1 => cases h
  | case2 cs =>
    cases h
    rfl
  | case3 => cases h
  | case4 a b c d cs n _ hcode ih =>
    obtain ⟨⟨ns', after'⟩, hmore, heq⟩ := map_eq_ok_iff.1 h
    cases heq
    exact (nestingFrom_of_code? hcode level cs).trans (ih hmore)
  | case5 => cases h
  | case6 => cases h
  | case7 c cs _ _ d _ ih =>
    obtain ⟨⟨ns', after'⟩, hmore, heq⟩ := map_eq_ok_iff.1 h
    cases heq
    exact ih hmore
  | case8 => cases h
  | case9 => cases h
  | case10 c cs hquote hlast _ _ hescape _ ih =>
    obtain ⟨⟨ns', after'⟩, hmore, heq⟩ := map_eq_ok_iff.1 h
    cases heq
    -- Whatever follows a backslash, the earlier cases have taken it.
    have hne : c ≠ '\\' := fun hc => by
      cases cs with
      | nil => exact hlast hc rfl
      | cons d ds => exact hescape d ds hc rfl
    exact (nestingFrom_string_cons hquote hne level cs).trans (ih hmore)

theorem nestingFrom_string {text : String} (level : Nat)
    (h : string ('"' :: cs) = .ok (text, after)) :
    nestingFrom false level ('"' :: cs) = nestingFrom false level after := by
  unfold string at h
  cases hcodes : codes ('"' :: cs) cs with
  | error e =>
    rw [List.drop_one, List.tail_cons, hcodes] at h
    cases h
  | ok found =>
    obtain ⟨ns, after'⟩ := found
    rw [List.drop_one, List.tail_cons, hcodes] at h
    cases h
    exact nestingFrom_codes level hcodes

/-! ## Values -/

variable {bound level fuel : Nat} {x : Json} {xs : List Json} {acc : List (String × Json)}

theorem depth_arr_le (hlevel : level < bound) (h : ∀ x ∈ xs, level + 1 + x.depth ≤ bound) :
    level + (Json.arr xs).depth ≤ bound := by
  have hitems : level + 1 + depthItems xs ≤ bound := by
    induction xs with
    | nil => exact hlevel
    | cons x xs ih =>
      rw [List.forall_mem_cons] at h
      rw [depthItems, ← Nat.add_max_add_left]
      exact Nat.max_le.2 ⟨h.1, ih h.2⟩
  rwa [depth, Nat.add_comm (depthItems xs), ← Nat.add_assoc]

theorem depth_obj_le (hlevel : level < bound)
    (h : ∀ entry ∈ acc, level + 1 + entry.2.depth ≤ bound) :
    level + (Json.obj acc).depth ≤ bound := by
  have hentries : level + 1 + depthEntries acc ≤ bound := by
    induction acc with
    | nil => exact hlevel
    | cons entry acc ih =>
      rw [List.forall_mem_cons] at h
      rw [depthEntries, ← Nat.add_max_add_left]
      exact Nat.max_le.2 ⟨h.1, ih h.2⟩
  rwa [depth, Nat.add_comm (depthEntries acc), ← Nat.add_assoc]

/-- A text that nests no deeper than a bound, with `level` open before it. -/
def IsBounded (bound level : Nat) (cs : List Char) : Prop := nestingFrom false level cs ≤ bound

theorem IsBounded.skipSpace (h : IsBounded bound level cs) :
    IsBounded bound level (skipSpace cs) :=
  ((isPassed_skipSpace cs).nestingFrom_eq level).ge.trans h

theorem IsBounded.close {c : Char} (hc : c = ']' ∨ c = '}')
    (h : IsBounded bound (level + 1) (c :: cs)) :
    level < bound ∧ IsBounded bound level cs := by
  unfold IsBounded at h
  obtain rfl | rfl := hc <;> exact Nat.max_le.1 h

/-- Data and the text after it that both stay within a bound, where `level` are open around them. -/
structure Fits (bound level : Nat) (x : Json) (after : List Char) : Prop where
  depth : level + x.depth ≤ bound
  after : IsBounded bound level after

/-- The items of an array that stays within a bound, and the text after its end. -/
structure ItemsFit (bound level : Nat) (xs : List Json) (after : List Char) : Prop where
  depth : ∀ x ∈ xs, level + 1 + x.depth ≤ bound
  lt : level < bound
  after : IsBounded bound level after

section Step

variable
  (hvalue : ∀ {cs x after level}, value fuel cs = .ok (x, after) → IsBounded bound level cs →
    Fits bound level x after)
  (hitems : ∀ {cs xs after level}, items fuel cs = .ok (xs, after) →
    IsBounded bound (level + 1) cs → ItemsFit bound level xs after)
  (hentries : ∀ {cs acc x after level}, entries fuel acc cs = .ok (x, after) →
    IsBounded bound (level + 1) cs → (∀ entry ∈ acc, level + 1 + entry.2.depth ≤ bound) →
    Fits bound level x after)

include hitems hentries in
theorem fits_of_value_succ (h : value (fuel + 1) cs = .ok (x, after))
    (hcs : IsBounded bound level cs) : Fits bound level x after := by
  have hlevel : level ≤ bound := (le_nestingFrom false level cs).trans hcs
  unfold value at h
  split at h
  · obtain ⟨⟨s, after'⟩, hs, heq⟩ := map_eq_ok_iff.1 h
    cases heq
    exact ⟨hlevel, (nestingFrom_string level hs).ge.trans hcs⟩
  · rename_i rest
    have hrest : IsBounded bound (level + 1) (skipSpace rest) := IsBounded.skipSpace hcs
    split at h
    · rename_i hskip
      rw [hskip] at hrest
      obtain ⟨hlt, hafter⟩ := hrest.close (.inl rfl)
      cases h
      exact ⟨hlt, hafter⟩
    · obtain ⟨⟨xs, after'⟩, hxs, heq⟩ := map_eq_ok_iff.1 h
      cases heq
      have hfit := hitems hxs hrest
      exact ⟨depth_arr_le hfit.lt hfit.depth, hfit.after⟩
  · rename_i rest
    have hrest : IsBounded bound (level + 1) (skipSpace rest) := IsBounded.skipSpace hcs
    split at h
    · rename_i hskip
      rw [hskip] at hrest
      obtain ⟨hlt, hafter⟩ := hrest.close (.inr rfl)
      cases h
      exact ⟨hlt, hafter⟩
    · exact hentries h hrest (List.forall_mem_nil _)
  · obtain ⟨⟨s, after'⟩, hs, heq⟩ := map_eq_ok_iff.1 h
    cases heq
    exact ⟨hlevel, ((isPassed_plain hs).nestingFrom_eq level).ge.trans hcs⟩

include hvalue hitems in
theorem fits_of_items_succ (h : items (fuel + 1) cs = .ok (xs, after))
    (hcs : IsBounded bound (level + 1) cs) : ItemsFit bound level xs after := by
  rw [items, bind_eq_ok_iff] at h
  obtain ⟨⟨x, after'⟩, hx, h⟩ := h
  have hfit := hvalue hx hcs
  have hskipped := hfit.after.skipSpace
  dsimp only at h
  split at h
  · rename_i hskip
    rw [hskip] at hskipped
    obtain ⟨hlt, hlast⟩ := hskipped.close (.inl rfl)
    cases h
    exact ⟨List.forall_mem_singleton.2 hfit.depth, hlt, hlast⟩
  · rename_i rest hskip
    rw [hskip] at hskipped
    obtain ⟨⟨xs, rest'⟩, hxs, heq⟩ := bind_eq_ok_iff.1 h
    cases heq
    have hmore : ItemsFit bound level xs rest' := hitems hxs (IsBounded.skipSpace hskipped)
    exact ⟨List.forall_mem_cons.2 ⟨hfit.depth, hmore.depth⟩, hmore.lt, hmore.after⟩
  · cases h

include hvalue hentries in
theorem fits_of_entries_succ (h : entries (fuel + 1) acc cs = .ok (x, after))
    (hcs : IsBounded bound (level + 1) cs)
    (hacc : ∀ entry ∈ acc, level + 1 + entry.2.depth ≤ bound) : Fits bound level x after := by
  unfold entries at h
  split at h
  · obtain ⟨⟨key, afterKey⟩, hkey, h⟩ := bind_eq_ok_iff.1 h
    have hskipped : IsBounded bound (level + 1) (skipSpace afterKey) :=
      IsBounded.skipSpace ((nestingFrom_string (level + 1) hkey).ge.trans hcs)
    dsimp only at h
    split at h
    · rename_i rest hskip
      rw [hskip] at hskipped
      obtain ⟨⟨y, afterValue⟩, hy, h⟩ := bind_eq_ok_iff.1 h
      have hfit := hvalue hy (IsBounded.skipSpace hskipped)
      have hput : ∀ entry ∈ put key y acc, level + 1 + entry.2.depth ≤ bound := by
        intro entry hentry
        obtain rfl | hentry := mem_of_mem_put hentry
        · exact hfit.depth
        · exact hacc entry hentry
      have hnext := hfit.after.skipSpace
      dsimp only at h
      split at h
      · rename_i hclose
        rw [hclose] at hnext
        obtain ⟨hlt, hlast⟩ := hnext.close (.inr rfl)
        cases h
        exact ⟨depth_obj_le hlt hput, hlast⟩
      · rename_i hcomma
        rw [hcomma] at hnext
        exact hentries h (IsBounded.skipSpace hnext) hput
      · cases h
    · cases h
  · cases h

end Step

theorem fits_of_reader (bound fuel : Nat) :
    (∀ {cs x after level}, value fuel cs = .ok (x, after) → IsBounded bound level cs →
      Fits bound level x after) ∧
    (∀ {cs xs after level}, items fuel cs = .ok (xs, after) → IsBounded bound (level + 1) cs →
      ItemsFit bound level xs after) ∧
    (∀ {cs acc x after level}, entries fuel acc cs = .ok (x, after) →
      IsBounded bound (level + 1) cs → (∀ entry ∈ acc, level + 1 + entry.2.depth ≤ bound) →
      Fits bound level x after) := by
  induction fuel with
  | zero =>
    refine ⟨?_, ?_, ?_⟩
    · intro cs x after level h
      cases h
    · intro cs xs after level h
      cases h
    · intro cs acc x after level h
      cases h
  | succ fuel ih =>
    obtain ⟨hvalue, hitems, hentries⟩ := ih
    exact ⟨fits_of_value_succ hitems hentries, fits_of_items_succ hvalue hitems,
      fits_of_entries_succ hvalue hentries⟩

end Reader

open Reader

/-- Data nests no deeper than its text. -/
theorem depth_le_nesting_of_read {text : List Char} {x : Json} (h : read text = .ok x) :
    x.depth ≤ nesting text := by
  have htext : IsBounded (nesting text) 0 (skipSpace text) :=
    IsBounded.skipSpace (Nat.le_refl (nesting text))
  unfold read at h
  split at h
  · cases h
  · obtain ⟨⟨y, after⟩, hy, h⟩ := bind_eq_ok_iff.1 h
    dsimp only at h
    split at h
    · cases h
      have hdepth := ((fits_of_reader _ _).1 hy htext).depth
      rwa [Nat.zero_add] at hdepth
    · cases h

end Json

end LspWire
