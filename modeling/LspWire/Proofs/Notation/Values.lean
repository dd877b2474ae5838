import LspWire.Proofs.Notation.Floats
import LspWire.Proofs.Notation.Strings

/-!
# Data in notation

Data that a text may be read as has scalars of a notation and no key twice in an object. Such data
is read from its own text, with any indentation. The induction is on the data. It carries that a
value is read whatever follows it, with twice as much fuel as its text has characters.
-/

namespace LspWire

/-- Scalars that a text may be read as: integers within the limit of digits, and a single value that
is no number. -/
def Scalar.HasNotation : Scalar → Prop
  | .int n => (Nat.toDigits 10 n.natAbs).length ≤ Number.digitLimit
  | .float x => x.isNaN = true → x = .nan
  | _ => True

namespace Binary64

theorem eq_infinity {x : Binary64} (hnan : x.isNaN = false) (hfinite : x.isFinite = false) :
    x = infinity x.isNegative := by
  have hcode : x.code = infinityCode :=
    Nat.le_antisymm (Nat.not_lt.1 (of_decide_eq_false hnan))
      (Nat.not_lt.1 (of_decide_eq_false hfinite))
  rw [infinity, ← hcode, ofCode_code]

end Binary64

namespace Json

/-- Data that a text may be read as. -/
inductive HasNotation : Json → Prop where
  | scalar {s : Scalar} (h : s.HasNotation) : HasNotation (.scalar s)
  | arr {items : List Json} (h : ∀ x ∈ items, HasNotation x) : HasNotation (.arr items)
  /-- An object has every key once. -/
  | obj {entries : List (String × Json)} (hkeys : (entries.map Prod.fst).Nodup)
    (h : ∀ entry ∈ entries, HasNotation entry.2) : HasNotation (.obj entries)

namespace Reader

variable {cs rest after gap : List Char} {s : Scalar}

/-! ## Scalars -/

/-- A scalar other than a string is a word or a number. -/
theorem cases_of_plain (h : plain cs = .ok (s, after)) :
    (∃ word, (word, s) ∈ words ∧ after? word.toList cs = some after) ∨
      number cs = .ok (s, after) := by
  rw [plain] at h
  split at h
  · rename_i found hfound
    cases h
    obtain ⟨⟨word, s'⟩, hmem, hword⟩ := List.exists_of_findSome?_eq_some hfound
    obtain ⟨after', hafter, hpair⟩ := Option.map_eq_some_iff.1 hword
    cases hpair
    exact .inl ⟨word, hmem, hafter⟩
  · exact .inr h

theorem plain_scalarText (h : s.HasNotation) (hstr : s.kind ≠ .str) (hrest : Follows rest) :
    plain ((scalarText s).toList ++ rest) = .ok (s, rest) := by
  cases s with
  | null => exact plain_word "null" (by decide) rest
  | bool b =>
    cases b with
    | false => exact plain_word "false" (by decide) rest
    | true => exact plain_word "true" (by decide) rest
  | int n => exact plain_of_number (number_append hrest (number_toString h))
  | float x =>
    change plain ((floatText x).toList ++ rest) = _
    rw [floatText]
    cases hnan : x.isNaN with
    | true =>
      rw [h hnan]
      exact plain_word "NaN" (by decide) rest
    | false =>
      cases hfinite : x.isFinite with
      | true => exact plain_of_number (number_append hrest (Binary64.number_text hfinite))
      | false =>
        have hx := Binary64.eq_infinity hnan hfinite
        cases hsign : x.isNegative with
        | false =>
          rw [hsign] at hx
          rw [hx]
          exact plain_word "Infinity" (by decide) rest
        | true =>
          rw [hsign] at hx
          rw [hx]
          exact plain_word "-Infinity" (by decide) rest
  | str s => exact absurd rfl hstr

/-! ## How values begin -/

/-- The characters that a word or a negative number begins with. -/
def initials : List Char := ['n', 't', 'f', 'N', 'I', '-']

/-- Whether a value may begin with a character. -/
def begins (c : Char) : Bool := c.isDigit || c ∈ '"' :: '[' :: '{' :: initials

theorem eq_cons_of_after? {c : Char} {ws : List Char} (h : after? (c :: ws) cs = some after) :
    ∃ ds, cs = c :: ds := by
  cases cs with
  | nil => cases h
  | cons d ds =>
    by_cases hcd : c = d
    · exact ⟨ds, by rw [hcd]⟩
    · rw [after?_of_ne hcd] at h
      cases h

theorem eq_cons_of_plain (h : plain cs = .ok (s, after)) :
    ∃ c ds, cs = c :: ds ∧ (c.isDigit = true ∨ c ∈ initials) := by
  obtain ⟨word, hword, hafter⟩ | hnumber := cases_of_plain h
  · simp only [words, List.mem_cons, List.not_mem_nil, or_false, Prod.mk.injEq] at hword
    obtain ⟨rfl, -⟩ | ⟨rfl, -⟩ | ⟨rfl, -⟩ | ⟨rfl, -⟩ | ⟨rfl, -⟩ | ⟨rfl, -⟩ := hword
    all_goals
      obtain ⟨ds, rfl⟩ := eq_cons_of_after? hafter
      exact ⟨_, ds, rfl, .inr (by decide)⟩
  · obtain ⟨c, ds, rfl | rfl, hc⟩ := isDigit_of_number hnumber
    · exact ⟨c, ds, rfl, .inl hc⟩
    · exact ⟨'-', c :: ds, rfl, .inr (by decide)⟩

theorem value_of_plain (h : plain cs = .ok (s, after)) (fuel : Nat) :
    value (fuel + 1) cs = .ok (.scalar s, after) := by
  obtain ⟨c, ds, rfl, hc⟩ := eq_cons_of_plain h
  have hne : c ≠ '"' ∧ c ≠ '[' ∧ c ≠ '{' := by
    refine ⟨?_, ?_, ?_⟩ <;> (rintro rfl; revert hc; decide)
  rw [value]
  · rw [h]
    rfl
  · exact fun _ heq => hne.1 (List.cons.inj heq).1
  · exact fun _ heq => hne.2.1 (List.cons.inj heq).1
  · exact fun _ heq => hne.2.2 (List.cons.inj heq).1

theorem eq_cons_of_value {fuel : Nat} {r : Json × List Char} (h : value fuel cs = .ok r) :
    ∃ c ds, cs = c :: ds ∧ begins c = true := by
  cases fuel with
  | zero => cases h
  | succ fuel =>
    unfold value at h
    split at h
    · exact ⟨_, _, rfl, by decide⟩
    · exact ⟨_, _, rfl, by decide⟩
    · exact ⟨_, _, rfl, by decide⟩
    · cases hplain : plain cs with
      | error e =>
        rw [hplain] at h
        cases h
      | ok found =>
        obtain ⟨c, ds, rfl, hc⟩ := eq_cons_of_plain hplain
        refine ⟨c, ds, rfl, ?_⟩
        rw [begins, Bool.or_eq_true, decide_eq_true_eq]
        exact hc.imp_right fun hc => .tail _ (.tail _ (.tail _ hc))

/-- No value begins with a character that may follow one, or with a byte order mark. -/
theorem ne_of_begins {c d : Char} (h : begins c = true) (hd : d ∈ '\uFEFF' :: delimiters) :
    c ≠ d := by
  rintro rfl
  simp only [delimiters, List.mem_cons, List.not_mem_nil, or_false] at hd
  obtain rfl | rfl | rfl | rfl | rfl | rfl | rfl | rfl := hd <;> exact absurd h (by decide)

theorem isSpace_of_begins {c : Char} (h : begins c = true) : isSpace c = false := by
  simp only [isSpace, Bool.or_eq_false_iff, decide_eq_false_iff_not]
  exact ⟨⟨⟨ne_of_begins h (by decide), ne_of_begins h (by decide)⟩, ne_of_begins h (by decide)⟩,
    ne_of_begins h (by decide)⟩

/-! ## Gaps -/

/-- Texts of nothing but space. -/
def IsGap (gap : List Char) : Prop := ∀ c ∈ gap, isSpace c = true

theorem mem_delimiters_of_isSpace {c : Char} (h : isSpace c = true) : c ∈ delimiters := by
  simp only [isSpace, Bool.or_eq_true, decide_eq_true_eq] at h
  obtain ((rfl | rfl) | rfl) | rfl := h <;> decide

theorem IsGap.follows (hgap : IsGap gap) (h : Follows rest) : Follows (gap ++ rest) := by
  cases gap with
  | nil => exact h
  | cons c gap => exact follows_cons (mem_delimiters_of_isSpace (hgap c List.mem_cons_self)) _

theorem IsGap.skipSpace_append (hgap : IsGap gap) (cs : List Char) :
    skipSpace (gap ++ cs) = skipSpace cs :=
  List.dropWhile_append_of_pos hgap

theorem skipSpace_of_begins {c : Char} (h : begins c = true) (cs : List Char) :
    skipSpace (c :: cs) = c :: cs := by
  rw [skipSpace, List.dropWhile_cons, isSpace_of_begins h]
  rfl

theorem isGap_lineBreak (indent? : Option Nat) (depth : Nat) :
    IsGap (lineBreak indent? depth).toList := by
  intro c hc
  cases indent? with
  | none => cases hc
  | some n =>
    rw [lineBreak, String.toList_append, List.mem_append] at hc
    obtain hc | hc := hc
    · cases List.mem_singleton.1 hc
      rfl
    · rw [String.toList_ofList] at hc
      rw [List.eq_of_mem_replicate hc]
      rfl

theorem exists_gap_separator (indent? : Option Nat) (depth : Nat) :
    ∃ gap, (separator indent? depth).toList = ',' :: gap ∧ IsGap gap := by
  cases indent? with
  | none =>
    refine ⟨[' '], ?_, by simp [IsGap, isSpace]⟩
    rw [separator, Option.isNone_none, if_pos rfl]
    decide
  | some n =>
    refine ⟨(lineBreak (some n) depth).toList, ?_, isGap_lineBreak _ _⟩
    rw [separator, Option.isNone_some, if_neg Bool.false_ne_true, String.toList_append]
    rfl

/-! ## Texts of values -/

/-- Whether a value is read from a text, whatever may follow it, with twice as much fuel as the text
has characters. -/
def IsText (text : List Char) (x : Json) : Prop :=
  ∀ fuel rest, Follows rest → 2 * text.length ≤ fuel + 1 → value fuel (text ++ rest) = .ok (x, rest)

/-- A text of a value is not empty, and no space is skipped before it. -/
theorem IsText.eq_cons {text : List Char} {x : Json} (h : IsText text x) :
    ∃ c ds, text = c :: ds ∧ begins c = true := by
  have hread := h (2 * text.length) [] follows_nil (Nat.le_succ _)
  rw [List.append_nil] at hread
  exact eq_cons_of_value hread

theorem isText_scalar (h : s.HasNotation) (hstr : s.kind ≠ .str) :
    IsText (scalarText s).toList (.scalar s) := by
  intro fuel rest hrest hfuel
  have hplain := plain_scalarText h hstr hrest
  cases fuel with
  | zero =>
    have hempty : (scalarText s).toList = [] := List.eq_nil_of_length_eq_zero (by omega)
    have hnil := plain_scalarText h hstr follows_nil
    rw [hempty] at hnil
    cases hnil
  | succ fuel => exact value_of_plain hplain fuel

theorem isText_str (s : String) : IsText (stringText s).toList (.str s) := by
  intro fuel rest _ hfuel
  have hread := string_stringText s rest
  rw [toList_stringText] at hread hfuel ⊢
  cases fuel with
  | zero =>
    rw [List.length_cons] at hfuel
    omega
  | succ fuel =>
    rw [List.cons_append] at hread ⊢
    rw [value, hread]
    rfl

/-! ## Arrays -/

theorem items_last {fuel : Nat} {x : Json} (hx : value fuel cs = .ok (x, gap ++ ']' :: rest))
    (hgap : IsGap gap) : items (fuel + 1) cs = .ok ([x], rest) := by
  simp only [items, hx, bind, Except.bind, hgap.skipSpace_append]
  rfl

theorem items_more {fuel : Nat} {x : Json} {c : Char}
    (hx : value fuel cs = .ok (x, ',' :: gap ++ c :: rest)) (hgap : IsGap gap)
    (hc : begins c = true) {xs : List Json} (hxs : items fuel (c :: rest) = .ok (xs, after)) :
    items (fuel + 1) cs = .ok (x :: xs, after) := by
  have hskip : skipSpace (gap ++ c :: rest) = c :: rest := by
    rw [hgap.skipSpace_append, skipSpace_of_begins hc]
  rw [items, hx]
  change (items fuel (skipSpace (gap ++ c :: rest)) >>= _) = _
  rw [hskip, hxs]
  rfl

variable {start gap' : List Char}

/-- Texts that stand apart begin with the first of them. -/
theorem exists_intercalate (sep text : List Char) (texts : List (List Char)) :
    ∃ ds, sep.intercalate (text :: texts) = text ++ ds := by
  cases texts with
  | nil => exact ⟨[], by rw [List.intercalate_singleton, List.append_nil]⟩
  | cons text' texts => exact ⟨_, by rw [List.intercalate_cons_cons, List.append_assoc]⟩

theorem eq_cons_of_intercalate {α : Type} {r : List Char → α → Prop} {p : Char → Prop}
    (hhead : ∀ {text x}, r text x → ∃ c ds, text = c :: ds ∧ p c) {texts : List (List Char)}
    {xs : List α} (h : List.Forall₂ r texts xs) (hne : texts ≠ []) (sep : List Char) :
    ∃ c ds, sep.intercalate texts = c :: ds ∧ p c := by
  cases h with
  | nil => exact absurd rfl hne
  | @cons text x texts xs hx hxs =>
    obtain ⟨c, ds, rfl, hc⟩ := hhead hx
    obtain ⟨ds', hds'⟩ := exists_intercalate sep (c :: ds) texts
    exact ⟨c, ds ++ ds', hds', hc⟩

/-- Items that stand apart are read up to the end of the array. -/
theorem items_intercalate (hgap : IsGap gap) (hend : IsGap gap') {texts : List (List Char)}
    {xs : List Json} (h : List.Forall₂ IsText texts xs) (hne : texts ≠ []) (rest : List Char)
    {fuel : Nat} (hfuel : 2 * ((',' :: gap).intercalate texts).length ≤ fuel) :
    items fuel ((',' :: gap).intercalate texts ++ (gap' ++ ']' :: rest)) = .ok (xs, rest) := by
  induction h generalizing fuel with
  | nil => exact absurd rfl hne
  | @cons text x texts xs hx hxs ih =>
    have hpos : 0 < text.length := by
      obtain ⟨c, ds, rfl, -⟩ := hx.eq_cons
      exact Nat.succ_pos _
    cases hxs with
    | nil =>
      rw [List.intercalate_singleton] at hfuel ⊢
      obtain ⟨fuel, rfl⟩ : ∃ n, fuel = n + 1 := ⟨fuel - 1, by omega⟩
      exact items_last (hx _ _ (hend.follows (follows_cons (by decide) _)) hfuel) hend
    | @cons text' x' texts xs hx' hxs =>
      -- The comma pays for the two steps that go into the item and on to the next one.
      rw [List.intercalate_cons_cons, List.length_append, List.length_append,
        List.length_cons] at hfuel
      obtain ⟨fuel, rfl⟩ : ∃ n, fuel = n + 1 := ⟨fuel - 1, by omega⟩
      obtain ⟨c, ds, hcs, hc⟩ :=
        eq_cons_of_intercalate (r := IsText) IsText.eq_cons (.cons hx' hxs) (by simp) (',' :: gap)
      have hinner : items fuel ((',' :: gap).intercalate (text' :: texts) ++
          (gap' ++ ']' :: rest)) = .ok (x' :: xs, rest) := ih (by simp) (by omega)
      rw [List.intercalate_cons_cons, List.append_assoc, List.append_assoc]
      rw [hcs] at hinner ⊢
      exact items_more (hx _ _ (follows_cons (by decide) _) (by omega)) hgap hc hinner

theorem value_arr {fuel : Nat} {c : Char} {ds : List Char} (hskip : skipSpace cs = c :: ds)
    (hc : begins c = true) {xs : List Json} (h : items fuel (c :: ds) = .ok (xs, rest)) :
    value (fuel + 1) ('[' :: cs) = .ok (.arr xs, rest) := by
  rw [value, hskip]
  split
  · rename_i heq
    exact absurd (List.cons.inj heq).1 (ne_of_begins hc (by decide))
  · rw [h]
    rfl

theorem isText_arr_nil : IsText ['[', ']'] (.arr []) := by
  intro fuel rest _ hfuel
  obtain ⟨fuel, rfl⟩ : ∃ n, fuel = n + 1 := ⟨fuel - 1, by simp at hfuel; omega⟩
  rfl

theorem isText_arr (hstart : IsGap start) (hgap : IsGap gap) (hend : IsGap gap')
    {texts : List (List Char)} {xs : List Json} (h : List.Forall₂ IsText texts xs)
    (hne : texts ≠ []) :
    IsText ('[' :: (start ++ ((',' :: gap).intercalate texts ++ (gap' ++ [']'])))) (.arr xs) := by
  intro fuel rest _ hfuel
  simp only [List.length_cons, List.length_append] at hfuel
  obtain ⟨fuel, rfl⟩ : ∃ n, fuel = n + 1 := ⟨fuel - 1, by omega⟩
  have hitems : items fuel ((',' :: gap).intercalate texts ++ (gap' ++ ']' :: rest)) =
      .ok (xs, rest) := items_intercalate hgap hend h hne rest (by omega)
  obtain ⟨c, ds, hcs, hc⟩ := eq_cons_of_intercalate (r := IsText) IsText.eq_cons h hne (',' :: gap)
  rw [hcs] at hitems ⊢
  simp only [List.cons_append, List.append_assoc, List.nil_append]
  exact value_arr ((hstart.skipSpace_append _).trans (skipSpace_of_begins hc _)) hc hitems

/-! ## Objects -/

/-- Whether an entry of an object is read from a text. -/
def IsEntryText (text : List Char) (entry : String × Json) : Prop :=
  ∃ inner, text = (stringText entry.1).toList ++ ':' :: ' ' :: inner ∧ IsText inner entry.2

theorem IsEntryText.eq_cons {text : List Char} {entry : String × Json}
    (h : IsEntryText text entry) : ∃ c ds, text = c :: ds ∧ c = '"' := by
  obtain ⟨inner, rfl, -⟩ := h
  rw [toList_stringText]
  exact ⟨_, _, rfl, rfl⟩

theorem entries_of_value {fuel : Nat} {x : Json} (hx : value fuel cs = .ok (x, after))
    (acc : List (String × Json)) (key : String) :
    entries (fuel + 1) acc ((stringText key).toList ++ ':' :: ' ' :: cs) =
      match skipSpace after with
      | '}' :: rest => .ok (.obj (put key x acc), rest)
      | ',' :: rest => entries fuel (put key x acc) (skipSpace rest)
      | rest => .error (.malformed ⟨.commaExpected, rest⟩) := by
  obtain ⟨c, ds, rfl, hc⟩ := eq_cons_of_value hx
  have hread := string_stringText key (':' :: ' ' :: c :: ds)
  have hskip : skipSpace (' ' :: c :: ds) = c :: ds := skipSpace_of_begins hc ds
  rw [toList_stringText, List.cons_append] at hread ⊢
  rw [entries, hread]
  change (value fuel (skipSpace (' ' :: c :: ds)) >>= _) = _
  rw [hskip, hx]
  rfl

theorem entries_last {fuel : Nat} {x : Json} (hx : value fuel cs = .ok (x, gap ++ '}' :: rest))
    (hgap : IsGap gap) (acc : List (String × Json)) (key : String) :
    entries (fuel + 1) acc ((stringText key).toList ++ ':' :: ' ' :: cs) =
      .ok (.obj (put key x acc), rest) := by
  rw [entries_of_value hx, hgap.skipSpace_append]
  rfl

theorem entries_more {fuel : Nat} {x : Json}
    (hx : value fuel cs = .ok (x, ',' :: gap ++ '"' :: rest)) (hgap : IsGap gap)
    (acc : List (String × Json)) (key : String) :
    entries (fuel + 1) acc ((stringText key).toList ++ ':' :: ' ' :: cs) =
      entries fuel (put key x acc) ('"' :: rest) := by
  rw [entries_of_value hx]
  change entries fuel (put key x acc) (skipSpace (gap ++ '"' :: rest)) = _
  rw [hgap.skipSpace_append]
  rfl

theorem put_of_not_mem {key : String} {x : Json} {acc : List (String × Json)}
    (h : key ∉ acc.map Prod.fst) : put key x acc = acc ++ [(key, x)] := by
  induction acc with
  | nil => rfl
  | cons entry acc ih =>
    rw [List.map_cons, List.mem_cons, not_or] at h
    rw [put, if_neg fun heq => h.1 heq.symm, ih h.2]
    rfl

/-- Entries that stand apart are read up to the end of the object. -/
theorem entries_intercalate (hgap : IsGap gap) (hend : IsGap gap') {texts : List (List Char)}
    {xs : List (String × Json)} (h : List.Forall₂ IsEntryText texts xs) (hne : texts ≠ [])
    (rest : List Char) {fuel : Nat}
    (hfuel : 2 * ((',' :: gap).intercalate texts).length ≤ fuel) {acc : List (String × Json)}
    (hkeys : ((acc ++ xs).map Prod.fst).Nodup) :
    entries fuel acc ((',' :: gap).intercalate texts ++ (gap' ++ '}' :: rest)) =
      .ok (.obj (acc ++ xs), rest) := by
  induction h generalizing fuel acc with
  | nil => exact absurd rfl hne
  | @cons text entry texts xs hx hxs ih =>
    obtain ⟨key, x⟩ := entry
    obtain ⟨inner, rfl, hinner⟩ := hx
    have hput : put key x acc = acc ++ [(key, x)] := by
      refine put_of_not_mem fun hmem => ?_
      rw [List.map_append, List.nodup_append'] at hkeys
      exact hkeys.2.2 hmem List.mem_cons_self
    have happend : acc ++ (key, x) :: xs = acc ++ [(key, x)] ++ xs := by simp
    rw [happend] at hkeys ⊢
    cases hxs with
    | nil =>
      rw [List.intercalate_singleton, List.length_append, List.length_cons,
        List.length_cons] at hfuel
      obtain ⟨fuel, rfl⟩ : ∃ n, fuel = n + 1 := ⟨fuel - 1, by omega⟩
      rw [List.intercalate_singleton, List.append_assoc, List.cons_append, List.cons_append,
        entries_last (hinner _ _ (hend.follows (follows_cons (by decide) _)) (by omega)) hend, hput,
        List.append_nil]
    | @cons text' entry' texts xs hx' hxs =>
      rw [List.intercalate_cons_cons, List.length_append, List.length_append, List.length_append,
        List.length_cons, List.length_cons, List.length_cons] at hfuel
      obtain ⟨fuel, rfl⟩ : ∃ n, fuel = n + 1 := ⟨fuel - 1, by omega⟩
      have hrest : entries fuel (acc ++ [(key, x)]) ((',' :: gap).intercalate (text' :: texts) ++
          (gap' ++ '}' :: rest)) = .ok (.obj (acc ++ [(key, x)] ++ entry' :: xs), rest) :=
        ih (by simp) (by omega) hkeys
      obtain ⟨_, ds, hds, rfl⟩ :=
        eq_cons_of_intercalate (r := IsEntryText) IsEntryText.eq_cons (.cons hx' hxs) (by simp) (',' :: gap)
      rw [List.intercalate_cons_cons, List.append_assoc, List.append_assoc, List.append_assoc,
        List.cons_append, List.cons_append]
      rw [hds] at hrest ⊢
      rw [← hrest, ← hput]
      exact entries_more (hinner _ _ (follows_cons (by decide) _) (by omega)) hgap acc key

theorem isText_obj_nil : IsText ['{', '}'] (.obj []) := by
  intro fuel rest _ hfuel
  obtain ⟨fuel, rfl⟩ : ∃ n, fuel = n + 1 := ⟨fuel - 1, by simp at hfuel; omega⟩
  rfl

theorem isText_obj (hstart : IsGap start) (hgap : IsGap gap) (hend : IsGap gap')
    {texts : List (List Char)} {xs : List (String × Json)} (h : List.Forall₂ IsEntryText texts xs)
    (hne : texts ≠ []) (hkeys : (xs.map Prod.fst).Nodup) :
    IsText ('{' :: (start ++ ((',' :: gap).intercalate texts ++ (gap' ++ ['}'])))) (.obj xs) := by
  intro fuel rest _ hfuel
  simp only [List.length_cons, List.length_append] at hfuel
  obtain ⟨fuel, rfl⟩ : ∃ n, fuel = n + 1 := ⟨fuel - 1, by omega⟩
  have hentries : entries fuel [] ((',' :: gap).intercalate texts ++ (gap' ++ '}' :: rest)) =
      .ok (.obj ([] ++ xs), rest) := entries_intercalate hgap hend h hne rest (by omega) hkeys
  obtain ⟨_, ds, hds, rfl⟩ := eq_cons_of_intercalate (r := IsEntryText) IsEntryText.eq_cons h hne (',' :: gap)
  rw [hds] at hentries ⊢
  simp only [List.cons_append, List.append_assoc, List.nil_append] at hentries ⊢
  rw [value, hstart.skipSpace_append]
  exact hentries

/-! ## All data -/

theorem writeItems_eq_map (indent? : Option Nat) (depth : Nat) (xs : List Json) :
    writeItems indent? depth xs = xs.map (writeAt indent? depth) := by
  induction xs with
  | nil => rfl
  | cons x xs ih => rw [writeItems, ih, List.map_cons]

theorem writeEntries_eq_map (indent? : Option Nat) (depth : Nat) (xs : List (String × Json)) :
    writeEntries indent? depth xs =
      xs.map fun entry => stringText entry.1 ++ ": " ++ writeAt indent? depth entry.2 := by
  induction xs with
  | nil => rfl
  | cons entry xs ih => rw [writeEntries, ih, List.map_cons]

theorem toList_bracketed (indent? : Option Nat) (depth : Nat) (opening closing : String)
    {parts : List String} (h : parts ≠ []) :
    (bracketed indent? depth opening closing parts).toList =
      opening.toList ++ ((lineBreak indent? (depth + 1)).toList ++
        ((separator indent? (depth + 1)).toList.intercalate (parts.map String.toList) ++
          ((lineBreak indent? depth).toList ++ closing.toList))) := by
  rw [bracketed, if_neg (by simpa using h)]
  simp only [String.toList_append, String.toList_intercalate, List.append_assoc]

/-- Data is read from its own text, whatever may follow it. -/
theorem isText_writeAt {x : Json} (h : x.HasNotation) (indent? : Option Nat) (depth : Nat) :
    IsText (writeAt indent? depth x).toList x := by
  induction h generalizing depth with
  | @scalar s h =>
    cases s with
    | str s => exact isText_str s
    | _ => exact isText_scalar h nofun
  | @arr xs h ih =>
    rw [writeAt, writeItems_eq_map]
    obtain rfl | hne := eq_or_ne xs []
    · rw [List.map_nil, bracketed, if_pos List.isEmpty_nil]
      exact isText_arr_nil
    · obtain ⟨gap, hsep, hgap⟩ := exists_gap_separator indent? (depth + 1)
      rw [toList_bracketed _ _ _ _ (by simpa using hne), hsep]
      refine isText_arr (isGap_lineBreak _ _) hgap (isGap_lineBreak _ _) ?_ (by simpa using hne)
      rw [List.map_map, List.forall₂_map_left_iff, List.forall₂_same]
      exact fun x hx => ih x hx (depth + 1)
  | @obj entries hkeys h ih =>
    rw [writeAt, writeEntries_eq_map]
    obtain rfl | hne := eq_or_ne entries []
    · rw [List.map_nil, bracketed, if_pos List.isEmpty_nil]
      exact isText_obj_nil
    · obtain ⟨gap, hsep, hgap⟩ := exists_gap_separator indent? (depth + 1)
      rw [toList_bracketed _ _ _ _ (by simpa using hne), hsep]
      refine isText_obj (isGap_lineBreak _ _) hgap (isGap_lineBreak _ _) ?_ (by simpa using hne)
        hkeys
      rw [List.map_map, List.forall₂_map_left_iff, List.forall₂_same]
      intro entry hentry
      refine ⟨_, ?_, ih entry hentry (depth + 1)⟩
      rw [Function.comp_apply, String.toList_append, String.toList_append, List.append_assoc]
      rfl

end Reader

open Reader

/-- Data is read from its own text and some space after it. -/
theorem read_write {x : Json} (h : x.HasNotation) (indent? : Option Nat) {gap : List Char}
    (hgap : IsGap gap) : read ((x.write indent?).toList ++ gap) = .ok x := by
  have htext := isText_writeAt h indent? 0
  obtain ⟨c, ds, hcs, hc⟩ := htext.eq_cons
  have hvalue := htext (2 * ((x.write indent?).toList ++ gap).length + 2) gap
    (by simpa using hgap.follows follows_nil) (by rw [write, List.length_append]; omega)
  have hskip : skipSpace gap = [] := List.dropWhile_eq_nil_iff.2 hgap
  rw [← write] at hcs hvalue
  rw [hcs, List.cons_append] at hvalue ⊢
  rw [read]
  · simp only [skipSpace_of_begins hc, hvalue, bind, Except.bind, hskip]
    rfl
  · exact fun _ heq => ne_of_begins hc List.mem_cons_self (List.cons.inj heq).1

end Json

end LspWire
