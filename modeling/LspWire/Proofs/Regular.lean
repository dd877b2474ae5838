import LspWire.Proofs.Declarations
import LspWire.Proofs.Reading.Choice

/-!
# Regular types

A type is regular if it holds no wire form of its own, no number with a fraction, and if its unions
are flat and keep raw values apart from members: an enumeration and bare raw values stand beside each
other only where the enumeration is open. Reading data as a type without numbers with a fraction
never fails with an integer that is too large, so a union of regular types reads what
`Schema.chosen?` says. All types of fields are regular but the wire forms of their own.
-/

namespace LspWire

variable {R E : Type}

namespace Schema

/-- Whether raw values stand beside members only in an enumeration that is open, and then not beside
sums of flags. -/
def keepsRawApart (S : Schema R E) (ts : List (Ty R E)) : Bool :=
  match openEnumeration? (others ts) with
  | some e => !(S.enumeration e).isFlags
  | none => !(ts.any (·.isUnknown) && ts.any (·.isEnumeration))

/-- The condition on every type in a regular type. -/
def isRegularAt (S : Schema R E) : Ty R E → Bool
  | .float | .packed _ | .recordOrFlag .. => false
  | .union ts => (ts.all fun t => !t.isUnion) && S.keepsRawApart ts
  | _ => true

/-- Whether a type is regular. -/
def isRegular (S : Schema R E) (t : Ty R E) : Bool := t.every S.isRegularAt

variable {S : Schema R E} {σ : Surface}

theorem isPortable_of_isRegular {t : Ty R E} (h : S.isRegular t = true) : t.isPortable = true := by
  refine Ty.every_mono (fun u hu => ?_) h
  cases u <;> first | rfl | cases hu

theorem isFloatless_of_isRegular {t : Ty R E} (h : S.isRegular t = true) : t.isFloatless = true := by
  refine Ty.every_mono (fun u hu => ?_) h
  cases u <;> first | rfl | cases hu

theorem isRegular_of_mem {ts : List (Ty R E)} (h : S.isRegular (.union ts) = true) {t : Ty R E}
    (ht : t ∈ ts) : S.isRegular t = true ∧ t.isUnion = false := by
  refine ⟨Ty.every_of_every_union h t ht, ?_⟩
  have hflat := Ty.of_every h
  rw [isRegularAt, Bool.and_eq_true, List.all_eq_true] at hflat
  simpa using hflat.1 t ht

theorem keepsRawApart_of_isRegular {ts : List (Ty R E)} (h : S.isRegular (.union ts) = true) :
    S.keepsRawApart ts = true := by
  have hregular := Ty.of_every h
  rw [isRegularAt, Bool.and_eq_true] at hregular
  exact hregular.2

theorem isFlags_of_open {ts : List (Ty R E)} {e : E} (h : S.isRegular (.union ts) = true)
    (hopen : openEnumeration? (others ts) = some e) : (S.enumeration e).isFlags = false := by
  have hraw := keepsRawApart_of_isRegular h
  rw [keepsRawApart, hopen] at hraw
  simpa using hraw

/-! ## Integers that are too large -/

theorem bind_ne_tooLarge {α β : Type} {x : Except Failure α} {f : α → Except Failure β}
    (hx : x ≠ .error .tooLarge) (hf : ∀ v, f v ≠ .error .tooLarge) :
    x >>= f ≠ .error .tooLarge := by
  cases x with
  | ok v => exact hf v
  | error failure => exact fun h => hx (Except.error.inj h ▸ rfl)

theorem available_ne_tooLarge {name : String} {isProposed isCovered : Bool}
    {introducedIn : Option String} :
    available σ name isProposed isCovered introducedIn ≠ .error .tooLarge := by
  unfold available
  split
  · nofun
  · split <;> nofun

theorem readMember_ne_tooLarge {e : E} {layer : Layer (Readable R E)} :
    S.readMember σ e layer ≠ .error .tooLarge := by
  unfold readMember
  dsimp only
  split
  · split
    · nofun
    · split
      · nofun
      · split
        · nofun
        · exact bind_ne_tooLarge available_ne_tooLarge nofun
  · nofun

theorem readEnumeration_ne_tooLarge {e : E} {layer : Layer (Readable R E)} :
    S.readEnumeration σ e layer ≠ .error .tooLarge := by
  unfold readEnumeration
  split
  · split <;> exact fun h => by cases h
  · exact readMember_ne_tooLarge

theorem readOpen_ne_tooLarge {e : E} {layer : Layer (Readable R E)} :
    S.readOpen σ e layer ≠ .error .tooLarge := by
  unfold readOpen
  split
  · split
    · exact readMember_ne_tooLarge
    · split <;> nofun
  · exact readMember_ne_tooLarge

theorem built_ne_tooLarge {r : R} {values : List (Value R E)} :
    S.built σ r values ≠ .error .tooLarge := by
  have hrefusal (refusal : Refusal) : ofRefusal refusal ≠ .tooLarge := by
    cases refusal <;> nofun
  unfold built
  split
  · nofun
  · exact fun h => hrefusal _ (Except.error.inj h)
  · exact fun h => hrefusal _ (Except.error.inj h)

theorem readFields_ne_tooLarge {r : R} {fields : List (Field R E)}
    {entries : List (String × Readable R E)} :
    S.readFields σ r fields entries ≠ .error .tooLarge := by
  unfold readFields
  dsimp only
  split
  · split
    · exact built_ne_tooLarge
    · nofun
  · nofun

theorem readEntries_ne_tooLarge {item : Ty R E} {entries : List (String × Readable R E)} :
    readEntries item entries ≠ .error .tooLarge := by
  unfold readEntries
  generalize collect _ = result
  cases result <;> exact fun h => by cases h

theorem readList_ne_tooLarge {item : Ty R E} {layer : Layer (Readable R E)} :
    readList item layer ≠ .error .tooLarge := by
  unfold readList
  split
  · split <;> nofun
  · nofun

/-- The items of a list report all their failures. -/
theorem decodeAt_list_ne_tooLarge {item : Ty R E} {x : Json} :
    S.decodeAt σ (.list item) x ≠ .error .tooLarge := by
  rw [decodeAt_eq_readAs, readAs]
  exact readList_ne_tooLarge

theorem decodeAt_map_ne_tooLarge {item : Ty R E} {x : Json} :
    S.decodeAt σ (.map item) x ≠ .error .tooLarge := by
  rw [decodeAt_eq_readAs]
  unfold readAs
  split
  · rename_i entries _
    cases hread : readEntries item entries with
    | ok values => exact fun h => by cases h
    | error failure => exact fun h => readEntries_ne_tooLarge (hread.trans (Except.error.inj h ▸ rfl))
  · exact fun h => by cases h

theorem readSpread_ne_tooLarge {r : R} {key : Field R E} {restTag : Option Tag} {item : Ty R E}
    {entries : List (String × Readable R E)}
    (hkey : ∀ x, entries.lookup key.name = some x → x.readAs key.ty ≠ .error .tooLarge) :
    S.readSpread σ r key restTag item entries ≠ .error .tooLarge := by
  unfold readSpread
  split
  · nofun
  · rename_i x hx
    refine bind_ne_tooLarge (hkey x hx) fun title => ?_
    dsimp only
    split
    · exact built_ne_tooLarge
    · exact bind_ne_tooLarge readEntries_ne_tooLarge fun rest => built_ne_tooLarge

theorem choose_ne_tooLarge {layer : Layer (Readable R E)} {fallback : Option (Value R E)}
    {readings : List (Ty R E × Except Failure (Value R E))}
    (h : ∀ reading ∈ readings, reading.2 ≠ .error .tooLarge) :
    S.choose layer fallback readings ≠ .error .tooLarge := by
  induction readings generalizing fallback with
  | nil => exact fun h => by cases h
  | cons reading readings ih =>
    obtain ⟨t, result⟩ := reading
    rw [List.forall_mem_cons] at h
    cases result with
    | error failure =>
      cases failure with
      | tooLarge => exact absurd rfl h.1
      | faults faults => exact ih h.2
    | ok v =>
      rw [choose]
      split
      · exact fun h => by cases h
      · exact ih h.2

theorem readUnion_ne_tooLarge {layer : Layer (Readable R E)}
    {readings : List (Ty R E × Except Failure (Value R E))}
    (h : ∀ reading ∈ readings, reading.2 ≠ .error .tooLarge) :
    S.readUnion σ layer readings ≠ .error .tooLarge := by
  unfold readUnion
  dsimp only
  split
  · exact fun h => by cases h
  · have hfilter (p : Ty R E × Except Failure (Value R E) → Bool) :
        ∀ reading ∈ readings.filter p, reading.2 ≠ .error .tooLarge :=
      fun reading hreading => h reading (List.mem_of_mem_filter hreading)
    split
    · rename_i heq
      exact hfilter _ _ (heq ▸ List.mem_cons_self)
    · exact readOpen_ne_tooLarge
    · refine bind_ne_tooLarge (choose_ne_tooLarge (hfilter _)) fun v? => ?_
      cases v? <;> exact fun h => by cases h

theorem readRecord_ne_tooLarge {r : R} (hspread : (S.record r).isSpread = false)
    {layer : Layer (Readable R E)} : S.readRecord σ r layer ≠ .error .tooLarge := by
  unfold readRecord
  dsimp only
  rw [RecordDecl.isSpread] at hspread
  split
  · rename_i hform
    rw [hform] at hspread
    cases hspread
  · exact fun h => by cases h
  · refine bind_ne_tooLarge available_ne_tooLarge fun _ => ?_
    split
    · exact readFields_ne_tooLarge
    · exact fun h => by cases h

end Schema

namespace Protocol

variable {σ : Surface}

/-- The one record whose other keys are the entries of a map. -/
theorem isSpread_record (r : RecordName) :
    (schema.record r).isSpread = (r == .messageActionItem) := by
  cases r <;> rfl

theorem form_messageActionItem :
    (schema.record .messageActionItem).form =
      .spread (.required "title" .str) "properties" (some (.since 16 true))
        messageActionItemProperty :=
  rfl

theorem readRecord_ne_tooLarge (r : RecordName) (x : Json) :
    schema.readRecord σ r (schema.layer σ x) ≠ .error .tooLarge := by
  cases hspread : (schema.record r).isSpread with
  | false => exact Schema.readRecord_ne_tooLarge hspread
  | true =>
    rw [isSpread_record, beq_iff_eq] at hspread
    subst hspread
    unfold Schema.readRecord
    simp only [form_messageActionItem]
    cases x with
    | scalar s => exact fun h => by cases h
    | arr items => exact fun h => by cases h
    | obj entries =>
      refine Schema.readSpread_ne_tooLarge fun x hx => ?_
      rw [Entries.lookup_map_value] at hx
      obtain ⟨d, -, rfl⟩ := Option.map_eq_some_iff.1 hx
      cases d with
      | scalar s => cases s <;> exact fun h => by cases h
      | arr items => exact fun h => by cases h
      | obj entries => exact fun h => by cases h

theorem exists_of_decodeAt_record {r : RecordName} {x : Json} {v : Datum}
    (h : schema.decodeAt σ (.record r) x = .ok v) :
    ∃ entries values, x = .obj entries ∧ v = .record r values := by
  cases hspread : (schema.record r).isSpread with
  | false =>
    rw [Schema.decodeAt_record_eq_ok_iff hspread (nodup_names r)] at h
    obtain ⟨-, entries, values, hx, hv, -⟩ := h
    exact ⟨entries, values, hx, hv⟩
  | true =>
    rw [isSpread_record, beq_iff_eq] at hspread
    subst hspread
    rw [Schema.decodeAt_spread_eq_ok_iff form_messageActionItem] at h
    obtain ⟨entries, d, title, restValue, hx, hv, -⟩ := h
    exact ⟨entries, _, hx, hv⟩

/-- A type that is not built over numbers with a fraction names all faults. -/
theorem decodeAt_ne_tooLarge {t : DataType} (ht : t.isFloatless = true) (x : Json) :
    schema.decodeAt σ t x ≠ .error .tooLarge := by
  induction t using Ty.induction with
  | union ts ih =>
    rw [Schema.decodeAt_union]
    refine Schema.readUnion_ne_tooLarge fun reading hreading => ?_
    obtain ⟨t, hmem, rfl⟩ := List.mem_map.1 hreading
    rw [← Schema.decodeAt_eq_readAs]
    exact ih t hmem (Ty.every_of_every_union ht t hmem)
  | any =>
    rw [Schema.decodeAt_any]
    exact fun h => by cases h
  | null =>
    rw [Schema.decodeAt_eq_readAs, Schema.readAs]
    split <;> exact fun h => by cases h
  | str =>
    rw [Schema.decodeAt_eq_readAs]
    unfold Schema.readAs
    split <;> exact fun h => by cases h
  | int =>
    rw [Schema.decodeAt_eq_readAs]
    unfold Schema.readAs
    split <;> exact fun h => by cases h
  | bool =>
    rw [Schema.decodeAt_eq_readAs]
    unfold Schema.readAs
    split <;> exact fun h => by cases h
  | float => cases ht
  | listOfAny =>
    rw [Schema.decodeAt_eq_readAs, Schema.readAs]
    exact Schema.readList_ne_tooLarge
  | unknown =>
    rw [Schema.decodeAt_eq_readAs]
    unfold Schema.readAs
    split <;> exact fun h => by cases h
  | literal text =>
    rw [Schema.decodeAt_eq_readAs, Schema.readAs]
    split <;> exact fun h => by cases h
  | enumeration e =>
    rw [Schema.decodeAt_eq_readAs, Schema.readAs]
    exact Schema.readEnumeration_ne_tooLarge
  | record r =>
    rw [Schema.decodeAt_eq_readAs, Schema.readAs]
    exact readRecord_ne_tooLarge r x
  | list item => exact Schema.decodeAt_list_ne_tooLarge
  | map item => exact Schema.decodeAt_map_ne_tooLarge
  | packed r =>
    rw [Schema.decodeAt_eq_readAs, Schema.readAs, Schema.readPacked]
    cases Schema.readTokens r (schema.layer σ x) <;> exact fun h => by cases h
  | recordOrFlag r label =>
    rw [Schema.decodeAt_eq_readAs, Schema.readAs]
    unfold Schema.readRecordOrFlag
    split
    · exact fun h => by cases h
    · exact fun h => by cases h
    · exact fun h => by cases h
    · exact readRecord_ne_tooLarge r x
    · exact fun h => by cases h

/-- A regular union whose enumerations are closed takes the chosen reading of data that null does
not stand for. -/
theorem decodeAt_union_eq_ok_iff {ts : List DataType} {x : Json} {v : Datum}
    (hts : schema.isRegular (.union ts) = true)
    (hclosed : Schema.openEnumeration? (Schema.others ts) = none)
    (hx : ¬(x = .null ∧ Ty.null ∈ ts)) :
    schema.decodeAt σ (.union ts) x = .ok v ↔
      schema.chosen? σ x (Schema.others ts) = some v := by
  refine Schema.decodeAt_union_eq_ok_iff hclosed hx fun t ht => ?_
  obtain ⟨hregular, -⟩ := Schema.isRegular_of_mem hts (Schema.mem_others_iff.1 ht).1
  exact decodeAt_ne_tooLarge (Schema.isFloatless_of_isRegular hregular) x

end Protocol

end LspWire
