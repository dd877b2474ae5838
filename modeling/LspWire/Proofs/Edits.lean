import LspWire.Proofs.Nulls
import LspWire.Proofs.Separation
import Mathlib.Data.List.Pairwise
import Mathlib.Data.List.Zip
import Mathlib.Logic.Relation

/-!
# Data that is read alike

Objects may show the same for every field of a record without being the same: they may differ in keys
that no field has, in fields outside the surface, and in null under the name of a field that is null
anyway. `Schema.Edited` relates data with such differences anywhere in it, but for the record with a
map among its keys, where every key counts, and for unions of several alternatives with records, where
keys decide between them. Such data is read alike, to the same value or to the same faults.
-/

namespace LspWire

variable {R E : Type}

namespace Ty

def isRecord : Ty R E → Bool
  | .record _ | .packed _ | .recordOrFlag .. => true
  | _ => false

/-- Whether a record stands anywhere in a type. -/
def holdsRecord (t : Ty R E) : Bool := !t.every fun u => !u.isRecord

@[simp] theorem holdsRecord_list (item : Ty R E) : (Ty.list item).holdsRecord = item.holdsRecord := by
  simp [holdsRecord, isRecord]

@[simp] theorem holdsRecord_map (item : Ty R E) : (Ty.map item).holdsRecord = item.holdsRecord := by
  simp [holdsRecord, isRecord]

theorem holdsRecord_union {ts : List (Ty R E)} {t : Ty R E} (ht : t ∈ ts)
    (h : t.holdsRecord = true) : (Ty.union ts).holdsRecord = true := by
  rw [holdsRecord, Bool.not_eq_true', ← Bool.not_eq_true] at h ⊢
  exact fun hevery => h (every_of_every_union hevery t ht)

end Ty

/-- The datum that an object gives for a field. Null gives nothing for a field that is null anyway. -/
def Field.given? (entries : List (String × Json)) (f : Field R E) : Option Json :=
  match entries.lookup f.name with
  | some x => if f.isOmittable && x = .null then none else some x
  | none => none

theorem Field.given?_of_always {entries : List (String × Json)} {f : Field R E}
    (h : f.isOmittable = false) : f.given? entries = entries.lookup f.name := by
  rw [Field.given?]
  cases entries.lookup f.name <;> simp [h]

namespace Schema

/-- Data that differs in nothing that its type looks at on a surface. -/
inductive Edited (S : Schema R E) (σ : Surface) : Ty R E → Json → Json → Prop where
  | refl (t : Ty R E) (x : Json) : Edited S σ t x x
  | list {item : Ty R E} {items items' : List Json} (hlength : items.length = items'.length)
    (hitems : ∀ p ∈ items.zip items', Edited S σ item p.1 p.2) :
    Edited S σ (.list item) (.arr items) (.arr items')
  | map {item : Ty R E} {entries entries' : List (String × Json)}
    (hlength : entries.length = entries'.length)
    (hkeys : ∀ p ∈ entries.zip entries', p.1.1 = p.2.1)
    (hentries : ∀ p ∈ entries.zip entries', Edited S σ item p.1.2 p.2.2) :
    Edited S σ (.map item) (.obj entries) (.obj entries')
  /-- Both objects give something for the same fields of the surface, and what they give differs in
  the same way. Other keys and fields outside the surface play no part. -/
  | record {r : R} {entries entries' : List (String × Json)}
    (hform : (S.record r).isSpread = false)
    (hgiven : ∀ f ∈ (S.record r).fields, f.isVisible σ = true →
      (f.given? entries).isSome = (f.given? entries').isSome)
    (hfields : ∀ f ∈ (S.record r).fields, f.isVisible σ = true → ∀ x x',
      f.given? entries = some x → f.given? entries' = some x' → Edited S σ f.ty x x') :
    Edited S σ (.record r) (.obj entries) (.obj entries')
  /-- A union with records in one alternative at most. -/
  | alternative {ts : List (Ty R E)} {t : Ty R E} {x x' : Json}
    (hlone : (ts.filter (·.holdsRecord)).length ≤ 1) (ht : t ∈ ts) (hx : Edited S σ t x x') :
    Edited S σ (.union ts) x x'
  | recordOfFlag {r : R} (label : String) {entries entries' : List (String × Json)}
    (h : Edited S σ (.record r) (.obj entries) (.obj entries')) :
    Edited S σ (.recordOrFlag r label) (.obj entries) (.obj entries')

variable {S : Schema R E} {σ : Surface}

/-! ## Single edits -/

namespace Edited

/-- An entry is added to an object under a new key: the key of no field, that of a field outside the
surface with any data, or that of a field that is null anyway with null. -/
theorem cons {r : R} (hform : (S.record r).isSpread = false) {entries : List (String × Json)}
    {key : String} {x : Json} (hkey : entries.lookup key = none)
    (hentry : ∀ f ∈ (S.record r).fields, f.name = key → f.isVisible σ = true →
      f.isOmittable = true ∧ x = .null) :
    S.Edited σ (.record r) (.obj entries) (.obj ((key, x) :: entries)) := by
  have hgiven : ∀ f ∈ (S.record r).fields, f.isVisible σ = true →
      f.given? ((key, x) :: entries) = f.given? entries := by
    intro f hf hvisible
    unfold Field.given?
    by_cases hname : f.name = key
    · obtain ⟨homittable, rfl⟩ := hentry f hf hname hvisible
      simp [hname, hkey, homittable]
    · have hne : (f.name == key) = false := by simpa using hname
      rw [List.lookup_cons, hne]
  refine .record hform (fun f hf hvisible => by rw [hgiven f hf hvisible]) ?_
  intro f hf hvisible y y' hy hy'
  rw [hgiven f hf hvisible, hy, Option.some.injEq] at hy'
  rw [hy']
  exact .refl f.ty y'

end Edited

/-! ## Readings of parts -/

theorem mapIdx_map {α β γ : Type} (f : α → β) (g : Nat → β → γ) (xs : List α) :
    (xs.map f).mapIdx g = xs.mapIdx fun i x => g i (f x) := by
  apply List.ext_getElem
  · simp
  · simp

theorem readList_congr {item : Ty R E} {items items' : List Json}
    (h : items.map (S.decodeAt σ item) = items'.map (S.decodeAt σ item)) :
    S.decodeAt σ (.list item) (.arr items) = S.decodeAt σ (.list item) (.arr items') := by
  have hcollect (items : List Json) :
      (collect ((items.map (S.readable σ)).mapIdx fun i x =>
        (x.readAs item).mapError (Failure.under (.index i)))) =
          collect ((items.map (S.decodeAt σ item)).mapIdx fun i result =>
            result.mapError (Failure.under (.index i))) := by
    rw [mapIdx_map, mapIdx_map]
    rfl
  rw [decodeAt_eq_readAs, decodeAt_eq_readAs, readAs, readAs, layer, layer, readList, readList,
    hcollect, hcollect, h]

theorem readMap_congr {item : Ty R E} {entries entries' : List (String × Json)}
    (h : entries.map (fun entry => (entry.1, S.decodeAt σ item entry.2)) =
      entries'.map fun entry => (entry.1, S.decodeAt σ item entry.2)) :
    S.decodeAt σ (.map item) (.obj entries) = S.decodeAt σ (.map item) (.obj entries') := by
  have hread (entries : List (String × Json)) : S.decodeAt σ (.map item) (.obj entries) =
      ((collect ((entries.map fun entry => (entry.1, S.decodeAt σ item entry.2)).map
        fun entry => (entry.2.mapError (Failure.under (.key entry.1))).map (entry.1, ·))).mapError
          .faults).map Value.map := by
    rw [decodeAt_eq_readAs, List.map_map]
    change (readEntries item (entries.map fun entry => (entry.1, S.readable σ entry.2))).map Value.map = _
    rw [readEntries, List.map_map]
    rfl
  rw [hread, hread, h]

/-- A reading that is found already is kept if every other one is the same or fails. -/
theorem choose_of_found {layer : Layer (Readable R E)} {v : Value R E}
    {readings : List (Ty R E × Except Failure (Value R E))}
    (h : ∀ reading ∈ readings,
      reading.2 = .ok v ∨ ∃ faults, reading.2 = .error (.faults faults)) :
    S.choose layer (some v) readings = .ok (some v) := by
  induction readings with
  | nil => rfl
  | cons reading readings ih =>
    rw [List.forall_mem_cons] at h
    obtain ⟨t, result⟩ := reading
    rcases h.1 with hresult | ⟨faults, hresult⟩
    · dsimp only at hresult
      subst hresult
      rw [choose]
      split
      · rfl
      · exact ih h.2
    · dsimp only at hresult
      subst hresult
      exact ih h.2

/-- The search through the alternatives of a union finds the same in two lists of readings if those
that do not fail are one and the same in both. -/
theorem choose_congr {layer layer' : Layer (Readable R E)} (result : Except Failure (Value R E))
    {readings readings' : List (Ty R E × Except Failure (Value R E))}
    (h : List.Forall₂ (fun a b => (a.2 = result ∧ b.2 = result) ∨
      ((∃ faults, a.2 = .error (.faults faults)) ∧ ∃ faults, b.2 = .error (.faults faults)))
      readings readings') :
    S.choose layer none readings = S.choose layer' none readings' := by
  induction h with
  | nil => rfl
  | @cons a b readings readings' hab hrest ih =>
    obtain ⟨t, left⟩ := a
    obtain ⟨u, right⟩ := b
    obtain ⟨hleft, hright⟩ | ⟨⟨faults, hleft⟩, ⟨faults', hright⟩⟩ := hab
    · dsimp only at hleft hright
      subst hleft hright
      cases right with
      | error failure =>
        cases failure with
        | tooLarge => rfl
        | faults faults => exact ih
      | ok v =>
        have hfound : (∀ reading ∈ readings, reading.2 = .ok v ∨
            ∃ faults, reading.2 = .error (.faults faults)) ∧
            ∀ reading ∈ readings', reading.2 = .ok v ∨
              ∃ faults, reading.2 = .error (.faults faults) := by
          constructor
          · intro reading hreading
            obtain ⟨reading', -, hab⟩ := Entries.exists_right_of_forall₂ hrest hreading
            exact hab.imp And.left And.left
          · intro reading hreading
            obtain ⟨reading', -, hab⟩ := Entries.exists_left_of_forall₂ hrest hreading
            exact hab.imp And.right And.right
        have hchosen {layer : Layer (Readable R E)} {t : Ty R E}
            {readings : List (Ty R E × Except Failure (Value R E))}
            (h : ∀ reading ∈ readings,
              reading.2 = .ok v ∨ ∃ faults, reading.2 = .error (.faults faults)) :
            S.choose layer none ((t, .ok v) :: readings) = .ok (some v) := by
          rw [choose]
          split
          · rfl
          · exact choose_of_found h
        rw [hchosen hfound.1, hchosen hfound.2]
    · dsimp only at hleft hright
      subst hleft hright
      exact ih

/-- A union reads two data alike if one of its alternatives does and all others refuse both. -/
theorem decodeAt_union_congr_of_lone {ts : List (Ty R E)} {t : Ty R E} {x y : Json}
    (hx : x ≠ .null) (hy : y ≠ .null) (hclosed : openEnumeration? (others ts) = none)
    (ht : t ∈ others ts) (hxy : S.decodeAt σ t x = S.decodeAt σ t y)
    (hrest : ∀ u ∈ others ts, u = t ∨ ((∃ faults, S.decodeAt σ u x = .error (.faults faults)) ∧
      ∃ faults, S.decodeAt σ u y = .error (.faults faults))) :
    S.decodeAt σ (.union ts) x = S.decodeAt σ (.union ts) y := by
  by_cases hone : ∃ u, others ts = [u]
  · obtain ⟨u, hu⟩ := hone
    rw [hu, List.mem_singleton] at ht
    rw [decodeAt_union_singleton hu fun h => hx h.1, decodeAt_union_singleton hu fun h => hy h.1,
      ← ht, hxy]
  · have hmany : ∀ u, others ts ≠ [u] := fun u hu => hone ⟨u, hu⟩
    rw [decodeAt_union_of_many hclosed hmany fun h => hx h.1,
      decodeAt_union_of_many hclosed hmany fun h => hy h.1]
    refine congrArg (· >>= _) (choose_congr (S.decodeAt σ t x) ?_)
    rw [List.forall₂_map_left_iff, List.forall₂_map_right_iff, List.forall₂_same]
    intro u hu
    rw [← decodeAt_eq_readAs, ← decodeAt_eq_readAs]
    rcases hrest u hu with rfl | hfaults
    · exact .inl ⟨rfl, hxy.symm⟩
    · exact .inr hfaults

end Schema

namespace Protocol

variable {σ : Surface}

/-! ## Lists and objects in unions -/

/-- Whether a type that is no union takes data of a kind, if it is a list or an object. -/
def takesKind (t : DataType) : Kind → Bool
  | .list => takesLists t
  | .map => takesObjects t
  | _ => true

/-- Whether two alternatives of a union are both for records, or have no lists and no objects in
common. -/
def isLone (u t : DataType) : Bool :=
  u.holdsRecord && t.holdsRecord ||
    !(takesLists u && takesLists t) && !(takesObjects u && takesObjects t)

/-- Whether the alternatives of a union are apart from each other but for records. -/
def hasLoneRecords : DataType → Bool
  | .union ts => (ts.all fun t => !t.isUnion) &&
      decide (ts.Pairwise fun u t => isLone u t = true)
  | t => !t.isCodec

theorem isLone_comm (u t : DataType) : isLone u t = isLone t u := by
  simp only [isLone, Bool.and_comm]

theorem isLone_added (t : DataType) {u : DataType} (h : IsAdded u) : isLone t u = true := by
  obtain rfl | rfl := h <;> simp [isLone, takesLists, takesObjects]

theorem hasLoneRecords_of_resolve {type : TypeRef} {t : DataType} (h : type.resolve = .ok t) :
    t.every hasLoneRecords = true := by
  refine every_of_resolve (fun t hflat _ => ?_) (fun ts u hu hts => ?_) (fun _ => rfl)
    (fun _ => rfl) rfl rfl (fun _ h => every_of_ofName rfl (fun _ => rfl) (fun _ => rfl) h) h
  · simp [hasLoneRecords, hflat]
  · simp only [hasLoneRecords, Bool.and_eq_true, List.all_eq_true, decide_eq_true_eq] at hts ⊢
    have hsub := Ty.distinct_sublist (ts ++ [u])
    constructor
    · intro t ht
      rcases List.mem_append.1 (hsub.subset ht) with ht | ht
      · exact hts.1 t ht
      · rw [List.mem_singleton.1 ht]
        obtain rfl | rfl := hu <;> rfl
    · refine List.Pairwise.sublist hsub (List.pairwise_append.2 ⟨hts.2, ?_, ?_⟩)
      · exact List.pairwise_singleton _ _
      · intro t _ v hv
        rw [List.mem_singleton.1 hv]
        exact isLone_added t hu

theorem all_hasLoneRecords (r : RecordName) :
    ((schema.record r).fields.all fun f => f.ty.isCodec || f.ty.every hasLoneRecords) = true := by
  cases r <;> rfl

theorem exists_faults {t : DataType} {x : Json} (hunion : t.isUnion = false)
    (hcodec : t.isCodec = false) (h : takesKind t x.kind = false) :
    ∃ faults, schema.decodeAt σ t x = .error (.faults faults) := by
  cases x with
  | scalar s => cases s <;> cases h
  | arr items =>
    cases t with
    | any => cases h
    | listOfAny => cases h
    | list item => cases h
    | literal text =>
      rw [Schema.decodeAt_eq_readAs, Schema.readAs, Schema.json_layer, if_neg nofun]
      exact ⟨_, rfl⟩
    | enumeration e =>
      rw [Schema.decodeAt_eq_readAs, Schema.readAs]
      unfold Schema.readEnumeration
      split <;> exact ⟨_, rfl⟩
    | record r =>
      cases hread : schema.decodeAt σ (.record r) (.arr items) with
      | ok v =>
        obtain ⟨entries, values, hx, -⟩ := exists_of_decodeAt_record hread
        cases hx
      | error failure =>
        cases failure with
        | tooLarge => exact absurd hread (decodeAt_ne_tooLarge rfl _)
        | faults faults => exact ⟨faults, rfl⟩
    | union ts => cases hunion
    | packed r => cases hcodec
    | recordOrFlag r label => cases hcodec
    | _ => exact ⟨_, rfl⟩
  | obj entries =>
    cases t with
    | any => cases h
    | map item => cases h
    | record r => cases h
    | literal text =>
      rw [Schema.decodeAt_eq_readAs, Schema.readAs, Schema.json_layer, if_neg nofun]
      exact ⟨_, rfl⟩
    | enumeration e =>
      rw [Schema.decodeAt_eq_readAs, Schema.readAs]
      unfold Schema.readEnumeration
      split <;> exact ⟨_, rfl⟩
    | union ts => cases hunion
    | packed r => cases hcodec
    | recordOrFlag r label => cases hcodec
    | _ => exact ⟨_, rfl⟩

/-! ## Records -/

/-- Whether null is read as null. -/
def readsNull : DataType → Bool
  | .union ts => ts.any (·.isNull)
  | t => isNullable t

theorem all_readsNull (r : RecordName) :
    ((schema.record r).fields.all fun f => !f.isOmittable || readsNull f.ty) = true := by
  cases r <;> rfl

theorem decodeAt_null_of_readsNull {t : DataType} (h : readsNull t = true) :
    schema.decodeAt σ t .null = .ok .null := by
  cases t with
  | union ts =>
    obtain ⟨t, ht, hnull⟩ := List.any_eq_true.1 h
    exact Schema.decodeAt_union_null (Schema.isNull_iff.1 hnull ▸ ht)
  | any => exact Schema.decodeAt_any .null
  | null => rfl
  | packed r => rfl
  | recordOrFlag r label => rfl
  | _ => cases h

theorem readField_given {r : RecordName} {f : Field RecordName EnumName}
    (hf : f ∈ (schema.record r).fields) (hvisible : f.isVisible σ = true)
    (entries : List (String × Json)) :
    schema.readField (Schema.shownEntries σ (schema.record r).fields
        (entries.map fun entry => (entry.1, schema.readable σ entry.2))) f =
      schema.readShown σ f (f.given? entries) := by
  rw [Schema.readField_shownEntries (nodup_names r) hf, Field.shown?, if_pos hvisible, Field.given?]
  cases hx : entries.lookup f.name with
  | none => rfl
  | some x =>
    dsimp only
    by_cases hnull : (f.isOmittable && decide (x = .null)) = true
    · rw [if_pos hnull]
      rw [Bool.and_eq_true, decide_eq_true_iff] at hnull
      obtain ⟨homittable, rfl⟩ := hnull
      have hreads := of_all_fields (all_readsNull r) hf
      rw [homittable, Bool.not_true, Bool.false_or] at hreads
      rw [Schema.readShown, decodeAt_null_of_readsNull hreads, Schema.readShown,
        (takesNull_of_omittable hf homittable).1]
      rfl
    · rw [if_neg hnull]

theorem decodeAt_record_congr {r : RecordName} (hform : (schema.record r).isSpread = false)
    {entries entries' : List (String × Json)}
    (hgiven : ∀ f ∈ (schema.record r).fields, f.isVisible σ = true →
      (f.given? entries).isSome = (f.given? entries').isSome)
    (hread : ∀ f ∈ (schema.record r).fields, f.isVisible σ = true → ∀ x x',
      f.given? entries = some x → f.given? entries' = some x' →
        schema.decodeAt σ f.ty x = schema.decodeAt σ f.ty x') :
    schema.decodeAt σ (.record r) (.obj entries) = schema.decodeAt σ (.record r) (.obj entries') := by
  have habsent : Schema.absentLiterals (schema.record r).fields entries =
      Schema.absentLiterals (schema.record r).fields entries' := by
    refine List.filter_congr fun f hf => ?_
    cases hliteral : f.isLiteral with
    | false => rfl
    | true =>
      have halways := isOmittable_of_isLiteral hf hliteral
      have hsame := hgiven f hf (isVisible_of_not_omittable hf halways σ)
      rw [Field.given?_of_always halways, Field.given?_of_always halways] at hsame
      rw [Bool.true_and, Bool.true_and, ← Option.not_isSome, ← Option.not_isSome, hsame]
  have hfields : (schema.record r).fields.map (schema.readField (Schema.shownEntries σ
        (schema.record r).fields (entries.map fun entry => (entry.1, schema.readable σ entry.2)))) =
      (schema.record r).fields.map (schema.readField (Schema.shownEntries σ
        (schema.record r).fields
        (entries'.map fun entry => (entry.1, schema.readable σ entry.2)))) := by
    refine List.map_congr_left fun f hf => ?_
    cases hvisible : f.isVisible σ with
    | false =>
      rw [Schema.readField_shownEntries (nodup_names r) hf,
        Schema.readField_shownEntries (nodup_names r) hf]
      simp [Field.shown?, hvisible]
    | true =>
      rw [readField_given hf hvisible, readField_given hf hvisible]
      have hsame := hgiven f hf hvisible
      cases hx : f.given? entries with
      | none =>
        rw [hx, Option.isSome_none, eq_comm, Option.isSome_eq_false_iff, Option.isNone_iff_eq_none]
          at hsame
        rw [hsame]
      | some x =>
        rw [hx, Option.isSome_some, eq_comm, Option.isSome_iff_exists] at hsame
        obtain ⟨x', hx'⟩ := hsame
        rw [hx', Schema.readShown, Schema.readShown, hread f hf hvisible x x' hx hx']
  rw [Schema.decodeAt_record hform, Schema.decodeAt_record hform]
  refine congrArg (_ >>= ·) (funext fun _ => ?_)
  simp only [Schema.layer]
  rw [Schema.readFields_eq, Schema.readFields_eq, habsent, hfields]

/-! ## Edited data -/

theorem eq_of_zip {α : Type} {xs ys : List α} (hlength : xs.length = ys.length)
    (h : ∀ p ∈ xs.zip ys, p.1 = p.2) : xs = ys := by
  rw [← List.forall₂_eq_eq_eq, List.forall₂_iff_zip]
  exact ⟨hlength, fun hp => h _ hp⟩

/-- Data is edited in records only. -/
theorem eq_or_holdsRecord {t : DataType} {x y : Json} (h : schema.Edited σ t x y) :
    x = y ∨ t.holdsRecord = true := by
  induction h with
  | refl t x => exact .inl rfl
  | @list item items items' hlength _ ih =>
    rw [Ty.holdsRecord_list]
    by_cases hrecord : item.holdsRecord = true
    · exact .inr hrecord
    · exact .inl (congrArg Json.arr
        (eq_of_zip hlength fun p hp => (ih p hp).resolve_right hrecord))
  | @map item entries entries' hlength hkeys _ ih =>
    rw [Ty.holdsRecord_map]
    by_cases hrecord : item.holdsRecord = true
    · exact .inr hrecord
    · exact .inl (congrArg Json.obj (eq_of_zip hlength fun p hp =>
        Prod.ext (hkeys p hp) ((ih p hp).resolve_right hrecord)))
  | record => exact .inr rfl
  | alternative _ ht _ ih => exact ih.imp_right (Ty.holdsRecord_union ht)
  | recordOfFlag => exact .inr rfl

theorem kind_of_edited {t : DataType} {x y : Json} (hunion : t.isUnion = false)
    (hcodec : t.isCodec = false) (h : schema.Edited σ t x y) :
    x = y ∨ ∃ k, (k = .list ∨ k = .map) ∧ x.kind = k ∧ y.kind = k ∧ takesKind t k = true := by
  cases h with
  | refl => exact .inl rfl
  | list => exact .inr ⟨.list, .inl rfl, rfl, rfl, rfl⟩
  | map => exact .inr ⟨.map, .inr rfl, rfl, rfl, rfl⟩
  | record => exact .inr ⟨.map, .inr rfl, rfl, rfl, rfl⟩
  | alternative => cases hunion
  | recordOfFlag => cases hcodec

theorem eq_of_length_le_one {α : Type} {xs : List α} (h : xs.length ≤ 1) {x y : α} (hx : x ∈ xs)
    (hy : y ∈ xs) : x = y := by
  match xs, h with
  | [], _ => cases hx
  | [z], _ => exact (List.mem_singleton.1 hx).trans (List.mem_singleton.1 hy).symm

theorem takesKind_eq_false {ts : List DataType} {t u : DataType} {k : Kind}
    (hlone : (ts.filter (·.holdsRecord)).length ≤ 1)
    (hts : ts.Pairwise fun u t => isLone u t = true) (ht : t ∈ ts) (hu : u ∈ ts) (hne : u ≠ t)
    (hrecord : t.holdsRecord = true) (hk : k = .list ∨ k = .map) (htakes : takesKind t k = true) :
    takesKind u k = false := by
  have hsymm : Std.Symm fun u t : DataType => isLone u t = true := by
    constructor
    intro u t h
    rwa [isLone_comm]
  have hapart := hts.forall hu ht hne
  have hplain : u.holdsRecord = false := by
    by_contra hholds
    have hmem {v : DataType} (hv : v ∈ ts) (hvrecord : v.holdsRecord = true) :
        v ∈ ts.filter (·.holdsRecord) := List.mem_filter.2 ⟨hv, hvrecord⟩
    exact hne (eq_of_length_le_one hlone (hmem hu (by simpa using hholds)) (hmem ht hrecord))
  rw [isLone, hplain, Bool.false_and, Bool.false_or, Bool.and_eq_true, Bool.not_eq_true',
    Bool.not_eq_true'] at hapart
  rcases hk with rfl | rfl
  · simpa [takesKind, show takesLists t = true from htakes] using hapart.1
  · simpa [takesKind, show takesObjects t = true from htakes] using hapart.2

theorem decodeAt_union_of_edited {ts : List DataType} {t : DataType} {x y : Json}
    (hts : hasLoneRecords (.union ts) = true) (hcodec : ∀ u ∈ ts, u.isCodec = false)
    (hlone : (ts.filter (·.holdsRecord)).length ≤ 1) (ht : t ∈ ts)
    (h : schema.Edited σ t x y) (hread : schema.decodeAt σ t x = schema.decodeAt σ t y) :
    schema.decodeAt σ (.union ts) x = schema.decodeAt σ (.union ts) y := by
  simp only [hasLoneRecords, Bool.and_eq_true, List.all_eq_true, Bool.not_eq_true',
    decide_eq_true_eq] at hts
  rcases kind_of_edited (hts.1 t ht) (hcodec t ht) h with rfl | ⟨k, hk, hx, hy, htakes⟩
  · rfl
  rcases eq_or_holdsRecord h with rfl | hrecord
  · rfl
  have hne {z : Json} (hz : z.kind = k) : z ≠ .null := by
    rintro rfl
    rcases hk with rfl | rfl <;> cases hz
  have hother : t ∈ Schema.others ts := by
    refine Schema.mem_others_iff.2 ⟨ht, ?_⟩
    rintro rfl
    cases hrecord
  have hclosed : Schema.openEnumeration? (Schema.others ts) = none := by
    by_contra hopen
    obtain ⟨e, he⟩ := Option.ne_none_iff_exists'.1 hopen
    rw [Schema.eq_of_openEnumeration? he] at hother
    rcases List.mem_cons.1 hother with rfl | hother
    · cases hrecord
    · rw [List.mem_singleton.1 hother] at hrecord
      cases hrecord
  refine Schema.decodeAt_union_congr_of_lone (hne hx) (hne hy) hclosed hother hread fun u hu => ?_
  by_cases heq : u = t
  · exact .inl heq
  · have hmem := (Schema.mem_others_iff.1 hu).1
    have hrefuses := takesKind_eq_false hlone hts.2 ht hmem heq hrecord hk htakes
    refine .inr ⟨exists_faults (hts.1 u hmem) (hcodec u hmem) ?_,
      exists_faults (hts.1 u hmem) (hcodec u hmem) ?_⟩
    · rw [hx, hrefuses]
    · rw [hy, hrefuses]

theorem isCodec_eq_false {t : DataType} (h : t.every hasLoneRecords = true) : t.isCodec = false := by
  have hown := Ty.of_every h
  cases t <;> first | rfl | cases hown

/-- Edited data is read alike. -/
theorem decodeAt_eq_of_edited {t : DataType} {x y : Json}
    (ht : (t.isCodec || t.every hasLoneRecords) = true) (h : schema.Edited σ t x y) :
    schema.decodeAt σ t x = schema.decodeAt σ t y := by
  induction h with
  | refl t x => rfl
  | @list item items items' hlength _ ih =>
    have hitem := Ty.every_of_every_list (by simpa [Ty.isCodec] using ht)
    refine Schema.readList_congr ?_
    rw [← List.forall₂_eq_eq_eq, List.forall₂_map_left_iff, List.forall₂_map_right_iff,
      List.forall₂_iff_zip]
    exact ⟨hlength, fun hp => ih _ hp (by rw [hitem, Bool.or_true])⟩
  | @map item entries entries' hlength hkeys _ ih =>
    have hitem := Ty.every_of_every_map (by simpa [Ty.isCodec] using ht)
    refine Schema.readMap_congr ?_
    rw [← List.forall₂_eq_eq_eq, List.forall₂_map_left_iff, List.forall₂_map_right_iff,
      List.forall₂_iff_zip]
    refine ⟨hlength, fun hp => Prod.ext (hkeys _ hp) (ih _ hp ?_)⟩
    rw [hitem, Bool.or_true]
  | @record r entries entries' hform hgiven _ ih =>
    refine decodeAt_record_congr hform hgiven fun f hf hvisible x x' hx hx' => ?_
    exact ih f hf hvisible x x' hx hx' (of_all_fields (all_hasLoneRecords r) hf)
  | @alternative ts t x x' hlone hmem h ih =>
    have hts : (Ty.union ts).every hasLoneRecords = true := by simpa [Ty.isCodec] using ht
    have hevery := Ty.every_of_every_union hts
    refine decodeAt_union_of_edited (Ty.of_every hts) (fun u hu => isCodec_eq_false (hevery u hu))
      hlone hmem h (ih ?_)
    rw [hevery t hmem, Bool.or_true]
  | @recordOfFlag r label entries entries' _ ih =>
    have hrecord := ih rfl
    rw [Schema.decodeAt_eq_readAs, Schema.decodeAt_eq_readAs] at hrecord ⊢
    exact hrecord

/-! ## Decoding -/

/-- Decoding gives the same value, or fails with the same faults, for data that differs by any number
of edits: in unknown keys, in fields outside the surface, and in null under the names of fields that
are null anyway. -/
theorem decode_eq_of_edited {type : TypeRef} {t : DataType} (ht : type.resolve = .ok t)
    {enabled : Bool} {version? : Option SpecVersion} {x y : Json}
    (h : Relation.ReflTransGen
      (schema.Edited ⟨version?.getD (Surface.defaultVersion enabled), enabled⟩ t) x y) :
    schema.decode enabled version? t x = schema.decode enabled version? t y := by
  have hlone : (t.isCodec || t.every hasLoneRecords) = true := by
    rw [hasLoneRecords_of_resolve ht, Bool.or_true]
  induction h with
  | refl => rfl
  | tail _ hedit ih =>
    rw [ih]
    unfold Schema.decode
    dsimp only
    rw [decodeAt_eq_of_edited hlone hedit]

/-- An unknown key, null for a documentation and a malformed field of a later version. -/
theorem decode_eq_signatureInformation :
    (TypeRef.list (.named "SignatureInformation")).resolve =
        .ok (.list (.record .signatureInformation)) ∧
      Relation.ReflTransGen
        (schema.Edited ⟨.v3_13, false⟩ (.list (.record .signatureInformation)))
        (.arr [.obj [("label", .str "f(x)")]])
        (.arr [.obj [("kind", .int 7), ("documentation", .null), ("activeParameter", .str "x"),
          ("label", .str "f(x)")]]) ∧
      schema.decode false (some .v3_13) (.list (.record .signatureInformation))
          (.arr [.obj [("label", .str "f(x)")]]) =
        schema.decode false (some .v3_13) (.list (.record .signatureInformation))
          (.arr [.obj [("kind", .int 7), ("documentation", .null), ("activeParameter", .str "x"),
            ("label", .str "f(x)")]]) := by
  have hresolve : (TypeRef.list (.named "SignatureInformation")).resolve =
      .ok (.list (.record .signatureInformation)) := rfl
  have hfirst : schema.Edited ⟨.v3_13, false⟩ (.record .signatureInformation)
      (.obj [("label", .str "f(x)")])
      (.obj [("activeParameter", .str "x"), ("label", .str "f(x)")]) := .cons rfl rfl (by decide)
  have hsecond : schema.Edited ⟨.v3_13, false⟩ (.record .signatureInformation)
      (.obj [("activeParameter", .str "x"), ("label", .str "f(x)")])
      (.obj [("documentation", .null), ("activeParameter", .str "x"), ("label", .str "f(x)")]) :=
    .cons rfl rfl (by decide)
  have hthird : schema.Edited ⟨.v3_13, false⟩ (.record .signatureInformation)
      (.obj [("documentation", .null), ("activeParameter", .str "x"), ("label", .str "f(x)")])
      (.obj [("kind", .int 7), ("documentation", .null), ("activeParameter", .str "x"),
        ("label", .str "f(x)")]) :=
    .cons rfl rfl (by decide)
  have hlist {x y : Json} (h : schema.Edited ⟨.v3_13, false⟩ (.record .signatureInformation) x y) :
      schema.Edited ⟨.v3_13, false⟩ (.list (.record .signatureInformation)) (.arr [x]) (.arr [y]) :=
    .list rfl (List.forall_mem_singleton.2 h)
  have hedits : Relation.ReflTransGen
      (schema.Edited ⟨.v3_13, false⟩ (.list (.record .signatureInformation)))
      (.arr [.obj [("label", .str "f(x)")]])
      (.arr [.obj [("kind", .int 7), ("documentation", .null), ("activeParameter", .str "x"),
        ("label", .str "f(x)")]]) :=
    ((Relation.ReflTransGen.single (hlist hfirst)).tail (hlist hsecond)).tail (hlist hthird)
  exact ⟨hresolve, hedits, decode_eq_of_edited hresolve hedits⟩

end Protocol

end LspWire
