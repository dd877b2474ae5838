import LspWire.Proofs.Edits

/-!
# Resolution of unions

A union is read as the first alternative that takes the data and accounts for every key of it, and as
the first one that takes it at all if there is none such. So a key is lost only where no alternative
accounts for all of them, keys that no record knows decide about nothing, and the order of the
alternatives matters only where several of them take the data.
-/

namespace LspWire

variable {R E : Type}

theorem findSome?_eq_bind_find? {α β : Type} (f : α → Option β) (xs : List α) :
    xs.findSome? f = (xs.find? fun x => (f x).isSome).bind f := by
  induction xs with
  | nil => rfl
  | cons x xs ih =>
    rw [List.findSome?_cons, List.find?_cons]
    cases hx : f x with
    | none => simpa using ih
    | some y => simp [hx]

namespace Schema

variable {S : Schema R E} {σ : Surface}

/-- Whether data is read as a type. -/
def reads (S : Schema R E) (σ : Surface) (x : Json) (t : Ty R E) : Bool := (S.reading? σ x t).isSome

/-- The type that decides how data is read: the first one that reads it and accounts for every key,
and otherwise the first one that reads it. -/
def resolved? (S : Schema R E) (σ : Surface) (x : Json) (ts : List (Ty R E)) : Option (Ty R E) :=
  (ts.find? fun t => S.accounts t x && S.reads σ x t).or (ts.find? (S.reads σ x))

theorem reads_iff {x : Json} {t : Ty R E} :
    S.reads σ x t = true ↔ ∃ v, S.decodeAt σ t x = .ok v := by
  rw [reads, Option.isSome_iff_exists]
  simp only [reading?_eq_some_iff]

theorem reads_eq_false_iff {x : Json} {t : Ty R E} (h : S.decodeAt σ t x ≠ .error .tooLarge) :
    S.reads σ x t = false ↔ ∃ faults, S.decodeAt σ t x = .error (.faults faults) := by
  rw [Bool.eq_false_iff, Ne, reads_iff]
  cases hread : S.decodeAt σ t x with
  | ok v => simp
  | error failure =>
    cases failure with
    | tooLarge => exact absurd hread h
    | faults faults => simp

theorem isSome_captured? (x : Json) (t : Ty R E) :
    (S.captured? σ x t).isSome = (S.accounts t x && S.reads σ x t) := by
  rw [captured?, reads]
  cases S.accounts t x <;> rfl

/-- The reading that a union takes is that of the type it resolves to. -/
theorem chosen?_eq_bind_resolved? (x : Json) (ts : List (Ty R E)) :
    S.chosen? σ x ts = (S.resolved? σ x ts).bind (S.reading? σ x) := by
  rw [chosen?, findSome?_eq_bind_find?, findSome?_eq_bind_find?, resolved?]
  simp only [isSome_captured?]
  cases hfind : ts.find? fun t => S.accounts t x && S.reads σ x t with
  | none => rfl
  | some t =>
    have hboth := List.find?_some hfind
    rw [Bool.and_eq_true] at hboth
    obtain ⟨v, hv⟩ := Option.isSome_iff_exists.1 hboth.2
    simp [captured?, hboth.1, hv]

theorem of_resolved? {x : Json} {ts : List (Ty R E)} {t : Ty R E}
    (h : S.resolved? σ x ts = some t) : t ∈ ts ∧ S.reads σ x t = true := by
  rw [resolved?, Option.or_eq_some_iff] at h
  rcases h with h | ⟨-, h⟩
  · have hboth := List.find?_some h
    rw [Bool.and_eq_true] at hboth
    exact ⟨List.mem_of_find?_eq_some h, hboth.2⟩
  · exact ⟨List.mem_of_find?_eq_some h, List.find?_some h⟩

theorem exists_resolved? {x : Json} {ts : List (Ty R E)} {t : Ty R E} (ht : t ∈ ts)
    (h : S.reads σ x t = true) : ∃ u, S.resolved? σ x ts = some u := by
  have hfind : (ts.find? (S.reads σ x)).isSome := List.find?_isSome.2 ⟨t, ht, h⟩
  rw [← Option.isSome_iff_exists, resolved?, Option.isSome_or, hfind, Bool.or_true]

/-- A type that does not account for every key is taken only if no type that reads the data does. -/
theorem accounts_eq_false_of_resolved? {x : Json} {ts : List (Ty R E)} {t u : Ty R E}
    (h : S.resolved? σ x ts = some t) (ht : S.accounts t x = false) (hu : u ∈ ts)
    (hreads : S.reads σ x u = true) : S.accounts u x = false := by
  rw [resolved?, Option.or_eq_some_iff] at h
  rcases h with h | ⟨hnone, -⟩
  · have hboth := List.find?_some h
    rw [ht] at hboth
    cases hboth
  · have hnot := List.find?_eq_none.1 hnone u hu
    rw [hreads, Bool.and_true] at hnot
    simpa using hnot

/-- The only type that reads the data is the one that is resolved to, whatever the order. -/
theorem resolved?_of_unique {x : Json} {ts : List (Ty R E)} {t : Ty R E} (ht : t ∈ ts)
    (h : S.reads σ x t = true) (hunique : ∀ u ∈ ts, S.reads σ x u = true → u = t) :
    S.resolved? σ x ts = some t := by
  obtain ⟨u, hu⟩ := exists_resolved? ht h
  obtain ⟨hmem, hreads⟩ := of_resolved? hu
  rw [hu, hunique u hmem hreads]

/-- A union that is no open enumeration reads data that null does not stand for as the type that it
resolves to. -/
theorem decodeAt_union_of_resolved? {ts : List (Ty R E)} {x : Json} {t : Ty R E}
    (ho : openEnumeration? (others ts) = none) (hx : ¬(x = .null ∧ Ty.null ∈ ts))
    (hlarge : ∀ t ∈ others ts, S.decodeAt σ t x ≠ .error .tooLarge)
    (ht : S.resolved? σ x (others ts) = some t) :
    S.decodeAt σ (.union ts) x = S.decodeAt σ t x := by
  obtain ⟨v, hv⟩ := reads_iff.1 (of_resolved? ht).2
  rw [hv, decodeAt_union_eq_ok_iff ho hx hlarge, chosen?_eq_bind_resolved?, ht]
  exact reading?_eq_some_iff.2 hv

end Schema

namespace Protocol

variable {σ : Surface}

/-- Whether a type may stand in a union beside others: unions in unions have been flattened, wire
forms of their own belong to fields, and for floating-point numbers an integer may be too large. -/
def isAlternative (t : DataType) : Bool := !t.isUnion && !t.isCodec && !t.isFloat

theorem isAlternative_iff {t : DataType} :
    isAlternative t = true ↔ t.isUnion = false ∧ t.isCodec = false ∧ t.isFloat = false := by
  simp only [isAlternative, Bool.and_eq_true, Bool.not_eq_true', and_assoc]

theorem decodeAt_alternative_ne_tooLarge {t : DataType} (ht : isAlternative t = true) (x : Json) :
    schema.decodeAt σ t x ≠ .error .tooLarge := by
  cases t with
  | list item => exact Schema.decodeAt_list_ne_tooLarge
  | map item => exact Schema.decodeAt_map_ne_tooLarge
  | union ts => cases ht
  | float => cases ht
  | _ => exact decodeAt_ne_tooLarge rfl x

theorem decodeAt_others_ne_tooLarge {ts : List DataType} (hts : ∀ t ∈ ts, isAlternative t = true)
    (x : Json) : ∀ t ∈ Schema.others ts, schema.decodeAt σ t x ≠ .error .tooLarge :=
  fun t ht => decodeAt_alternative_ne_tooLarge (hts t (Schema.mem_others_iff.1 ht).1) x

theorem mem_others_of_reads {ts : List DataType} {x : Json} (hx : ¬(x = .null ∧ Ty.null ∈ ts))
    {t : DataType} (ht : t ∈ ts) (h : schema.reads σ x t = true) : t ∈ Schema.others ts := by
  refine Schema.mem_others_iff.2 ⟨ht, ?_⟩
  rintro rfl
  obtain ⟨v, hv⟩ := Schema.reads_iff.1 h
  exact hx ⟨(Schema.decodeAt_null_eq_ok_iff.1 hv).1, ht⟩

theorem reads_union_iff {ts : List DataType} (hts : ∀ t ∈ ts, isAlternative t = true)
    (hclosed : Schema.openEnumeration? (Schema.others ts) = none) {x : Json} :
    schema.reads σ x (.union ts) = true ↔ ∃ t ∈ ts, schema.reads σ x t = true := by
  by_cases hx : x = .null ∧ Ty.null ∈ ts
  · obtain ⟨rfl, hnull⟩ := hx
    refine iff_of_true (Schema.reads_iff.2 ⟨.null, Schema.decodeAt_union_null hnull⟩) ?_
    exact ⟨.null, hnull, Schema.reads_iff.2 ⟨.null, Schema.decodeAt_null_eq_ok_iff.2 ⟨rfl, rfl⟩⟩⟩
  · have hlarge := decodeAt_others_ne_tooLarge (σ := σ) hts x
    constructor
    · intro h
      obtain ⟨v, hv⟩ := Schema.reads_iff.1 h
      rw [Schema.decodeAt_union_eq_ok_iff hclosed hx hlarge] at hv
      obtain ⟨t, ht, hread⟩ := Schema.exists_of_chosen? hv
      exact ⟨t, (Schema.mem_others_iff.1 ht).1, Schema.reads_iff.2 ⟨v, hread⟩⟩
    · rintro ⟨t, ht, hread⟩
      obtain ⟨u, hu⟩ := Schema.exists_resolved? (mem_others_of_reads hx ht hread) hread
      rw [Schema.reads_iff, Schema.decodeAt_union_of_resolved? hclosed hx hlarge hu]
      exact Schema.reads_iff.1 (Schema.of_resolved? hu).2

theorem decodeAt_union_eq_faults_iff {ts : List DataType}
    (hts : ∀ t ∈ ts, isAlternative t = true)
    (hclosed : Schema.openEnumeration? (Schema.others ts) = none) {x : Json} :
    (∃ faults, schema.decodeAt σ (.union ts) x = .error (.faults faults)) ↔
      ∀ t ∈ ts, ∃ faults, schema.decodeAt σ t x = .error (.faults faults) := by
  have hlarge : schema.decodeAt σ (.union ts) x ≠ .error .tooLarge := by
    rw [Schema.decodeAt_union]
    refine Schema.readUnion_ne_tooLarge fun reading hreading => ?_
    obtain ⟨t, ht, rfl⟩ := List.mem_map.1 hreading
    rw [← Schema.decodeAt_eq_readAs]
    exact decodeAt_alternative_ne_tooLarge (hts t ht) x
  rw [← Schema.reads_eq_false_iff hlarge, Bool.eq_false_iff, Ne, reads_union_iff hts hclosed]
  simp only [not_exists, not_and, ← Bool.eq_false_iff, ← Ne.eq_def]
  exact forall₂_congr fun t ht =>
    Schema.reads_eq_false_iff (decodeAt_alternative_ne_tooLarge (hts t ht) x)

/-! ## Keys that no record knows -/

theorem lookup_insert {α : Type} {before after : List (String × α)} {key name : String} {y : α}
    (h : name ≠ key) :
    (before ++ (key, y) :: after).lookup name = (before ++ after).lookup name := by
  have hne : (name == key) = false := by simpa using h
  rw [List.lookup_append, List.lookup_append, List.lookup_cons, hne]

/-- A record is read alike without an entry under the name of none of its fields. -/
theorem decodeAt_record_insert {r : RecordName} (hform : (schema.record r).isSpread = false)
    {before after : List (String × Json)} {key : String} (y : Json)
    (hkey : ∀ f ∈ (schema.record r).fields, f.name ≠ key) :
    schema.decodeAt σ (.record r) (.obj (before ++ (key, y) :: after)) =
      schema.decodeAt σ (.record r) (.obj (before ++ after)) := by
  have hgiven : ∀ f ∈ (schema.record r).fields,
      f.given? (before ++ (key, y) :: after) = f.given? (before ++ after) := by
    intro f hf
    rw [Field.given?, Field.given?, lookup_insert (hkey f hf)]
  refine decodeAt_record_congr hform (fun f hf _ => by rw [hgiven f hf]) fun f hf _ x x' hx hx' => ?_
  rw [hgiven f hf, hx', Option.some.injEq] at hx
  rw [hx]

theorem reads_insert {t : DataType} (ht : isAlternative t = true) (hmap : ∀ item, t ≠ .map item)
    (haction : t ≠ .record .messageActionItem) {before after : List (String × Json)} {key : String}
    (y : Json) (hkey : ∀ r, t = .record r → ∀ f ∈ (schema.record r).fields, f.name ≠ key) :
    schema.reads σ (.obj (before ++ (key, y) :: after)) t =
      schema.reads σ (.obj (before ++ after)) t := by
  obtain ⟨hunion, hcodec, -⟩ := isAlternative_iff.1 ht
  have hrefuses (h : takesObjects t = false) (entries : List (String × Json)) :
      schema.reads σ (.obj entries) t = false :=
    (Schema.reads_eq_false_iff (decodeAt_alternative_ne_tooLarge ht _)).2
      (exists_faults hunion hcodec h)
  cases t with
  | any => rfl
  | map item => exact absurd rfl (hmap item)
  | record r =>
    have hform : (schema.record r).isSpread = false := by
      rw [isSpread_record, beq_eq_false_iff_ne]
      exact fun hr => haction (congrArg Ty.record hr)
    rw [Schema.reads, Schema.reads, Schema.reading?, Schema.reading?,
      decodeAt_record_insert hform y (hkey r rfl)]
  | union ts => cases hunion
  | packed r => cases hcodec
  | recordOrFlag r label => cases hcodec
  | _ => rw [hrefuses rfl, hrefuses rfl]

/-- What a record does not account for is a key that is the name of none of its fields. -/
theorem accounts_record_eq_false_iff {r : RecordName} {entries : List (String × Json)} :
    schema.accounts (.record r) (.obj entries) = false ↔
      ∃ entry ∈ entries, ∀ f ∈ (schema.record r).fields, f.name ≠ entry.1 := by
  simp [Schema.accounts]


/-! ## Order of alternatives -/

theorem resolved?_others_of_unique {ts : List DataType} {x : Json} {t : DataType}
    (hx : ¬(x = .null ∧ Ty.null ∈ ts)) (ht : t ∈ ts) (h : schema.reads σ x t = true)
    (hunique : ∀ u ∈ ts, schema.reads σ x u = true → u = t) :
    schema.resolved? σ x (Schema.others ts) = some t :=
  Schema.resolved?_of_unique (mem_others_of_reads hx ht h) h fun u hu =>
    hunique u (Schema.mem_others_iff.1 hu).1

/-- Data that one alternative reads is read alike by the union of the alternatives in any order. -/
theorem decodeAt_union_perm {ts ts' : List DataType} (hts : ∀ t ∈ ts, isAlternative t = true)
    (hclosed : Schema.openEnumeration? (Schema.others ts) = none)
    (hclosed' : Schema.openEnumeration? (Schema.others ts') = none) (hperm : ts.Perm ts') {x : Json}
    (hone : ∃! t, t ∈ ts ∧ schema.reads σ x t = true) :
    schema.decodeAt σ (.union ts') x = schema.decodeAt σ (.union ts) x := by
  obtain ⟨t, ⟨ht, hread⟩, hunique⟩ := hone
  by_cases hx : x = .null ∧ Ty.null ∈ ts
  · rw [hx.1, Schema.decodeAt_union_null hx.2, Schema.decodeAt_union_null (hperm.subset hx.2)]
  · have hx' : ¬(x = .null ∧ Ty.null ∈ ts') := fun h => hx ⟨h.1, hperm.symm.subset h.2⟩
    have hts' : ∀ t ∈ ts', isAlternative t = true := fun t ht => hts t (hperm.symm.subset ht)
    rw [Schema.decodeAt_union_of_resolved? hclosed hx (decodeAt_others_ne_tooLarge hts x)
        (resolved?_others_of_unique hx ht hread fun u hu h => hunique u ⟨hu, h⟩),
      Schema.decodeAt_union_of_resolved? hclosed' hx' (decodeAt_others_ne_tooLarge hts' x)
        (resolved?_others_of_unique hx' (hperm.subset ht) hread fun u hu h =>
          hunique u ⟨hperm.symm.subset hu, h⟩)]

/-! ## Unions -/

/-- A union that is no open enumeration gives null for null if it may, and reads all other data as the
alternative that it resolves to; it fails if no alternative reads the data. -/
theorem decodeAt_union_resolution {ts : List DataType} (hts : ∀ t ∈ ts, isAlternative t = true)
    (hclosed : Schema.openEnumeration? (Schema.others ts) = none) (σ : Surface) (x : Json) :
    (x = .null → Ty.null ∈ ts → schema.decodeAt σ (.union ts) x = .ok .null) ∧
    (¬(x = .null ∧ Ty.null ∈ ts) → ∀ t, schema.resolved? σ x (Schema.others ts) = some t →
      schema.decodeAt σ (.union ts) x = schema.decodeAt σ t x) ∧
    ((∃ faults, schema.decodeAt σ (.union ts) x = .error (.faults faults)) ↔
      ∀ t ∈ ts, ∃ faults, schema.decodeAt σ t x = .error (.faults faults)) ∧
    -- A key is lost only if no alternative that reads the data accounts for all keys.
    (∀ entries r key, x = .obj entries →
      schema.resolved? σ x (Schema.others ts) = some (.record r) →
      key ∈ entries.map Prod.fst → (∀ f ∈ (schema.record r).fields, f.name ≠ key) →
      ∀ t ∈ ts, schema.reads σ x t = true → schema.accounts t x = false) ∧
    -- A key that no record knows decides nothing about whether the data is read.
    ((∀ item, Ty.map item ∉ ts) → Ty.record .messageActionItem ∉ ts →
      ∀ before after key y, x = .obj (before ++ after) →
        (∀ r, Ty.record r ∈ ts → ∀ f ∈ (schema.record r).fields, f.name ≠ key) →
        schema.reads σ (.obj (before ++ (key, y) :: after)) (.union ts) =
          schema.reads σ x (.union ts)) ∧
    -- The order does not matter if one alternative alone reads the data.
    ∀ ts', ts.Perm ts' → Schema.openEnumeration? (Schema.others ts') = none →
      (∃! t, t ∈ ts ∧ schema.reads σ x t = true) →
      schema.decodeAt σ (.union ts') x = schema.decodeAt σ (.union ts) x := by
  have hlarge := decodeAt_others_ne_tooLarge (σ := σ) hts x
  refine ⟨?_, fun hx t ht => Schema.decodeAt_union_of_resolved? hclosed hx hlarge ht,
    decodeAt_union_eq_faults_iff hts hclosed, ?_, ?_, fun ts' hperm hclosed' hone =>
      decodeAt_union_perm hts hclosed hclosed' hperm hone⟩
  · rintro rfl hnull
    exact Schema.decodeAt_union_null hnull
  · rintro entries r key rfl hr hkey hunknown t ht hread
    obtain ⟨entry, hentry, rfl⟩ := List.mem_map.1 hkey
    have hx : ¬(Json.obj entries = .null ∧ Ty.null ∈ ts) := fun h => by cases h.1
    exact Schema.accounts_eq_false_of_resolved? hr
      (accounts_record_eq_false_iff.2 ⟨entry, hentry, hunknown⟩)
      (mem_others_of_reads hx ht hread) hread
  · rintro hmap haction before after key y rfl hkey
    rw [Bool.eq_iff_iff, reads_union_iff hts hclosed, reads_union_iff hts hclosed]
    refine exists_congr fun t => and_congr_right fun ht => ?_
    rw [reads_insert (hts t ht) (fun item h => hmap item (h ▸ ht)) (fun h => haction (h ▸ ht)) y
      fun r hr => hkey r (hr ▸ ht)]

/-- An edit with an annotation is read as such though a plain edit comes first, which would lose the
annotation. -/
theorem decodeAt_union_resolution_annotated :
    (∀ t ∈ [.record .textEdit, .record .annotatedTextEdit], isAlternative t = true) ∧
      Schema.openEnumeration? (Schema.others
        ([.record .textEdit, .record .annotatedTextEdit] : List DataType)) = none ∧
      schema.decodeAt ⟨.v3_16, false⟩ (.union [.record .textEdit, .record .annotatedTextEdit])
          (.obj [("range", .obj [("start", .obj [("line", .int 0), ("character", .int 0)]),
            ("end", .obj [("line", .int 0), ("character", .int 3)])]), ("newText", .str "x"),
            ("annotationId", .str "a")]) =
        schema.decodeAt ⟨.v3_16, false⟩ (.record .annotatedTextEdit)
          (.obj [("range", .obj [("start", .obj [("line", .int 0), ("character", .int 0)]),
            ("end", .obj [("line", .int 0), ("character", .int 3)])]), ("newText", .str "x"),
            ("annotationId", .str "a")]) := by
  have hts : ∀ t ∈ [.record .textEdit, .record .annotatedTextEdit], isAlternative t = true := by
    decide
  have hclosed : Schema.openEnumeration? (Schema.others
      ([.record .textEdit, .record .annotatedTextEdit] : List DataType)) = none := rfl
  refine ⟨hts, hclosed, (decodeAt_union_resolution hts hclosed ⟨.v3_16, false⟩ _).2.1 ?_ _ rfl⟩
  exact fun h => by cases h.1

end Protocol

end LspWire
