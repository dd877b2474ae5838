import LspWire.Proofs.Shapes

/-!
# Entries of written records

The keys of the object that a record is written as are names of its fields, each at most once. So a
search for the name of a field finds what the field is written as, or nothing if the field is left
out. A record comes back from its object if every field comes back from what it is written as.
-/

namespace LspWire

variable {R E : Type}

namespace Form

variable {form : Form R E} {cs : List (Cell R E)} {c : Cell R E}

theorem mem_written_plain {fields : List (Field R E)} :
    c ∈ (Form.plain fields).written cs ↔ c ∈ cs ∧ c.isUnset = false := by
  rw [written, List.mem_append, List.mem_filter, List.mem_filter, ← and_or_left, Cell.isUnset]
  cases c.field.isOmittable <;> simp

theorem mem_of_mem_written (h : c ∈ form.written cs) : c ∈ cs := by
  cases form with
  | plain fields => exact (mem_written_plain.1 h).1
  | spread key rest restTag item => exact h
  | outcome common result error => exact List.mem_of_mem_filter h

theorem nodup_written (hn : (cs.map (·.field.name)).Nodup) :
    ((form.written cs).map (·.field.name)).Nodup := by
  cases form with
  | plain fields =>
    have hperm := List.filter_append_perm (fun c : Cell R E => !c.field.isOmittable) cs
    have hall := (hperm.map (·.field.name)).nodup_iff.2 hn
    refine hall.sublist (List.Sublist.map _ ?_)
    rw [written]
    refine List.Sublist.append (List.Sublist.refl _) ?_
    have hset : (cs.filter fun c => c.field.isOmittable && !c.value.isNull) =
        (cs.filter fun c => !!c.field.isOmittable).filter fun c => !c.value.isNull := by
      rw [List.filter_filter]
      exact List.filter_congr fun c _ => by rw [Bool.not_not, Bool.and_comm]
    rw [hset]
    exact List.filter_sublist
  | spread key rest restTag item => exact hn
  | outcome common result error => exact hn.sublist (List.Sublist.map _ List.filter_sublist)

theorem forall₂_written_plain {fields : List (Field R E)} {cs' : List (Cell R E)}
    {q : Cell R E → Cell R E → Prop} (h : List.Forall₂ q cs cs')
    (hq : ∀ c c', q c c' → c'.field = c.field ∧ c'.value.isNull = c.value.isNull) :
    List.Forall₂ q ((Form.plain fields).written cs) ((Form.plain fields).written cs') := by
  refine List.rel_append (List.rel_filter ?_ h) (List.rel_filter ?_ h)
  · intro c c' hc
    simp only [(hq c c' hc).1]
  · intro c c' hc
    simp only [(hq c c' hc).1, (hq c c' hc).2]

/-- A search for a field that is written finds what it is written as. -/
theorem lookup_written (hn : (cs.map (·.field.name)).Nodup) (h : c ∈ form.written cs) :
    ((form.written cs).map Cell.entry).lookup c.field.name = some c.json := by
  refine Entries.lookup_of_mem ?_ (List.mem_map_of_mem h)
  rw [List.map_map]
  exact nodup_written hn

theorem lookup_unwritten (hn : (cs.map (·.field.name)).Nodup) (hc : c ∈ cs)
    (h : c ∉ form.written cs) :
    ((form.written cs).map Cell.entry).lookup c.field.name = none := by
  rw [Entries.lookup_eq_none_iff, List.map_map, List.mem_map]
  rintro ⟨c', hc', hname⟩
  rw [List.inj_on_of_nodup_map hn (mem_of_mem_written hc') hc hname] at hc'
  exact h hc'

end Form

namespace Schema

variable {S : Schema R E} {σ : Surface} {r : R} {values : List (Value R E)}

theorem nodup_names_cells (hn : ((S.record r).fields.map (·.name)).Nodup)
    (hlength : values.length = (S.record r).fields.length) :
    ((Value.cells S r values).map (·.field.name)).Nodup := by
  rw [← map_field_cells hlength, List.map_map] at hn
  exact hn

theorem exists_field_of_wireRecord (hspread : (S.record r).isSpread = false)
    {entry : String × Json} (h : entry ∈ S.wireRecord r (Value.cells S r values)) :
    ∃ c ∈ Value.cells S r values, c ∈ (S.record r).form.written (Value.cells S r values) ∧
      entry = c.entry := by
  rw [wireRecord_of_not_spread hspread] at h
  obtain ⟨c, hc, rfl⟩ := List.mem_map.1 h
  exact ⟨c, Form.mem_of_mem_written hc, hc, rfl⟩

/-- What a field comes back as: a field that is written must belong to the surface and is read, and
a field that is left out takes its default. -/
def ComesBack (S : Schema R E) (σ : Surface) (written : List (Cell R E)) (c : Cell R E)
    (y : Value R E) : Prop :=
  (c ∈ written ∧ c.field.isVisible σ = true ∧ S.decodeAt σ c.field.ty c.json = .ok y) ∨
    (c ∉ written ∧ S.defaultValue? c.field.default = some y)

theorem fieldsRead_wireRecord (hspread : (S.record r).isSpread = false)
    (hn : ((S.record r).fields.map (·.name)).Nodup)
    (hlength : values.length = (S.record r).fields.length) {ys : List (Value R E)}
    (hback : List.Forall₂
      (S.ComesBack σ ((S.record r).form.written (Value.cells S r values)))
      (Value.cells S r values) ys) :
    S.FieldsRead σ (S.wireRecord r (Value.cells S r values)) (S.record r).fields ys := by
  have hnames := nodup_names_cells hn hlength
  rw [FieldsRead, ← map_field_cells hlength, List.forall₂_map_left_iff]
  refine Entries.forall₂_imp_of_mem hback fun c hc y _ hcy => ?_
  rw [FieldRead, Field.shown?, wireRecord_of_not_spread hspread]
  obtain ⟨hwritten, hvisible, hread⟩ | ⟨hunwritten, hdefault⟩ := hcy
  · rw [if_pos hvisible, Form.lookup_written hnames hwritten]
    exact hread
  · rw [Form.lookup_unwritten hnames hc hunwritten, ite_self]
    exact hdefault

/-- A record comes back from its object if its fields do. -/
theorem decodeAt_wireRecord (hspread : (S.record r).isSpread = false)
    (hn : ((S.record r).fields.map (·.name)).Nodup)
    (hlength : values.length = (S.record r).fields.length)
    (hadmits : σ.admits (S.record r).tag = true) {ys : List (Value R E)}
    (hback : List.Forall₂
      (S.ComesBack σ ((S.record r).form.written (Value.cells S r values)))
      (Value.cells S r values) ys)
    (hliteral : ∀ c ∈ Value.cells S r values, c.field.isLiteral = true →
      c ∈ (S.record r).form.written (Value.cells S r values))
    (hchecks : S.checkFields σ.proposed r ys = .ok ()) :
    S.decodeAt σ (.record r) ((Value.record r values).wire S) = .ok (.record r ys) := by
  have hnames := nodup_names_cells hn hlength
  rw [Value.wire_record, decodeAt_record_eq_ok_iff hspread hn]
  refine ⟨hadmits, _, ys, rfl, rfl, ?_, fieldsRead_wireRecord hspread hn hlength hback, hchecks⟩
  rw [← map_field_cells hlength, wireRecord_of_not_spread hspread]
  intro f hf hf'
  obtain ⟨c, hc, rfl⟩ := List.mem_map.1 hf
  rw [Form.lookup_written hnames (hliteral c hc hf')]
  rfl

theorem forall₂_cells {q : Cell R E → Value R E → Prop} {ys : List (Value R E)}
    (hlength : values.length = (S.record r).fields.length)
    (h : List.Forall₂ q (Value.cells S r values) ys) :
    List.Forall₂ (fun c c' => q c c'.value ∧ c'.field = c.field ∧ c'.data = c'.value.wire S)
      (Value.cells S r values) (Value.cells S r ys) := by
  have hys : Value.cells S r ys =
      (((Value.cells S r values).map Cell.field).zip ys).map fun p => ⟨p.1, p.2, p.2.wire S⟩ := by
    rw [map_field_cells hlength, cells_eq_map]
  rw [hys]
  clear hys
  generalize Value.cells S r values = cs at h
  induction h with
  | nil => exact .nil
  | cons hcy _ ih => exact .cons ⟨hcy, rfl, rfl⟩ ih

end Schema

end LspWire
