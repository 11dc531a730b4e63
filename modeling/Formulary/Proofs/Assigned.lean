/-
  Documents after assignments.

  Of the assignments to one field the last one counts, and those to other fields do not
  matter to it.  So a document depends on the order of its assignments only as far as it is
  the order of those to the same field.

  * `Document.Agree`: documents that differ in the values of formula fields only;
  * `Document.assigned`: a document after some assignments;
  * `Document.ext_of_field?`: documents with the same fields in the same order are equal;
  * `Assignment.Reordering`: an order that keeps the order of assignments to the same field;
  * `Document.assigned_reordering`: it makes the same document.
-/
import Formulary.Command
import Formulary.Proofs.Owner

namespace Formulary

/-- A reordering of assignments that keeps the order of those to the same field. -/
structure Assignment.Reordering (as as' : List Assignment) : Prop where
  perm : as.Perm as'
  kept : ∀ id, as.filter (·.field = id) = as'.filter (·.field = id)

namespace Document

variable {doc doc' : Document} {id id' : String} {v : Value} {as as' : List Assignment}

/-! ## Fields in order -/

/-- The ids of the fields, in order. -/
def ids (doc : Document) : List String := doc.fields.map Field.id

theorem isSome_field?_iff : (doc.field? id).isSome ↔ id ∈ doc.ids := by
  rw [ids, ← not_iff_not, Option.not_isSome_iff_eq_none]
  exact field?_eq_none_iff

theorem has_iff : Host.has doc id = true ↔ id ∈ doc.ids := by
  rw [← isSome_field?_iff]
  show (((doc.field? id).map Field.value).isSome ||
    ((doc.field? id).bind Field.formula?).isSome) = true ↔ _
  cases doc.field? id <;> simp

/-- To go through the fields in order is to look up their ids in order. -/
theorem map_fields {α : Type} (doc : Document) (f : Field → α) :
    doc.fields.map (fun field => some (f field)) = doc.ids.map fun id => (doc.field? id).map f := by
  rw [ids, List.map_map]
  refine List.map_congr_left fun field hfield => ?_
  rw [Function.comp_apply, field?_of_mem hfield]
  rfl

/-- Documents with alike fields of the same ids in the same order list the same. -/
theorem map_fields_congr {α : Type} {f : Field → α} (hids : doc.ids = doc'.ids)
    (hf : ∀ field field', doc.field? field.id = some field →
      doc'.field? field.id = some field' → f field = f field') :
    doc.fields.map f = doc'.fields.map f := by
  have hsome : doc.fields.map (fun field => some (f field)) =
      doc'.fields.map fun field => some (f field) := by
    rw [map_fields, map_fields, ← hids]
    refine List.map_congr_left fun id hid => ?_
    obtain ⟨field, hfield⟩ := Option.isSome_iff_exists.1 (isSome_field?_iff.2 hid)
    obtain ⟨field', hfield'⟩ := Option.isSome_iff_exists.1 (isSome_field?_iff.2 (hids ▸ hid))
    obtain rfl := id_of_field? hfield
    rw [hfield, hfield', Option.map_some, Option.map_some, hf field field' hfield hfield']
  refine (Option.some_injective α).list_map ?_
  rw [List.map_map, List.map_map]
  exact hsome

/-- Documents with the same fields in the same order are equal. -/
theorem ext_of_field? (hids : doc.ids = doc'.ids) (h : ∀ id, doc.field? id = doc'.field? id) :
    doc = doc' := by
  have hfields := map_fields_congr (f := fun field => field) hids fun field field' hf hf' =>
    Option.some.inj (hf.symm.trans ((h _).trans hf'))
  rw [List.map_id', List.map_id'] at hfields
  have hplaces : doc.places = doc'.places := NameMap.ext_find? fun id => by
    refine Option.ext fun place => ?_
    rw [doc.placed, doc'.placed, hfields]
  exact ext_roster (by cases hdoc : doc.toRoster; cases hdoc' : doc'.toRoster; simp_all)

/-! ## Writes -/

theorem ids_modify (doc : Document) (id : String) (change : Field → Field)
    (keeps : ∀ field, (change field).id = field.id) :
    (doc.modify id change keeps).ids = doc.ids := by
  rw [ids, ids, fields_modify, List.map_map]
  refine List.map_congr_left fun field _ => ?_
  rw [Function.comp_apply]
  split
  · exact keeps field
  · rfl

theorem ids_push (doc : Document) (id : String) (v : Value) : (Host.push doc id v).ids = doc.ids :=
  ids_modify doc id (fun field => { field with value := v }) fun _ => rfl

theorem field?_push (doc : Document) (id id' : String) (v : Value) :
    (Host.push doc id v).field? id' =
      if id = id' then (doc.field? id').map fun field => { field with value := v }
      else doc.field? id' :=
  field?_modify doc id id' (fun field => { field with value := v }) fun _ => rfl

/-- To write a value into a field that is there is to push it. -/
theorem write_eq_push (h : id ∈ doc.ids) : Host.write doc id v = Host.push doc id v := by
  show doc.write id v = _
  rcases write_cases doc id v with ⟨-, hwrite⟩ | ⟨hnone, _⟩
  · exact hwrite
  · simp [← isSome_field?_iff, hnone] at h

theorem ids_write (h : id ∈ doc.ids) : (Host.write doc id v).ids = doc.ids := by
  rw [write_eq_push h, ids_push]

theorem field?_write_self (h : id ∈ doc.ids) : (Host.write doc id v).field? id =
    (doc.field? id).map fun field => { field with value := v } := by
  rw [write_eq_push h, field?_push, if_pos rfl]

/-! ## Agreement -/

/-- Two documents have the same fields in the same order, and hold the same values in those
without formulas. -/
structure Agree (doc doc' : Document) : Prop where
  ids : doc.ids = doc'.ids
  declared : ∀ f, Host.Declared doc doc' f
  stored : ∀ f, Host.formula? doc f = none → Host.value? doc f = Host.value? doc' f

namespace Agree

theorem refl (doc : Document) : doc.Agree doc := ⟨rfl, fun f => .refl doc f, fun _ _ => rfl⟩

theorem symm (h : doc.Agree doc') : doc'.Agree doc :=
  ⟨h.ids.symm, fun f => (h.declared f).symm, fun f hf =>
    (h.stored f ((h.declared f).formula.trans hf)).symm⟩

theorem trans {doc'' : Document} (h : doc.Agree doc') (h' : doc'.Agree doc'') :
    doc.Agree doc'' :=
  ⟨h.ids.trans h'.ids, fun f => (h.declared f).trans (h'.declared f), fun f hf =>
    (h.stored f hf).trans (h'.stored f ((h.declared f).formula ▸ hf))⟩

/-- A value is pushed into a field with a formula. -/
theorem push (h : doc.Agree doc') (hformula : (Host.formula? doc' id).isSome) (v : Value) :
    (Host.push doc id v).Agree doc' := by
  refine ⟨(ids_push doc id v).trans h.ids,
    fun f => (Owner.declared_push doc id v f).trans (h.declared f), fun f hf => ?_⟩
  rw [(Owner.declared_push doc id v f).formula] at hf
  rw [← (h.declared id).formula] at hformula
  rw [Owner.value?_push doc id v f hformula, if_neg, h.stored f hf]
  rintro rfl
  simp [hf] at hformula

/-- A value is written into a field, of whatever sort. -/
theorem write (h : doc.Agree doc') (hid : id ∈ doc'.ids) (v : Value) :
    (Host.write doc id v).Agree (Host.write doc' id v) := by
  refine ⟨?_, fun f => ?_, fun f hf => ?_⟩
  · rw [ids_write hid, ids_write (h.ids ▸ hid), h.ids]
  · exact ((Owner.declared_write doc id v f).trans (h.declared f)).trans
      (Owner.declared_write doc' id v f).symm
  · rw [(Owner.declared_write doc id v f).formula] at hf
    by_cases hfield : f = id
    · subst hfield
      exact (value?_write_self doc f v).trans (value?_write_self doc' f v).symm
    · exact (value?_write doc id v f hfield).trans
        ((h.stored f hf).trans (value?_write doc' id v f hfield).symm)

end Agree

/-! ## Assignments -/

/-- A document after some assignments, one after the other. -/
def assigned (doc : Document) (as : List Assignment) : Document :=
  as.foldl (fun doc a => Host.write doc a.field a.value) doc

theorem assigned_cons (doc : Document) (a : Assignment) (as : List Assignment) :
    doc.assigned (a :: as) = (Host.write doc a.field a.value).assigned as := rfl

/-- Assignments leave what the fields are declared as. -/
theorem declared_assigned (doc : Document) (as : List Assignment) (id : String) :
    Host.Declared (doc.assigned as) doc id := by
  induction as generalizing doc with
  | nil => exact .refl doc id
  | cons a rest ih => exact (ih _).trans (declared_write doc a.field a.value id)

theorem ids_assigned (h : ∀ a ∈ as, a.field ∈ doc.ids) : (doc.assigned as).ids = doc.ids := by
  induction as generalizing doc with
  | nil => rfl
  | cons a rest ih =>
    obtain ⟨ha, hrest⟩ := List.forall_mem_cons.1 h
    have hids := ids_write (v := a.value) ha
    rw [assigned_cons, ih fun b hb => hids ▸ hrest b hb, hids]

/-- Only the assignments to a field matter to it, and what it was before. -/
theorem field?_assigned_congr (hids : doc.ids = doc'.ids) (h : ∀ a ∈ as, a.field ∈ doc.ids)
    (hfield : doc.field? id = doc'.field? id) :
    (doc.assigned as).field? id = (doc'.assigned (as.filter (·.field = id))).field? id := by
  induction as generalizing doc doc' with
  | nil => exact hfield
  | cons a rest ih =>
    obtain ⟨ha, hrest⟩ := List.forall_mem_cons.1 h
    have hwritten := ids_write (v := a.value) ha
    rw [assigned_cons, List.filter_cons]
    by_cases he : a.field = id
    · have ha' : a.field ∈ doc'.ids := hids ▸ ha
      rw [if_pos (by simpa using he), assigned_cons]
      refine ih ?_ (fun b hb => hwritten ▸ hrest b hb) ?_
      · rw [hwritten, ids_write ha', hids]
      · rw [← he, field?_write_self ha, field?_write_self ha', he, hfield]
    · rw [if_neg (by simpa using he)]
      refine ih (hwritten.trans hids) (fun b hb => hwritten ▸ hrest b hb) ?_
      exact (field?_write_ne doc a.value (Ne.symm he)).trans hfield

/-- A document depends on the order of its assignments only as far as it is the order of
those to the same field. -/
theorem assigned_reordering (h : Assignment.Reordering as as') (has : ∀ a ∈ as, a.field ∈ doc.ids) :
    doc.assigned as = doc.assigned as' := by
  have has' : ∀ a ∈ as', a.field ∈ doc.ids := fun a ha => has a (h.perm.mem_iff.2 ha)
  refine ext_of_field? ((ids_assigned has).trans (ids_assigned has').symm) fun id => ?_
  rw [field?_assigned_congr rfl has rfl, field?_assigned_congr rfl has' rfl, h.kept id]

end Document
end Formulary
