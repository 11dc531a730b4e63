/-
  Hosts whose fields are apart from each other.

  * `Edit`: a change of the list of fields, as it is reported to an engine;
  * `Owner`: a host that takes edits, with what changes where;
  * `Document.edit`: documents are owners;
  * `Traced`: an owner that records the values pushed into it.
-/
import Formulary.Document
import Formulary.Proofs.Names
import Mathlib.Tactic.Common

namespace Formulary

/-! ## Owners -/

/-- A change of the fields of a host. -/
inductive Edit where
  | setFormula (id : String) (formula? : Option String)
  | add (spec : FieldSpec)
  | remove (id : String)

/-- The field that an edit is about. -/
def Edit.field : Edit → String
  | setFormula id _ => id
  | add spec => spec.id
  | remove id => id

/-- The formula that an edit brings. -/
def Edit.formula? : Edit → Option String
  | setFormula _ formula? => formula?
  | add spec => spec.formula?
  | remove _ => none

/-- Two hosts declare a field alike: its formula, kind and columns are the same. -/
structure Host.Declared {δ : Type} [Host δ] (h h' : δ) (field : String) : Prop where
  formula : Host.formula? h field = Host.formula? h' field
  kind : Host.kind h field = Host.kind h' field
  columns : Host.columns h field = Host.columns h' field

namespace Host.Declared

variable {δ : Type} [Host δ] {h h' h'' : δ} {field : String}

theorem refl (h : δ) (field : String) : Host.Declared h h field := ⟨rfl, rfl, rfl⟩

theorem symm (hd : Host.Declared h h' field) : Host.Declared h' h field :=
  ⟨hd.formula.symm, hd.kind.symm, hd.columns.symm⟩

theorem trans (hd : Host.Declared h h' field) (hd' : Host.Declared h' h'' field) :
    Host.Declared h h'' field :=
  ⟨hd.formula.trans hd'.formula, hd.kind.trans hd'.kind, hd.columns.trans hd'.columns⟩

end Host.Declared

/-- A host where a change of one field leaves all others as they are. -/
class Owner (δ : Type) extends Host δ where
  edit : δ → Edit → δ
  mem_formulaFields (h : δ) (f : String) : f ∈ formulaFields h ↔ (formula? h f).isSome
  declared_push (h : δ) (f : String) (v : Value) (g : String) : Host.Declared (push h f v) h g
  value?_push (h : δ) (f : String) (v : Value) (g : String) (hf : (formula? h f).isSome) :
    value? (push h f v) g = if f = g then some v else value? h g
  declared_write (h : δ) (f : String) (v : Value) (g : String) : Host.Declared (write h f v) h g
  value?_write (h : δ) (f : String) (v : Value) (g : String) (hg : g ≠ f) :
    value? (write h f v) g = value? h g
  declared_edit (h : δ) (e : Edit) (g : String) (hg : g ≠ e.field) :
    Host.Declared (edit h e) h g
  value?_edit (h : δ) (e : Edit) (g : String) (hg : g ≠ e.field) :
    value? (edit h e) g = value? h g
  /-- The field of an edit has the formula that it had, or that of the edit. -/
  formula?_edit (h : δ) (e : Edit) :
    formula? (edit h e) e.field = formula? h e.field ∨ formula? (edit h e) e.field = e.formula?
  formula?_remove (h : δ) (id : String) : formula? (edit h (.remove id)) id = none

/-! ## Documents -/

namespace Document

/-- A document after an edit; one that fails leaves it as it is. -/
def edit (doc : Document) : Edit → Document
  | .setFormula id formula? => (doc.setFormula id formula?).toOption.getD doc
  | .add spec => (doc.add spec).toOption.getD doc
  | .remove id => (doc.remove id).2

variable {doc : Document} {id id' : String}

theorem id_of_field? {field : Field} (h : doc.field? id = some field) : field.id = id :=
  (doc.toInStep.field?_eq_some_iff.1 h).2

theorem mem_of_field? {field : Field} (h : doc.field? id = some field) : field ∈ doc.fields :=
  (doc.toInStep.field?_eq_some_iff.1 h).1

theorem field?_modify (doc : Document) (id id' : String) (change : Field → Field)
    (keeps : ∀ field, (change field).id = field.id) :
    (doc.modify id change keeps).field? id' =
      if id = id' then (doc.field? id').map change else doc.field? id' := by
  have hkey : ((fun field : Field => field.id == id') ∘
      fun field => if field.id = id then change field else field) =
        fun field => field.id == id' := by
    funext field
    simp only [Function.comp_apply]
    split
    · rw [keeps]
    · rfl
  rw [field?_eq_find?, fields_modify, List.find?_map, hkey, ← field?_eq_find?]
  cases hfind : doc.field? id' with
  | none => simp
  | some field =>
    have hid : field.id = id' := id_of_field? hfind
    by_cases h : id = id'
    · simp [h, hid]
    · simp [h, hid, Ne.symm h]

theorem field?_append (doc : Document) (field : Field) (h : doc.field? field.id = none)
    (id : String) :
    (doc.append field h).field? id = if field.id = id then some field else doc.field? id := by
  rw [field?_eq_find?, field?_eq_find?]
  show (doc.fields ++ [field]).find? _ = _
  rw [List.find?_append]
  by_cases hid : field.id = id
  · rw [if_pos hid, ← hid]
    rw [field?_eq_find?] at h
    rw [h, Option.none_or, List.find?_singleton, beq_self_eq_true, if_pos rfl]
  · rw [if_neg hid, List.find?_singleton, beq_eq_false_iff_ne.2 hid]
    exact Option.or_none

theorem field?_remove (doc : Document) (id id' : String) :
    (doc.remove id).2.field? id' = if id = id' then none else doc.field? id' := by
  rw [field?_eq_find?, field?_eq_find?, fields_remove, List.find?_filter]
  by_cases h : id = id'
  · rw [if_pos h, List.find?_eq_none]
    intro field _
    simp [h]
  · rw [if_neg h]
    congr 1
    funext field
    by_cases hf : field.id = id'
    · simp [hf, Ne.symm h]
    · simp [hf]

theorem field?_of_mem {field : Field} (h : field ∈ doc.fields) :
    doc.field? field.id = some field :=
  doc.toInStep.field?_eq_some_iff.2 ⟨h, rfl⟩

theorem mem_formulaFields (doc : Document) (id : String) :
    id ∈ Host.formulaFields doc ↔ (Host.formula? doc id).isSome := by
  show id ∈ (doc.fields.filter fun field => field.formula?.isSome).map Field.id ↔
    ((doc.field? id).bind Field.formula?).isSome
  constructor
  · intro h
    obtain ⟨field, hfield, rfl⟩ := List.mem_map.1 h
    obtain ⟨hmem, hformula⟩ := List.mem_filter.1 hfield
    rw [field?_of_mem hmem]
    exact hformula
  · intro h
    cases hfind : doc.field? id with
    | none => simp [hfind] at h
    | some field =>
      rw [hfind] at h
      have hid : field.id = id := id_of_field? hfind
      exact hid ▸ List.mem_map_of_mem (List.mem_filter.2 ⟨mem_of_field? hfind, h⟩)

/-- What a document shows of a field is read off the field of its id. -/
theorem declared_of_field? {doc doc' : Document} {id : String}
    (h : doc.field? id = doc'.field? id) : Host.Declared doc doc' id where
  formula := congrArg (Option.bind · Field.formula?) h
  kind := congrArg (Option.elim · FieldKind.other Field.kind) h
  columns := congrArg (Option.elim · [] Field.columns) h

/-- To give a field another value leaves its declaration as it is. -/
theorem declared_setValue (doc : Document) (id : String) (value : Value) (id' : String) :
    Host.Declared (doc.modify id fun field => { field with value }) doc id' := by
  by_cases h : id = id'
  · subst h
    have hfield := field?_modify doc id id (fun field => { field with value }) fun _ => rfl
    rw [if_pos rfl] at hfield
    refine ⟨?_, ?_, ?_⟩
    · show Option.bind _ _ = Option.bind _ _
      rw [hfield]
      cases doc.field? id <;> rfl
    · show Option.elim _ _ _ = Option.elim _ _ _
      rw [hfield]
      cases doc.field? id <;> rfl
    · show Option.elim _ _ _ = Option.elim _ _ _
      rw [hfield]
      cases doc.field? id <;> rfl
  · refine declared_of_field? ?_
    rw [field?_modify, if_neg h]

theorem field?_write_ne (doc : Document) (value : Value) (h : id' ≠ id) :
    (doc.write id value).field? id' = doc.field? id' := by
  rcases write_cases doc id value with ⟨-, hwrite⟩ | ⟨_, hwrite⟩ <;> rw [hwrite]
  · rw [field?_modify, if_neg (Ne.symm h)]
  · rw [field?_append, if_neg (Ne.symm h)]

theorem declared_write (doc : Document) (id : String) (value : Value) (id' : String) :
    Host.Declared (doc.write id value) doc id' := by
  by_cases h : id' = id
  · subst h
    rcases write_cases doc id' value with ⟨-, hwrite⟩ | ⟨hnone, hwrite⟩ <;> rw [hwrite]
    · exact declared_setValue doc id' value id'
    · have hfield := field?_append doc ⟨id', .other, value, none, []⟩ hnone id'
      rw [if_pos rfl] at hfield
      refine ⟨?_, ?_, ?_⟩
      · show Option.bind _ _ = Option.bind _ _
        rw [hfield, hnone]
        rfl
      · show Option.elim _ _ _ = Option.elim _ _ _
        rw [hfield, hnone]
        rfl
      · show Option.elim _ _ _ = Option.elim _ _ _
        rw [hfield, hnone]
        rfl
  · exact declared_of_field? (field?_write_ne doc value h)

theorem add_eq_ok {doc doc' : Document} {spec : FieldSpec} (h : doc.add spec = .ok doc') :
    isId spec.id = true ∧ ∃ value hnew, initialValue spec = .ok value ∧
      doc' = doc.append ⟨spec.id, spec.kind, value, spec.formula?, spec.columns⟩ hnew := by
  unfold add at h
  split at h
  next roster hok =>
    rcases Roster.add_cases spec doc.toRoster with ⟨cause, herror⟩ | ⟨hid, hnew, value, hvalue, hrun⟩
    · simp [herror] at hok
    · obtain ⟨-, rfl⟩ := EStateM.Result.ok.inj (hok.symm.trans hrun)
      exact ⟨hid, value, doc.toInStep.field?_eq_none_iff.2 hnew, hvalue, (Except.ok.inj h).symm⟩
  next => simp at h

/-- A field with an id, of which there is none yet, and with a value is added. -/
theorem add_of_isId {spec : FieldSpec} {value : Value} (hid : isId spec.id = true)
    (hnew : doc.field? spec.id = none) (hvalue : initialValue spec = .ok value) :
    doc.add spec =
      .ok (doc.append ⟨spec.id, spec.kind, value, spec.formula?, spec.columns⟩ hnew) := by
  have hrun := Roster.add_eq_ok hid (doc.toInStep.field?_eq_none_iff.1 hnew) hvalue
  unfold add
  split
  next roster hok =>
    obtain ⟨-, rfl⟩ := EStateM.Result.ok.inj (hok.symm.trans hrun)
    rfl
  next cause _ herror => exact absurd (herror.symm.trans hrun) (by simp)

theorem setFormula_eq_ok {doc doc' : Document} {formula? : Option String}
    (h : doc.setFormula id formula? = .ok doc') :
    doc' = doc.modify id fun field => { field with formula? } := by
  unfold setFormula at h
  split at h
  next roster hok =>
    rcases Roster.setFormula_cases id formula? doc.toRoster with ⟨cause, herror⟩ | ⟨-, hrun⟩
    · simp [herror] at hok
    · obtain ⟨-, rfl⟩ := EStateM.Result.ok.inj (hok.symm.trans hrun)
      exact (Except.ok.inj h).symm
  next => simp at h

theorem formula?_eq (doc : Document) (id : String) :
    Host.formula? doc id = (doc.field? id).bind Field.formula? := rfl

/-- An edit fails, gives a field another formula, adds a field, or removes one. -/
theorem edit_cases (doc : Document) (e : Edit) :
    doc.edit e = doc ∨
      (doc.edit e = doc.modify e.field fun field => { field with formula? := e.formula? }) ∨
      (∃ field hnew, field.id = e.field ∧ field.formula? = e.formula? ∧
        (∃ spec, initialValue spec = .ok field.value) ∧ doc.edit e = doc.append field hnew) ∨
      (e.formula? = none ∧ doc.edit e = (doc.remove e.field).2) := by
  cases e with
  | setFormula id formula? =>
    cases hset : doc.setFormula id formula? with
    | error _ => exact .inl (by rw [edit, hset]; rfl)
    | ok doc' => exact .inr (.inl (by rw [edit, hset]; exact setFormula_eq_ok hset))
  | add spec =>
    cases hadd : doc.add spec with
    | error _ => exact .inl (by rw [edit, hadd]; rfl)
    | ok doc' =>
      obtain ⟨-, value, hnew, hvalue, heq⟩ := add_eq_ok hadd
      exact .inr (.inr (.inl ⟨_, hnew, rfl, rfl, ⟨spec, hvalue⟩, by rw [edit, hadd]; exact heq⟩))
  | remove id => exact .inr (.inr (.inr ⟨rfl, rfl⟩))

theorem field?_edit_ne (doc : Document) (e : Edit) (h : id ≠ e.field) :
    (doc.edit e).field? id = doc.field? id := by
  rcases edit_cases doc e with he | he | ⟨field, hnew, hid, -, -, he⟩ | ⟨-, he⟩
  · rw [he]
  · rw [he, field?_modify, if_neg (Ne.symm h)]
  · rw [he, field?_append, if_neg fun hi => h (hi.symm.trans hid)]
  · rw [he, field?_remove, if_neg (Ne.symm h)]

theorem formula?_edit (doc : Document) (e : Edit) :
    Host.formula? (doc.edit e) e.field = Host.formula? doc e.field ∨
      Host.formula? (doc.edit e) e.field = e.formula? := by
  rcases edit_cases doc e with he | he | ⟨field, hnew, hid, hformula, -, he⟩ | ⟨hformula, he⟩
  · exact .inl (congrArg (Host.formula? · e.field) he)
  · rw [he, formula?_eq, formula?_eq, field?_modify, if_pos rfl]
    cases doc.field? e.field with
    | none => exact .inl rfl
    | some field => exact .inr rfl
  · rw [he, formula?_eq, field?_append, if_pos hid]
    exact .inr hformula
  · rw [he, formula?_eq, field?_remove, if_pos rfl]
    exact .inr hformula.symm

theorem value?_push (doc : Document) (id : String) (value : Value) (id' : String)
    (hformula : (Host.formula? doc id).isSome) :
    Host.value? (Host.push doc id value) id' =
      if id = id' then some value else Host.value? doc id' := by
  rw [formula?_eq] at hformula
  have hfield := field?_modify doc id id' (fun field => { field with value }) fun _ => rfl
  refine (congrArg (Option.map Field.value) hfield).trans ?_
  split
  next h =>
    subst h
    cases hfind : doc.field? id with
    | none => simp [hfind] at hformula
    | some field => rfl
  next => rfl

theorem value?_write (doc : Document) (id : String) (value : Value) (id' : String) (h : id' ≠ id) :
    Host.value? (Host.write doc id value) id' = Host.value? doc id' :=
  congrArg (Option.map Field.value) (field?_write_ne doc value h)

theorem value?_write_self (doc : Document) (id : String) (value : Value) :
    Host.value? (Host.write doc id value) id = some value := by
  show ((doc.write id value).field? id).map Field.value = some value
  rcases write_cases doc id value with ⟨hsome, hwrite⟩ | ⟨_, hwrite⟩ <;> rw [hwrite]
  · obtain ⟨field, hfield⟩ := Option.isSome_iff_exists.1 hsome
    rw [field?_modify, if_pos rfl, hfield]
    rfl
  · rw [field?_append, if_pos rfl, Option.map_some]

/-- The field of an edit keeps its value, unless it is added with its first one. -/
theorem value?_edit_self {doc : Document} {e : Edit} {value : Value}
    (h : Host.value? (doc.edit e) e.field = some value) :
    Host.value? doc e.field = some value ∨ ∃ spec, initialValue spec = .ok value := by
  rcases edit_cases doc e with he | he | ⟨field, hnew, hid, -, hvalue, he⟩ | ⟨-, he⟩
  · exact .inl (he ▸ h)
  · refine .inl ?_
    have hfield := field?_modify doc e.field e.field
      (fun field => { field with formula? := e.formula? }) fun _ => rfl
    rw [if_pos rfl] at hfield
    replace h : ((doc.edit e).field? e.field).map Field.value = some value := h
    rw [he, hfield, Option.map_map] at h
    exact h
  · replace h : ((doc.edit e).field? e.field).map Field.value = some value := h
    rw [he, field?_append, if_pos hid] at h
    obtain rfl := Option.some.inj h
    exact .inr hvalue
  · replace h : ((doc.edit e).field? e.field).map Field.value = some value := h
    rw [he, field?_remove, if_pos rfl] at h
    simp at h

theorem declared_edit (doc : Document) (e : Edit) (id : String) (h : id ≠ e.field) :
    Host.Declared (doc.edit e) doc id :=
  declared_of_field? (field?_edit_ne doc e h)

theorem value?_edit (doc : Document) (e : Edit) (id : String) (h : id ≠ e.field) :
    Host.value? (doc.edit e) id = Host.value? doc id :=
  congrArg (Option.map Field.value) (field?_edit_ne doc e h)

theorem formula?_remove (doc : Document) (id : String) :
    Host.formula? (doc.edit (.remove id)) id = none := by
  have hfield := field?_remove doc id id
  rw [if_pos rfl] at hfield
  exact congrArg (Option.bind · Field.formula?) hfield

instance : Owner Document where
  edit := edit
  mem_formulaFields := mem_formulaFields
  declared_push := declared_setValue
  value?_push := value?_push
  declared_write := declared_write
  value?_write := value?_write
  declared_edit := declared_edit
  value?_edit := value?_edit
  formula?_edit := formula?_edit
  formula?_remove := formula?_remove

end Document

/-! ## Traces -/

/-- An owner, and the values that were pushed into it, in order. -/
structure Traced (δ : Type) where
  owner : δ
  pushed : List (String × Value)

namespace Traced

variable {δ : Type} [Owner δ]

instance : Host (Traced δ) where
  value? t := Host.value? t.owner
  formula? t := Host.formula? t.owner
  formulaFields t := Host.formulaFields t.owner
  kind t := Host.kind t.owner
  columns t := Host.columns t.owner
  push t field v := ⟨Host.push t.owner field v, t.pushed ++ [(field, v)]⟩
  write t field v := { t with owner := Host.write t.owner field v }

theorem declared {t t' : Traced δ} {field : String}
    (h : Host.Declared t.owner t'.owner field) : Host.Declared t t' field :=
  ⟨h.formula, h.kind, h.columns⟩

instance : Owner (Traced δ) where
  edit t e := { t with owner := Owner.edit t.owner e }
  mem_formulaFields t := Owner.mem_formulaFields t.owner
  declared_push t f v g := declared (Owner.declared_push t.owner f v g)
  value?_push t := Owner.value?_push t.owner
  declared_write t f v g := declared (Owner.declared_write t.owner f v g)
  value?_write t := Owner.value?_write t.owner
  declared_edit t e g h := declared (Owner.declared_edit t.owner e g h)
  value?_edit t := Owner.value?_edit t.owner
  formula?_edit t := Owner.formula?_edit t.owner
  formula?_remove t := Owner.formula?_remove t.owner

end Traced
end Formulary
