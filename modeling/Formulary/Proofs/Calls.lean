/-
  Fields under calls, one after the other.

  A call changes one field, or adds or removes it, or fails.  However many calls there
  were, the table of places is in step with the fields, and the next call leaves all
  other fields as they are and where they are among each other.

  * `Roster.Call`, `Roster.run`: calls, and the fields after some of them;
  * `Roster.InStep.after`: a call keeps the table in step;
  * `Roster.Spares`: what a call leaves as it is;
  * `Roster.run_calls`: both, after any calls.
-/
import Formulary.Document.Roster
import Mathlib.Data.List.Basic

namespace Formulary.Roster

/-! ## Calls -/

/-- A call that may change fields. -/
inductive Call where
  | add (spec : FieldSpec)
  | setFormula (id : String) (formula? : Option String)
  | remove (id : String)
  | write (id : String) (value : Value)
  | push (id : String) (value : Value)

/-- The field that a call names. -/
def Call.field : Call → String
  | add spec => spec.id
  | setFormula id _ | remove id | write id _ | push id _ => id

/-- What a call does to fields. -/
def Call.perform : Call → EStateM Invalid Roster Unit
  | add spec => Roster.add spec
  | setFormula id formula? => Roster.setFormula id formula?
  | remove id => modifyGet fun roster => ((), (roster.remove id).2)
  | write id value => modifyGet fun roster => ((), roster.write id value)
  | push id value => modifyGet fun roster => ((), roster.push id value)

/-- The fields after a call, which may have failed. -/
def after (roster : Roster) (call : Call) : Roster :=
  match call.perform.run roster with
  | .ok _ left | .error _ left => left

/-- The fields after some calls, none to begin with. -/
def run (calls : List Call) : Roster := calls.foldl after empty

variable {roster roster' : Roster} {id : String} {field : Field} {change : Field → Field}

/-- A call that fails has changed nothing. -/
theorem perform_eq_error {call : Call} {cause : Invalid}
    (h : call.perform.run roster = .error cause roster') : roster' = roster := by
  cases call with
  | add spec =>
    rcases add_cases spec roster with ⟨cause', herror⟩ | ⟨-, -, value, -, hok⟩
    · exact (EStateM.Result.error.inj (h.symm.trans herror)).2
    · exact absurd (h.symm.trans hok) (by simp)
  | setFormula id formula? =>
    rcases setFormula_cases id formula? roster with ⟨cause', herror⟩ | ⟨-, hok⟩
    · exact (EStateM.Result.error.inj (h.symm.trans herror)).2
    · exact absurd (h.symm.trans hok) (by simp)
  | remove id | write id value | push id value => cases h

/-- A call changes nothing, or a field of its name, or puts one at the end, or takes it
out. -/
theorem after_cases (h : roster.InStep) (call : Call) :
    roster.after call = roster ∨
      (∃ change : Field → Field, (∀ field, (change field).id = field.id) ∧
        roster.after call = roster.modify call.field change) ∨
      (∃ field : Field, field.id = call.field ∧ roster.places.find? field.id = none ∧
        roster.after call = roster.append field) ∨
      roster.after call = (roster.remove call.field).2 := by
  cases call with
  | add spec =>
    rcases add_cases spec roster with ⟨cause, herror⟩ | ⟨-, hnew, value, -, hok⟩
    · exact .inl (by rw [after, Call.perform, herror])
    · exact .inr (.inr (.inl ⟨_, rfl, hnew, by rw [after, Call.perform, hok]⟩))
  | setFormula id formula? =>
    rcases setFormula_cases id formula? roster with ⟨cause, herror⟩ | ⟨-, hok⟩
    · exact .inl (by rw [after, Call.perform, herror])
    · refine .inr (.inl ⟨fun field => { field with formula? }, fun _ => rfl, ?_⟩)
      rw [after, Call.perform, hok]
      rfl
  | remove id => exact .inr (.inr (.inr rfl))
  | push id value => exact .inr (.inl ⟨fun field => { field with value }, fun _ => rfl, rfl⟩)
  | write id value =>
    show roster.write id value = _ ∨ _
    cases hfield : roster.field? id with
    | none =>
      refine .inr (.inr (.inl ⟨⟨id, .other, value, none, []⟩, rfl, h.field?_eq_none_iff.1 hfield, ?_⟩))
      show roster.write id value = _
      rw [write, hfield]
    | some field =>
      refine .inr (.inl ⟨fun field => { field with value }, fun _ => rfl, ?_⟩)
      show roster.write id value = _
      rw [write, hfield]
      rfl

/-- One call keeps the table in step. -/
theorem InStep.after (h : roster.InStep) (call : Call) : (roster.after call).InStep := by
  rcases after_cases h call with he | ⟨change, keeps, he⟩ | ⟨field, -, hnew, he⟩ | he <;> rw [he]
  · exact h
  · exact h.modify keeps
  · exact h.append hnew
  · exact h.remove

/-- The table is in step after any calls. -/
theorem run_inStep (calls : List Call) : (run calls).InStep := by
  -- from any fields that are in step, call by call
  have hfold (roster : Roster) (h : roster.InStep) : (calls.foldl Roster.after roster).InStep := by
    induction calls generalizing roster with
    | nil => exact h
    | cons call rest ih => exact ih _ (h.after call)
  exact hfold empty .empty

/-! ## The other fields -/

/-- What stays of fields when one of them is changed, added or removed: the others, in
their order, and the order of the ids that remain. -/
structure Spares (id : String) (roster roster' : Roster) : Prop where
  others : (roster'.fields.filter fun field => field.id != id) =
    roster.fields.filter fun field => field.id != id
  order : (roster'.fields.map Field.id).filter (· ∈ roster.fields.map Field.id) =
    (roster.fields.map Field.id).filter (· ∈ roster'.fields.map Field.id)

namespace Spares

theorem refl (id : String) (roster : Roster) : Spares id roster roster := ⟨rfl, rfl⟩

theorem modify (h : roster.InStep) (keeps : ∀ field, (change field).id = field.id) :
    Spares id roster (roster.modify id change) where
  others := by
    have hkey : (fun field : Field => field.id != id) ∘
        (fun field => if field.id = id then change field else field) =
          fun field => field.id != id := by
      funext field
      simp only [Function.comp_apply]
      split
      · rw [keeps]
      · rfl
    have hother : ∀ field ∈ roster.fields.filter fun field => field.id != id,
        (if field.id = id then change field else field) = field := fun field hfield =>
      if_neg (bne_iff_ne.1 (List.mem_filter.1 hfield).2)
    rw [h.fields_modify, List.filter_map, hkey, List.map_congr_left hother, List.map_id']
  order := by
    have hids : (roster.modify id change).fields.map Field.id = roster.fields.map Field.id := by
      rw [Roster.modify]
      split
      · exact map_id_modify keeps _ _
      · rfl
    rw [hids]

theorem append (hnew : field.id ∉ roster.fields.map Field.id) :
    Spares field.id roster (roster.append field) where
  others := by
    show (roster.fields ++ [field]).filter _ = _
    simp
  order := by
    have hids : (roster.append field).fields.map Field.id = roster.fields.map Field.id ++ [field.id] :=
      List.map_append
    rw [hids, List.filter_append, List.filter_eq_self.2 fun id hid => by simpa using hid,
      List.filter_eq_self.2 fun id hid => decide_eq_true (List.mem_append_left _ hid)]
    simpa using hnew

theorem remove (h : roster.InStep) : Spares id roster (roster.remove id).2 where
  others := by rw [h.fields_remove, List.filter_filter]; simp only [Bool.and_self]
  order := by
    have hids : (roster.remove id).2.fields.map Field.id =
        (roster.fields.map Field.id).filter (· != id) := by
      rw [h.fields_remove, List.filter_map]
      rfl
    rw [hids, List.filter_filter]
    refine List.filter_congr fun other hother => ?_
    simp only [List.mem_filter, hother, decide_true, true_and, Bool.true_and, Bool.decide_eq_true]

/-- Another field is read as before. -/
theorem field?_eq (h : Spares id roster roster') (hstep : roster.InStep) (hstep' : roster'.InStep)
    {other : String} (hne : other ≠ id) : roster'.field? other = roster.field? other := by
  have hfind (fields : List Field) : (fields.find? fun field => field.id == other) =
      (fields.filter fun field => field.id != id).find? fun field => field.id == other := by
    rw [List.find?_filter]
    congr 1
    funext field
    by_cases hfield : field.id = other <;> simp [hfield, hne]
  rw [hstep'.field?_eq_find?, hstep.field?_eq_find?, hfind, h.others, ← hfind]

end Spares

/-- One call spares all fields but the one it names. -/
theorem InStep.spares (h : roster.InStep) (call : Call) :
    Spares call.field roster (roster.after call) := by
  rcases after_cases h call with he | ⟨change, keeps, he⟩ | ⟨field, hid, hnew, he⟩ | he <;> rw [he]
  · exact .refl _ roster
  · exact .modify h keeps
  · exact hid ▸ .append (h.notMem_of_find?_eq_none hnew)
  · exact .remove h

/-- **Main result.** After any calls, whether they failed or not, the ids of the fields
differ, the table has the place of each of them and no other name, and a field is read
off the place of its id.  The next call leaves the other fields as they are, in their
order; and where it fails it leaves everything as it is. -/
theorem run_calls (calls : List Call) :
    let roster := run calls
    (roster.fields.map Field.id).Nodup ∧
      (∀ id place, roster.places.find? id = some place ↔
        ∃ field, roster.fields[place]? = some field ∧ field.id = id) ∧
      (∀ id field, roster.field? id = some field ↔ field ∈ roster.fields ∧ field.id = id) ∧
      ∀ call : Call,
        Spares call.field roster (roster.after call) ∧
        (∀ other ≠ call.field, (roster.after call).field? other = roster.field? other) ∧
        ∀ cause left, call.perform.run roster = .error cause left → left = roster := by
  intro roster
  have h : roster.InStep := run_inStep calls
  refine ⟨h.distinct, fun id place => ?_, fun id field => ?_, fun call => ⟨h.spares call, ?_, ?_⟩⟩
  · rw [h.placed, List.getElem?_map, Option.map_eq_some_iff]
  · exact h.field?_eq_some_iff
  · exact fun other hne => (h.spares call).field?_eq h (h.after call) hne
  · exact fun cause left => perform_eq_error

/-- Where a field between others is taken out, the one behind it moves up. -/
example :
    let roster := run [.write "a" .null, .write "b" .null, .write "c" .null, .remove "b"]
    roster.places.entries = [("a", 0), ("c", 1)] ∧ roster.fields.map Field.id = ["a", "c"] := by
  decide

end Formulary.Roster
