/-
  Lists of fields with a table of their places.

  A field is looked up at the place that the table has for its id.  The table is
  kept in step with the list: where a field is added it gets the place at the end,
  and where one is taken out those behind it get new places.

  * `FieldSpec`, `Field`: a field as it is written, and as it is held;
  * `Roster`: fields in order, with the table;
  * `Roster.add`, `Roster.setFormula`, `Roster.remove`: changes of the list of fields;
  * `Roster.write`, `Roster.push`: changes of values;
  * `Roster.InStep`: the ids differ, and the table has the place of each and no other
    name; every change keeps it.
-/
import Formulary.Document.Fault
import Formulary.Field
import Formulary.Names.Map
import Formulary.Text.Blank

namespace Formulary

/-- A field as it is written in a document. -/
structure FieldSpec where
  id : String
  kind : FieldKind
  value? : Option Yaml
  formula? : Option String
  columns : List Column
  deriving Repr

/-- A field of a document. -/
structure Field where
  id : String
  kind : FieldKind
  value : Value
  formula? : Option String
  columns : List Column
  deriving Repr

namespace Document

/-- The characters that no id holds, beside blanks. -/
def reserved : List Char := ['.', '\x7b', '\x7d', '(', ')', '"']

/-- Whether a text can be the id of a field: it is no number, and a reference can
hold it. -/
def isId (id : String) : Bool :=
  let cs := id.toList
  !cs.isEmpty && !cs.all Char.isDigit
    && !cs.any fun c => Text.isBlank c || reserved.contains c

/-- The value that a field holds at first. -/
def initialValue (spec : FieldSpec) : Except YamlCause Value :=
  match spec.value? with
  | some content => content.toValue spec.kind
  | none => .ok .null

end Document

/-- Fields in order, with a table of the places of their ids. -/
structure Roster where
  fields : List Field
  places : NameMap Nat := NameMap.ofList (fields.map Field.id).zipIdx

namespace Roster

def empty : Roster := ⟨[], .empty⟩

/-- The field of an id, at its place. -/
def field? (roster : Roster) (id : String) : Option Field :=
  (roster.places.find? id).bind fun place => roster.fields[place]?

/-- Changes the field of an id, at its place. -/
def modify (roster : Roster) (id : String) (change : Field → Field) : Roster :=
  match roster.places.find? id with
  | some place => { roster with fields := roster.fields.modify place change }
  | none => roster

/-- Puts a field at the end. -/
def append (roster : Roster) (field : Field) : Roster where
  fields := roster.fields ++ [field]
  places := roster.places.insert field.id roster.fields.length

/-- Adds a field at the end. -/
def add (spec : FieldSpec) : EStateM Invalid Roster Unit := do
  let roster ← get
  if !Document.isId spec.id then throw (.badId spec.id)
  else if roster.places.contains spec.id then throw (.duplicateId spec.id)
  else match Document.initialValue spec with
    | .error cause => throw (.badValue spec.id cause)
    | .ok value => set (roster.append ⟨spec.id, spec.kind, value, spec.formula?, spec.columns⟩)

/-- Gives a field another formula, or none. -/
def setFormula (id : String) (formula? : Option String) : EStateM Invalid Roster Unit := do
  let roster ← get
  match roster.field? id with
  | none => throw (.unknownField id)
  | some _ => set (roster.modify id fun field => { field with formula? })

/-- Takes out a field; those behind it get new places. -/
def remove (roster : Roster) (id : String) : Option Field × Roster :=
  match roster.places.find? id with
  | none => (none, roster)
  | some place =>
    let fields := roster.fields.eraseIdx place
    (roster.fields[place]?, {
      fields
      places := ((fields.map Field.id).zipIdx.drop place).foldl (fun m e => m.insert e.1 e.2)
        (roster.places.erase id) })

/-- Takes over a computed value; one for an unknown field is dropped. -/
def push (roster : Roster) (id : String) (value : Value) : Roster :=
  roster.modify id fun field => { field with value }

/-- Takes over a written value; one for an unknown field makes a field. -/
def write (roster : Roster) (id : String) (value : Value) : Roster :=
  match roster.field? id with
  | some _ => roster.modify id fun field => { field with value }
  | none => roster.append ⟨id, .other, value, none, []⟩

/-! ## Places of names -/

section

/-- A table has the places of some names and no other name. -/
def Placed (places : NameMap Nat) (ids : List String) : Prop :=
  ∀ id place, places.find? id = some place ↔ ids[place]? = some id

variable {ids : List String} {places : NameMap Nat} {id id' : String} {place place' : Nat}

theorem mem_drop_zipIdx :
    (id, place) ∈ ids.zipIdx.drop place' ↔ place' ≤ place ∧ ids[place]? = some id := by
  rw [List.mem_iff_getElem?]
  simp only [List.getElem?_drop, List.getElem?_zipIdx, Option.map_eq_some_iff, Prod.mk.injEq]
  constructor
  · rintro ⟨i, _, hi, rfl, rfl⟩
    exact ⟨by omega, by rwa [Nat.zero_add]⟩
  · rintro ⟨hle, hid⟩
    exact ⟨place - place', id, by rwa [Nat.add_sub_cancel' hle], rfl, by omega⟩

theorem mem_drop_of_getElem? (hle : place ≤ place') (h : ids[place']? = some id) :
    id ∈ ids.drop place := by
  refine List.mem_iff_getElem?.2 ⟨place' - place, ?_⟩
  rw [List.getElem?_drop, Nat.add_sub_cancel' hle, h]

theorem getElem?_unique (hdistinct : ids.Nodup) (h : ids[place]? = some id)
    (h' : ids[place']? = some id) : place = place' :=
  (List.getElem?_inj (List.getElem?_eq_some_iff.1 h).1 hdistinct).1 (h.trans h'.symm)

/-- A table built from names that differ has their places. -/
theorem placed_ofList (h : ids.Nodup) : Placed (NameMap.ofList ids.zipIdx) ids := fun id place => by
  rw [NameMap.ofList, NameMap.find?_foldl_insert (by rwa [List.zipIdx_map_fst]),
    List.mk_mem_zipIdx_iff_getElem?]
  simp

/-- A new name gets the place at the end. -/
theorem Placed.insert (h : Placed places ids) (hnew : id ∉ ids) :
    Placed (places.insert id ids.length) (ids ++ [id]) := fun id' place => by
  rw [NameMap.find?_insert, List.getElem?_append]
  by_cases hid : id = id'
  · subst hid
    have hnotMem : ids[place]? ≠ some id := fun h => hnew (List.mem_of_getElem? h)
    grind
  · rw [if_neg hid, h]
    grind

/-- One of some names that differ is taken out, and those behind it get new places. -/
theorem Placed.erase (h : Placed places ids) (hdistinct : ids.Nodup) (hid : ids[place]? = some id) :
    Placed (((ids.eraseIdx place).zipIdx.drop place).foldl (fun m e => m.insert e.1 e.2)
      (places.erase id)) (ids.eraseIdx place) := fun id' place' => by
  have hnodup : (ids.eraseIdx place).Nodup := (List.eraseIdx_sublist ids place).nodup hdistinct
  have hnames : (((ids.eraseIdx place).zipIdx.drop place).map Prod.fst).Nodup := by
    rw [List.map_drop, List.zipIdx_map_fst]
    exact (List.drop_sublist _ _).nodup hnodup
  rw [NameMap.find?_foldl_insert hnames, mem_drop_zipIdx, NameMap.find?_erase, List.map_drop,
    List.zipIdx_map_fst]
  by_cases hle : place ≤ place'
  · refine ⟨?_, fun hplace => .inl ⟨hle, hplace⟩⟩
    rintro (⟨-, hplace⟩ | ⟨hbehind, hplace⟩)
    · exact hplace
    -- a name that the table has at a later place got its new place
    · obtain ⟨hne, hfound⟩ := Option.ite_none_left_eq_some.1 hplace
      have hold : ids[place']? = some id' := (h id' place').1 hfound
      have hlt : place < place' := by
        refine Nat.lt_of_le_of_ne hle fun heq => hne ?_
        exact Option.some.inj (hid.symm.trans (heq ▸ hold))
      have hmoved : (ids.eraseIdx place)[place' - 1]? = some id' := by
        rw [List.getElem?_eraseIdx_of_ge (by omega), Nat.sub_add_cancel (by omega), hold]
      exact absurd (mem_drop_of_getElem? (by omega) hmoved) hbehind
  · have hsame : (ids.eraseIdx place)[place']? = ids[place']? :=
      List.getElem?_eraseIdx_of_lt (Nat.not_le.1 hle)
    constructor
    · rintro (⟨hplace, -⟩ | ⟨-, hplace⟩)
      · exact absurd hplace hle
      · exact hsame.trans ((h id' place').1 (Option.ite_none_left_eq_some.1 hplace).2)
    · intro hplace
      refine .inr ⟨fun hbehind => ?_, Option.ite_none_left_eq_some.2 ⟨?_, ?_⟩⟩
      · obtain ⟨i, hi⟩ := List.mem_iff_getElem?.1 hbehind
        rw [List.getElem?_drop] at hi
        have heq := getElem?_unique hnodup hplace hi
        omega
      · rintro rfl
        have heq := getElem?_unique hdistinct hid (hsame.symm.trans hplace)
        omega
      · exact (h id' place').2 (hsame.symm.trans hplace)

end

/-! ## In step -/

/-- The ids differ, and the table has the place of each id and no other name. -/
structure InStep (roster : Roster) : Prop where
  distinct : (roster.fields.map Field.id).Nodup
  placed : Placed roster.places (roster.fields.map Field.id) := by
    exact Formulary.Roster.placed_ofList (by decide)

variable {roster roster' : Roster} {id : String} {field : Field} {change : Field → Field}

theorem map_id_modify (keeps : ∀ field, (change field).id = field.id) (fields : List Field)
    (place : Nat) : (fields.modify place change).map Field.id = fields.map Field.id := by
  refine List.ext_getElem? fun i => ?_
  simp only [List.getElem?_map, List.getElem?_modify]
  cases fields[i]? with
  | none => rfl
  | some field => by_cases h : place = i <;> simp [h, keeps]

theorem map_id_eraseIdx (fields : List Field) (place : Nat) :
    (fields.eraseIdx place).map Field.id = (fields.map Field.id).eraseIdx place := by
  refine List.ext_getElem? fun i => ?_
  simp only [List.getElem?_map, List.getElem?_eraseIdx]
  split <;> rfl

/-- A field with an id, of which there is none yet, and with a value is added. -/
theorem add_eq_ok {spec : FieldSpec} {value : Value} (hid : Document.isId spec.id = true)
    (hnew : roster.places.find? spec.id = none) (hvalue : Document.initialValue spec = .ok value) :
    (add spec).run roster =
      .ok () (roster.append ⟨spec.id, spec.kind, value, spec.formula?, spec.columns⟩) := by
  simp only [add, EStateM.run_bind, EStateM.run_get, hid, NameMap.contains, hnew, hvalue]
  rfl

/-- A field that is added fits, and goes to the end; else nothing changes. -/
theorem add_cases (spec : FieldSpec) (roster : Roster) :
    (∃ cause, (add spec).run roster = .error cause roster) ∨
      (Document.isId spec.id = true ∧ roster.places.find? spec.id = none ∧
        ∃ value, Document.initialValue spec = .ok value ∧ (add spec).run roster =
          .ok () (roster.append ⟨spec.id, spec.kind, value, spec.formula?, spec.columns⟩)) := by
  by_cases hid : Document.isId spec.id = true
  · cases hnew : roster.places.find? spec.id with
    | some _ =>
      refine .inl ⟨.duplicateId spec.id, ?_⟩
      simp only [add, EStateM.run_bind, EStateM.run_get, hid, NameMap.contains, hnew]
      rfl
    | none =>
      cases hvalue : Document.initialValue spec with
      | error cause =>
        refine .inl ⟨.badValue spec.id cause, ?_⟩
        simp only [add, EStateM.run_bind, EStateM.run_get, hid, NameMap.contains, hnew, hvalue]
        rfl
      | ok value => exact .inr ⟨hid, rfl, value, rfl, add_eq_ok hid hnew hvalue⟩
  · refine .inl ⟨.badId spec.id, ?_⟩
    simp only [add, EStateM.run_bind, EStateM.run_get, hid]
    rfl

/-- A field that is given a formula is there; else nothing changes. -/
theorem setFormula_cases (id : String) (formula? : Option String) (roster : Roster) :
    (∃ cause, (setFormula id formula?).run roster = .error cause roster) ∨
      (roster.field? id).isSome ∧ (setFormula id formula?).run roster =
        .ok () (roster.modify id fun field => { field with formula? }) := by
  simp only [setFormula, EStateM.run_bind, EStateM.run_get]
  cases roster.field? id with
  | none => exact .inl ⟨_, rfl⟩
  | some _ => exact .inr ⟨rfl, rfl⟩

namespace InStep

theorem empty : Roster.empty.InStep := ⟨List.nodup_nil, placed_ofList .nil⟩

/-- A field is there exactly if its id has a place. -/
theorem field?_eq_none_iff (h : roster.InStep) :
    roster.field? id = none ↔ roster.places.find? id = none := by
  rw [Roster.field?]
  cases hplace : roster.places.find? id with
  | none => simp
  | some place =>
    have hid := (h.placed id place).1 hplace
    rw [List.getElem?_map] at hid
    obtain ⟨field, hfield, -⟩ := Option.map_eq_some_iff.1 hid
    simp [hfield]

theorem notMem_of_find?_eq_none (h : roster.InStep) (hnone : roster.places.find? id = none) :
    id ∉ roster.fields.map Field.id := by
  intro hmem
  obtain ⟨place, hplace⟩ := List.mem_iff_getElem?.1 hmem
  rw [← h.placed id place, hnone] at hplace
  exact absurd hplace (Option.some_ne_none place).symm

theorem modify (h : roster.InStep) (keeps : ∀ field, (change field).id = field.id) :
    (roster.modify id change).InStep := by
  rw [Roster.modify]
  split
  next place _ =>
    have hids := map_id_modify keeps roster.fields place
    exact ⟨hids ▸ h.distinct, hids ▸ h.placed⟩
  next => exact h

theorem append (h : roster.InStep) (hnew : roster.places.find? field.id = none) :
    (roster.append field).InStep := by
  have hnotMem : field.id ∉ roster.fields.map Field.id := h.notMem_of_find?_eq_none hnew
  have hids : (roster.append field).fields.map Field.id =
      roster.fields.map Field.id ++ [field.id] := List.map_append
  have hplaced := h.placed.insert hnotMem
  rw [List.length_map] at hplaced
  refine ⟨hids ▸ ?_, hids ▸ hplaced⟩
  exact List.nodup_append.2 ⟨h.distinct, by simp, by
    rintro a ha b hb rfl
    exact hnotMem (List.mem_singleton.1 hb ▸ ha)⟩

theorem add {spec : FieldSpec} (h : roster.InStep)
    (hok : (Roster.add spec).run roster = .ok () roster') : roster'.InStep := by
  rcases add_cases spec roster with ⟨cause, herror⟩ | ⟨-, hnew, value, -, hrun⟩
  · rw [herror] at hok
    exact absurd hok (by simp)
  · obtain ⟨-, rfl⟩ := EStateM.Result.ok.inj (hok.symm.trans hrun)
    exact h.append hnew

theorem setFormula {formula? : Option String} (h : roster.InStep)
    (hok : (Roster.setFormula id formula?).run roster = .ok () roster') : roster'.InStep := by
  rcases setFormula_cases id formula? roster with ⟨cause, herror⟩ | ⟨-, hrun⟩
  · rw [herror] at hok
    exact absurd hok (by simp)
  · obtain ⟨-, rfl⟩ := EStateM.Result.ok.inj (hok.symm.trans hrun)
    exact h.modify fun _ => rfl

theorem remove (h : roster.InStep) : (roster.remove id).2.InStep := by
  rw [Roster.remove]
  split
  next => exact h
  next place hplace =>
    have hid : (roster.fields.map Field.id)[place]? = some id := (h.placed id place).1 hplace
    have hids := map_id_eraseIdx roster.fields place
    refine ⟨?_, ?_⟩
    · rw [hids]
      exact (List.eraseIdx_sublist _ place).nodup h.distinct
    · dsimp only
      rw [hids]
      exact h.placed.erase h.distinct hid

theorem push (h : roster.InStep) (value : Value) : (roster.push id value).InStep :=
  h.modify fun _ => rfl

theorem write (h : roster.InStep) (value : Value) : (roster.write id value).InStep := by
  rw [Roster.write]
  split
  next => exact h.modify fun _ => rfl
  next hnone =>
    have hnew : roster.places.find? id = none := h.field?_eq_none_iff.1 hnone
    exact h.append hnew

/-! ### What the table stands for -/

/-- The place of an id is where a field has it. -/
theorem find?_eq_some_iff (h : roster.InStep) {place : Nat} (hfield : roster.fields[place]? = some field) :
    roster.places.find? id = some place ↔ field.id = id := by
  rw [h.placed, List.getElem?_map, hfield, Option.map_some, Option.some_inj]

/-- A field is read off the place of its id. -/
theorem field?_eq_some_iff (h : roster.InStep) :
    roster.field? id = some field ↔ field ∈ roster.fields ∧ field.id = id := by
  rw [Roster.field?, Option.bind_eq_some_iff, List.mem_iff_getElem?]
  constructor
  · rintro ⟨place, hplace, hfield⟩
    exact ⟨⟨place, hfield⟩, (h.find?_eq_some_iff hfield).1 hplace⟩
  · rintro ⟨⟨place, hfield⟩, hid⟩
    exact ⟨place, (h.find?_eq_some_iff hfield).2 hid, hfield⟩

/-- The field at the place of an id is the one that has it. -/
theorem field?_eq_find? (h : roster.InStep) (id : String) :
    roster.field? id = roster.fields.find? fun field => field.id == id := by
  cases hfind : roster.fields.find? fun field => field.id == id with
  | none =>
    refine Option.eq_none_iff_forall_ne_some.2 fun field hfield => ?_
    obtain ⟨hmem, hid⟩ := h.field?_eq_some_iff.1 hfield
    exact absurd (beq_iff_eq.2 hid) (List.find?_eq_none.1 hfind field hmem)
  | some field =>
    exact h.field?_eq_some_iff.2 ⟨List.mem_of_find?_eq_some hfind, by simpa using List.find?_some hfind⟩

/-- The field that has an id is changed. -/
theorem fields_modify (h : roster.InStep) (id : String) (change : Field → Field) :
    (roster.modify id change).fields =
      roster.fields.map fun field => if field.id = id then change field else field := by
  refine List.ext_getElem? fun i => ?_
  rw [List.getElem?_map]
  cases hfield : roster.fields[i]? with
  | none =>
    rw [Roster.modify]
    split
    next => rw [List.getElem?_modify, hfield]; rfl
    next => exact hfield
  | some field =>
    have hplace : roster.places.find? id = some i ↔ field.id = id := h.find?_eq_some_iff hfield
    rw [Roster.modify]
    split
    next place hfind =>
      rw [hfind, Option.some_inj] at hplace
      rw [List.getElem?_modify, hfield]
      simp [hplace]
    next hfind =>
      rw [hfind] at hplace
      rw [hfield, Option.map_some, if_neg fun hid => absurd (hplace.2 hid) (by simp)]

theorem eraseIdx_eq_filter {fields : List Field} {place : Nat}
    (hdistinct : (fields.map Field.id).Nodup) (hid : (fields.map Field.id)[place]? = some id) :
    fields.eraseIdx place = fields.filter fun field => field.id != id := by
  induction fields generalizing place with
  | nil => simp at hid
  | cons first rest ih =>
    obtain ⟨hfirst, hrest⟩ := List.nodup_cons.1 hdistinct
    cases place with
    | zero =>
      obtain rfl : first.id = id := by simpa using hid
      have hother : ∀ field ∈ rest, (field.id != first.id) = true := fun field hfield =>
        bne_iff_ne.2 fun heq => hfirst (heq ▸ List.mem_map_of_mem hfield)
      rw [List.eraseIdx_cons_zero, List.filter_cons_of_neg (by simp), List.filter_eq_self.2 hother]
    | succ place =>
      have hid' : (rest.map Field.id)[place]? = some id := hid
      have hne : first.id ≠ id := fun heq => hfirst (heq ▸ List.mem_of_getElem? hid')
      rw [List.eraseIdx_cons_succ, List.filter_cons, if_pos (bne_iff_ne.2 hne), ih hrest hid']

/-- The field that has an id is taken out. -/
theorem fields_remove (h : roster.InStep) (id : String) :
    (roster.remove id).2.fields = roster.fields.filter fun field => field.id != id := by
  rw [Roster.remove]
  split
  next hfind =>
    have hother : ∀ field ∈ roster.fields, (field.id != id) = true := fun field hfield =>
      bne_iff_ne.2 fun heq =>
        h.notMem_of_find?_eq_none hfind (heq ▸ List.mem_map_of_mem hfield)
    exact (List.filter_eq_self.2 hother).symm
  next place hfind => exact eraseIdx_eq_filter h.distinct ((h.placed id place).1 hfind)

end InStep

end Roster
end Formulary
