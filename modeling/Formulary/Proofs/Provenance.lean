/-
  Where faults come from.

  Arrays and objects can hold faults in the place of values.  Nothing that is computed
  puts one there: what stands inside a result stood inside a value it was made from.  What
  is raised stood there too, or a part raised it, or the operation made it, and then it
  does not list fields in a circle.

  * `Value.Holds`, `Value.Only`: the faults that stand inside a value;
  * `Provenance`: which faults may stand inside values, and which may be raised;
  * `Provenance.Comes`, `Provenance.Yields`: results and evaluations that keep to this;
  * `Provenance.select`, `Provenance.elementAt`, `Provenance.binary`: paths and operators
    do.
-/
import Formulary.Evaluation
import Formulary.Operators
import Formulary.Path.Selection
import Mathlib.Tactic.Common

namespace Formulary

/-! ## Faults inside values -/

namespace Value

/-- A fault stands in the place of a value or of a value inside it. -/
inductive Holds (fault : Fault) : Value → Prop
  | here : Holds fault (error fault)
  | item {items : List Value} {v : Value} : v ∈ items → Holds fault v → Holds fault (array items)
  | entry {entries : List (String × Value)} {e : String × Value} :
      e ∈ entries → Holds fault e.2 → Holds fault (object entries)

/-- All faults inside a value are of some sort. -/
def Only (sort : Fault → Prop) (v : Value) : Prop := ∀ fault, v.Holds fault → sort fault

section

variable {sort : Fault → Prop}

@[simp] theorem only_error {fault : Fault} : (error fault).Only sort ↔ sort fault := by
  refine ⟨fun h => h fault .here, fun h other hother => ?_⟩
  cases hother
  exact h

@[simp] theorem only_array {items : List Value} :
    (array items).Only sort ↔ ∀ v ∈ items, v.Only sort := by
  refine ⟨fun h v hv fault hfault => h fault (.item hv hfault), fun h fault hfault => ?_⟩
  cases hfault with
  | item hv hfault => exact h _ hv fault hfault

@[simp] theorem only_object {entries : List (String × Value)} :
    (object entries).Only sort ↔ ∀ e ∈ entries, e.2.Only sort := by
  refine ⟨fun h e he fault hfault => h fault (.entry he hfault), fun h fault hfault => ?_⟩
  cases hfault with
  | entry he hfault => exact h _ he fault hfault

@[simp] theorem only_number (x : Number) : (number x).Only sort := nofun

@[simp] theorem only_text (s : String) : (text s).Only sort := nofun

@[simp] theorem only_boolean (b : Bool) : (boolean b).Only sort := nofun

@[simp] theorem only_date (t : Instant) : (date t).Only sort := nofun

@[simp] theorem only_null : null.Only sort := nofun

theorem Only.mono {sort' : Fault → Prop} {v : Value} (h : v.Only sort)
    (hsort : ∀ fault, sort fault → sort' fault) : v.Only sort' :=
  fun fault hfault => hsort fault (h fault hfault)

/-- What a field shows for a result holds no more than its value. -/
theorem Only.shown {r : Except Fault Value} (h : ∀ v, r = .ok v → v.Only sort)
    (kind : FieldKind) : (shown kind r).Only sort := by
  cases r with
  | ok v => exact h v rfl
  | error fault =>
    rw [Value.shown]
    split
    · exact only_text _
    · cases kind <;> simp [blank]

end

end Value

/-- A fault does not list fields in a circle. -/
def Fault.Plain : Fault → Prop
  | cycle _ => False
  | _ => True

/-- Which faults may stand inside values, and which may be raised: all that may stand
inside values, and all that list no circle. -/
structure Provenance where
  inside : Fault → Prop
  raised : Fault → Prop
  of_inside : ∀ {fault}, inside fault → raised fault
  of_plain : ∀ {fault : Fault}, fault.Plain → raised fault

namespace Provenance

variable (P : Provenance) {α β : Type}

/-! ## Results and evaluations -/

/-- Only what may stand inside values stands inside a value. -/
def Fine (v : Value) : Prop := v.Only P.inside

/-- A result is of some sort, or a fault that may be raised. -/
inductive Comes (good : α → Prop) : Except Fault α → Prop
  | ok {a : α} : good a → Comes good (.ok a)
  | error {fault : Fault} : P.raised fault → Comes good (.error fault)

/-- Where the answers to its questions are fine, an evaluation comes to a result of some
sort, or it raises a fault that may be raised. -/
inductive Yields (good : α → Prop) : Evaluation α → Prop
  | done {a : α} : good a → Yields good (.done a)
  | raise {fault : Fault} : P.raised fault → Yields good (.raise fault)
  | tooDeep (limit : Nat) : Yields good (.stop (.tooDeep limit))
  | ask (path : Path) (depth : Nat) {next : Value → Evaluation α} :
      (∀ v, P.Comes P.Fine v.toResult → Yields good (next v)) →
        Yields good (.ask path depth next)

variable {P} {good : α → Prop} {good' : β → Prop} {v w : Value}

@[simp] theorem fine_count (n : Nat) : P.Fine (.count n) := Value.only_number _

namespace Comes

theorem plain {fault : Fault} (h : fault.Plain) : P.Comes good (.error fault) :=
  .error (P.of_plain h)

theorem bind {r : Except Fault α} {f : α → Except Fault β} (hr : P.Comes good r)
    (hf : ∀ a, good a → P.Comes good' (f a)) : P.Comes good' (r.bind f) := by
  cases hr with
  | ok h => exact hf _ h
  | error h => exact .error h

theorem map {r : Except Fault α} {f : α → β} (hr : P.Comes good r)
    (hf : ∀ a, good a → good' (f a)) : P.Comes good' (r.map f) := by
  cases hr with
  | ok h => exact .ok (hf _ h)
  | error h => exact .error h

theorem toResult (h : P.Fine v) : P.Comes P.Fine v.toResult := by
  cases v with
  | error fault => exact .error (P.of_inside (Value.only_error.1 h))
  | _ => exact .ok h

end Comes

namespace Yields

theorem plain {fault : Fault} (h : fault.Plain) : P.Yields good (.raise fault) :=
  .raise (P.of_plain h)

theorem bind {x : Evaluation α} {f : α → Evaluation β} (hx : P.Yields good x)
    (hf : ∀ a, good a → P.Yields good' (f a)) : P.Yields good' (x.bind f) := by
  induction hx with
  | done h => exact hf _ h
  | raise h => exact .raise h
  | tooDeep limit => exact .tooDeep limit
  | ask path depth _ ih => exact .ask path depth ih

theorem ofResult {r : Except Fault α} (h : P.Comes good r) : P.Yields good (.ofResult r) := by
  cases h with
  | ok h => exact .done h
  | error h => exact .raise h

theorem field (path : Path) (depth : Nat) : P.Yields P.Fine (.field path depth) :=
  .ask path depth fun _ h => .ofResult h

end Yields

/-! ## Paths -/

theorem fine_cell {key : String} {entries : List (String × Value)}
    (h : ∀ e ∈ entries, P.Fine e.2) : P.Fine (Path.cell key entries) := by
  unfold Path.cell
  split
  next v hv =>
    obtain ⟨e, he, rfl⟩ := Option.map_eq_some_iff.1 hv
    exact h e (List.mem_of_find?_eq_some he)
  next =>
    split
    next e he => exact h e (List.mem_of_find?_eq_some he)
    next => exact Value.only_null

theorem fine_cellOf {key : String} (h : P.Fine v) : P.Fine (Path.cellOf key v) := by
  cases v with
  | object entries => exact fine_cell (Value.only_object.1 h)
  | _ => exact Value.only_null

theorem step (path : Path) (columns : List Column) (segment : Segment) (h : P.Fine v) :
    P.Comes P.Fine (path.step columns segment v) := by
  unfold Path.step
  split
  next items =>
    split
    next v hv => exact .ok (Value.only_array.1 h v (List.mem_of_getElem? hv))
    next => exact .plain trivial
  next => exact .plain trivial
  next rows =>
    split
    next id _ =>
      refine .ok (Value.only_array.2 fun w hw => ?_)
      obtain ⟨row, hrow, rfl⟩ := List.mem_map.1 hw
      exact fine_cellOf (Value.only_array.1 h row hrow)
    next => exact .plain trivial
  next entries =>
    split
    next id _ => exact .ok (fine_cell (Value.only_object.1 h))
    next => exact .plain trivial
  next => exact .ok Value.only_null
  next => exact .plain trivial

theorem follow (path : Path) (segments : List Segment) (columns : List Column) (h : P.Fine v) :
    P.Comes P.Fine (path.follow columns segments v) := by
  induction segments generalizing columns v with
  | nil => exact .ok h
  | cons segment rest ih => exact (step path columns segment h).bind fun w hw => ih _ hw

theorem select (path : Path) (columns : List Column) (h : P.Comes P.Fine v.toResult) :
    P.Comes P.Fine (path.select columns v) :=
  h.bind fun _ hw => follow path _ columns hw

/-! ## Operators -/

theorem elementAt (h : P.Fine v) (w : Value) : P.Comes P.Fine (v.elementAt w) := by
  unfold Value.elementAt
  split
  next items x =>
    dsimp only
    split
    · exact .plain trivial
    · split
      next v hv => exact .ok (Value.only_array.1 h v (List.mem_of_getElem? hv))
      next => exact .plain trivial
  next entries name =>
    refine .ok ?_
    cases hfind : Entries.find? name entries with
    | none => exact Value.only_null
    | some v =>
      obtain ⟨e, he, rfl⟩ := Option.map_eq_some_iff.1 hfind
      exact Value.only_object.1 h e (List.mem_of_find?_eq_some he)
  next => exact .plain trivial

theorem unary (op : UnaryOp) (v : Value) : P.Comes P.Fine (op.apply v) := by
  unfold UnaryOp.apply
  split
  · exact .ok (Value.only_number _)
  · exact .plain trivial
  · exact .ok (Value.only_boolean _)

theorem shiftBy (operation : String) (t : Instant) (ms : Number) :
    P.Comes (fun _ => True) (Functions.shiftBy operation t ms) := by
  unfold Functions.shiftBy
  split
  · exact .plain trivial
  · split
    · exact .ok trivial
    · exact .plain trivial

theorem sum (v w : Value) : P.Comes P.Fine (BinaryOp.sum v w) := by
  unfold BinaryOp.sum
  split
  · exact .ok (Value.only_number _)
  · exact .ok (Value.only_text _)
  · exact .ok (Value.only_text _)
  · exact (shiftBy _ _ _).map fun t _ => Value.only_date t
  · exact (shiftBy _ _ _).map fun t _ => Value.only_date t
  · exact .plain trivial

theorem difference (v w : Value) : P.Comes P.Fine (BinaryOp.difference v w) := by
  unfold BinaryOp.difference
  split
  · exact .ok (Value.only_number _)
  · exact .ok (Value.only_number _)
  · exact (shiftBy _ _ _).map fun t _ => Value.only_date t
  · exact .plain trivial

theorem product (v w : Value) : P.Comes P.Fine (BinaryOp.product v w) := by
  unfold BinaryOp.product
  split
  · exact .ok (Value.only_number _)
  · exact .plain trivial

theorem quotient (v w : Value) : P.Comes P.Fine (BinaryOp.quotient v w) := by
  unfold BinaryOp.quotient
  split
  · split
    · exact .plain trivial
    · exact .ok (Value.only_number _)
  · exact .plain trivial

theorem binary (op : BinaryOp) (v w : Value) : P.Comes P.Fine (op.apply v w) := by
  cases op with
  | add => exact sum v w
  | sub => exact difference v w
  | mul => exact product v w
  | div => exact quotient v w
  | _ => exact .ok (Value.only_boolean _)

end Provenance
end Formulary
