/-
  Formulas that are known, and texts that are read anew.

  * `Formulas.Call`: to read a text as the formula of a field, or to forget a field;
  * `Formulas.perform`, `Formulas.performAll`, `Formulas.answers`: one call, and a run of
    them with what they return;
  * `Formulas.lastText?`: the text that a run read last for a field, if it did not forget
    the field since;
  * `Formulas.find?_perform`, `Formulas.find?_performAll`: the last text of each field is
    known with what it denotes, and nothing else is;
  * `Formulas.answers_transparent`: a call returns what its text denotes, as if nothing
    were known.
-/
import Mathlib.Data.List.Induction
import Formulary.Proofs.InStep

namespace Formulary.Formulas

/-! ## Calls -/

/-- A call on what is known of the formulas of fields. -/
inductive Call where
  /-- Reads a text as the formula of a field. -/
  | parse (field text : String)
  | forget (field : String)
  deriving DecidableEq, Repr

namespace Call

def field : Call → String
  | parse field _ | forget field => field

/-- The text that a call asks about. -/
def text? : Call → Option String
  | parse _ text => some text
  | forget _ => none

end Call

/-- One call, with what it returns. -/
def perform (limit : Nat) (formulas : Formulas) :
    Call → Option (Except ParseFailure Expr) × Formulas
  | .parse field text =>
    let (parsed, formulas) := formulas.parse field text limit
    (some parsed, formulas)
  | .forget field => (none, formulas.erase field)

/-- What is known after some calls. -/
def performAll (limit : Nat) (formulas : Formulas) (calls : List Call) : Formulas :=
  calls.foldl (fun formulas call => (perform limit formulas call).2) formulas

/-- What some calls return, one after the other. -/
def answers (limit : Nat) (formulas : Formulas) :
    List Call → List (Option (Except ParseFailure Expr))
  | [] => []
  | call :: rest =>
    (perform limit formulas call).1 :: answers limit (perform limit formulas call).2 rest

/-- What is known of a field whose text was read. -/
def entry (limit : Nat) (text : String) : String × Except ParseFailure Expr :=
  (text, Expr.ofText limit text)

/-- The text that was read last for a field, unless the field was forgotten since. -/
def lastText? (calls : List Call) (field : String) : Option String :=
  (calls.reverse.find? fun call => call.field == field).bind Call.text?

theorem lastText?_concat (calls : List Call) (call : Call) (field : String) :
    lastText? (calls ++ [call]) field =
      if call.field = field then call.text? else lastText? calls field := by
  rw [lastText?, List.reverse_concat, List.find?_cons]
  by_cases h : call.field = field
  · simp [h]
  · have hfield : (call.field == field) = false := by simpa using h
    simp [lastText?, hfield, h]

/-! ## One call -/

section

variable {limit : Nat} {formulas : Formulas}

theorem parse_of_find? {field text : String} {parsed : Except ParseFailure Expr}
    (h : formulas.find? field = some (text, parsed)) (limit : Nat) :
    formulas.parse field text limit = (parsed, formulas) := by
  simp only [Formulas.parse, h, if_pos]

/-- A call returns what its text denotes. -/
theorem answer_perform (h : formulas.Faithful limit) (call : Call) :
    (perform limit formulas call).1 = call.text?.map (Expr.ofText limit) := by
  cases call with
  | parse field text => exact congrArg some (h.parse field text).1
  | forget field => rfl

theorem Faithful.perform (h : formulas.Faithful limit) (call : Call) :
    (Formulas.perform limit formulas call).2.Faithful limit := by
  cases call with
  | parse field text => exact (h.parse field text).2
  | forget field => exact h.erase field

theorem find?_parse (h : formulas.Faithful limit) (read text field : String) :
    (formulas.parse read text limit).2.find? field =
      if read = field then some (entry limit text) else formulas.find? field := by
  cases hfind : formulas.find? read with
  | none =>
    simp only [Formulas.parse, hfind]
    exact NameMap.find?_insert ..
  | some known =>
    obtain ⟨old, parsed⟩ := known
    by_cases htext : old = text
    · -- nothing is put in: what is there is what the text denotes
      subst htext
      rw [parse_of_find? hfind]
      split
      next heq => rw [← heq, hfind, h read old parsed hfind, entry]
      next => rfl
    · simp only [Formulas.parse, hfind, if_neg htext]
      exact NameMap.find?_insert ..

/-- A call tells what is known of its own field and leaves the other fields alone. -/
theorem find?_perform (h : formulas.Faithful limit) (call : Call) (field : String) :
    (perform limit formulas call).2.find? field =
      if call.field = field then call.text?.map (entry limit) else formulas.find? field := by
  cases call with
  | parse read text => exact find?_parse h read text field
  | forget forgotten => exact NameMap.find?_erase ..

end

/-! ## Runs -/

theorem performAll_concat (limit : Nat) (formulas : Formulas) (calls : List Call) (call : Call) :
    performAll limit formulas (calls ++ [call]) =
      (perform limit (performAll limit formulas calls) call).2 :=
  List.foldl_concat ..

theorem Faithful.performAll {limit : Nat} {formulas : Formulas} (h : formulas.Faithful limit)
    (calls : List Call) : (Formulas.performAll limit formulas calls).Faithful limit := by
  induction calls generalizing formulas with
  | nil => exact h
  | cons call rest ih => exact ih (h.perform call)

/-- After a run the last text of each field is known, with what it denotes. -/
theorem find?_performAll (limit : Nat) (calls : List Call) (field : String) :
    (performAll limit .empty calls).find? field = (lastText? calls field).map (entry limit) := by
  induction calls using List.reverseRecOn with
  | nil => rfl
  | append_singleton calls call ih =>
    have hfaithful := (Faithful.empty limit).performAll calls
    rw [performAll_concat, find?_perform hfaithful call field, ih, lastText?_concat]
    split <;> rfl

theorem answers_of_faithful {limit : Nat} {formulas : Formulas} (h : formulas.Faithful limit)
    (calls : List Call) :
    answers limit formulas calls = calls.map fun call => call.text?.map (Expr.ofText limit) := by
  induction calls generalizing formulas with
  | nil => rfl
  | cons call rest ih =>
    rw [answers, answer_perform h, ih (h.perform call), List.map_cons]

/-- **Main result.** Whatever was read and forgotten before, for this field and for others, a
call returns what its text denotes, be it a tree or a failure.  Still the last texts are known,
each with what it denotes. -/
theorem answers_transparent (limit : Nat) (calls : List Call) :
    answers limit .empty calls = calls.map (fun call => call.text?.map (Expr.ofText limit)) ∧
      ∀ field, (performAll limit .empty calls).find? field =
        (lastText? calls field).map (entry limit) :=
  ⟨answers_of_faithful (.empty limit) calls, find?_performAll limit calls⟩

end Formulary.Formulas
