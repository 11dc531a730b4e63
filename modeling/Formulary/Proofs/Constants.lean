/-
  What stands inside the values of expressions.

  A constant that can be written is a number, a text, a truth value or null, so nothing
  stands inside the value of an expression that did not stand inside an answer to one of
  its questions.

  * `Expr.constants`, `Expr.ofText_written`: the constants of an expression, and what they
    are in an expression that a text denotes;
  * `Yaml.gives_toValue`: the same of the values of a document;
  * `Provenance.eval`: an expression of fine constants comes to a fine value;
  * `Provenance.Yields.run`: so does a run of it whose answers are fine.
-/
import Formulary.Document
import Formulary.Expr.Eval
import Formulary.Proofs.Builtins
import Formulary.Proofs.Parsed
import Formulary.Proofs.Questions

namespace Formulary

/-! ## Constants -/

namespace Expr

mutual

/-- The constants of an expression, from left to right. -/
def constants : Expr → List Value
  | literal v => [v]
  | reference _ => []
  | unary _ operand => constants operand
  | binary _ left right => constants left ++ constants right
  | call _ args => constantsAll args
  | array items => constantsAll items
  | .index target position => constants target ++ constants position
  | lambda _ body => constants body

def constantsAll : List Expr → List Value
  | [] => []
  | e :: rest => constants e ++ constantsAll rest

end

theorem mem_constantsAll {es : List Expr} {v : Value} :
    v ∈ constantsAll es ↔ ∃ e ∈ es, v ∈ e.constants := by
  induction es with
  | nil => simp [constantsAll]
  | cons e rest ih => simp [constantsAll, ih]

/-- No fault stands inside a constant of an expression. -/
def Written (e : Expr) : Prop := ∀ v ∈ e.constants, v.Only fun _ => False

theorem inductive_written : Inductive Written where
  number x := by simp [Written, constants]
  text s := by simp [Written, constants]
  boolean b := by simp [Written, constants]
  null := by simp [Written, constants]
  reference path := by simp [Written, constants]
  unary _ _ h := h
  binary _ _ _ hl hr := List.forall_mem_append.2 ⟨hl, hr⟩
  call _ args h v hv := by
    obtain ⟨e, he, hv⟩ := mem_constantsAll.1 hv
    exact h e he v hv
  array items h v hv := by
    obtain ⟨e, he, hv⟩ := mem_constantsAll.1 hv
    exact h e he v hv
  index _ _ ht hp := List.forall_mem_append.2 ⟨ht, hp⟩
  lambda _ _ h := h

/-- No fault stands inside a constant that a text denotes. -/
theorem ofText_written {limit : Nat} {text : String} {e : Expr} (h : ofText limit text = .ok e) :
    e.Written :=
  ofText_inductive inductive_written limit text e h

end Expr

namespace Yaml

variable {sort : Fault → Prop}

theorem only_textValue (kind : FieldKind) (s : String) : (textValue kind s).Only sort := by
  unfold textValue
  split
  · split
    · exact Value.only_date _
    · exact Value.only_text s
  · exact Value.only_text s

mutual

/-- No fault stands inside a value that a text of YAML denotes. -/
theorem gives_toValue (kind : FieldKind) (y : Yaml) :
    Gives (fun v => v.Only sort) (y.toValue kind) := by
  cases y with
  | null => exact .ok Value.only_null
  | boolean b => exact .ok (Value.only_boolean b)
  | integer n => exact .ok (Value.only_number _)
  | float x => exact .ok (Value.only_number x)
  | text s => exact .ok (only_textValue kind s)
  | sequence items => exact (gives_itemValues items).map fun _ h => Value.only_array.2 h
  | mapping entries =>
    exact (gives_entryValues entries fun _ h => absurd h List.not_mem_nil).map fun _ h =>
      Value.only_object.2 h
  | tagged tag content => exact gives_toValue kind content

theorem gives_itemValues (items : List Yaml) :
    Gives (fun vs => ∀ v ∈ vs, v.Only sort) (itemValues items) := by
  cases items with
  | nil => exact .ok fun _ h => absurd h List.not_mem_nil
  | cons item rest =>
    exact (gives_toValue .other item).bind fun v hv => (gives_itemValues rest).map fun vs hvs =>
      List.forall_mem_cons.2 ⟨hv, hvs⟩

theorem gives_entryValues {found : List (String × Value)} (entries : List (Yaml × Yaml))
    (hfound : ∀ e ∈ found, e.2.Only sort) :
    Gives (fun es => ∀ e ∈ es, e.2.Only sort) (entryValues found entries) := by
  match entries with
  | [] => exact .ok hfound
  | (key, content) :: rest =>
    simp only [entryValues]
    split
    · exact .error _
    · refine (gives_toValue .other content).bind fun v hv => gives_entryValues rest fun e he => ?_
      rcases Entries.mem_insert he with rfl | he
      · exact hv
      · exact hfound e he

end

end Yaml

theorem Document.gives_initialValue {sort : Fault → Prop} (spec : FieldSpec) :
    Gives (fun v => v.Only sort) (initialValue spec) := by
  unfold initialValue
  split
  · exact Yaml.gives_toValue _ _
  · exact .ok Value.only_null

namespace Provenance

variable {P : Provenance}

/-! ## Expressions -/

/-- The bound names of a scope have fine values. -/
def Binds (P : Provenance) (scope : Scope) : Prop := ∀ frame ∈ scope, ∀ b ∈ frame, P.Fine b.2

theorem Binds.lookup? {scope : Scope} (h : P.Binds scope) {name : String} {v : Value}
    (hv : scope.lookup? name = some v) : P.Fine v := by
  obtain ⟨frame, hframe, hv⟩ := List.exists_of_findSome?_eq_some hv
  refine h frame hframe (name, v) (List.mem_reverse.1 ?_)
  obtain ⟨before, after, heq, -⟩ := List.lookup_eq_some_iff.1 hv
  exact heq ▸ List.mem_append_right _ List.mem_cons_self

theorem Binds.frame {scope : Scope} (h : P.Binds scope) (params : List String)
    {values : List Value} (hvalues : ∀ v ∈ values, P.Fine v) :
    P.Binds (params.zip values :: scope) := by
  refine List.forall_mem_cons.2 ⟨fun b hb => hvalues b.2 ?_, h⟩
  exact (List.of_mem_zip (a := b.1) (b := b.2) hb).2

section

variable {setting : Setting}

mutual

/-- An expression of fine constants comes to a fine value in a fine scope. -/
theorem eval {depth : Nat} {scope : Scope} (e : Expr) (hscope : P.Binds scope)
    (he : ∀ v ∈ e.constants, P.Fine v) : P.Yields P.Fine (e.eval setting depth scope) := by
  rw [Expr.eval.eq_def]
  split
  · exact .tooDeep _
  cases e with
  | literal v => exact .done (he v List.mem_cons_self)
  | reference path =>
    simp only [Expr.evalReference]
    split
    next v hv => exact .ofResult (select path [] (.toResult (hscope.lookup? hv)))
    next => exact .field path _
  | unary op operand =>
    exact (eval operand hscope he).bind fun v _ => .ofResult (unary op v)
  | binary op left right =>
    obtain ⟨hl, hr⟩ := List.forall_mem_append.1 he
    have hleft : P.Yields P.Fine (left.eval setting (depth + 1) scope) := eval left hscope hl
    have hright : P.Yields P.Fine (right.eval setting (depth + 1) scope) := eval right hscope hr
    cases op with
    | and =>
      refine hleft.bind fun v _ => ?_
      split
      · exact hright.bind fun w _ => .done (Value.only_boolean _)
      · exact .done (Value.only_boolean _)
    | or =>
      refine hleft.bind fun v _ => ?_
      split
      · exact .done (Value.only_boolean _)
      · exact hright.bind fun w _ => .done (Value.only_boolean _)
    | _ => exact hleft.bind fun v _ => hright.bind fun w _ => .ofResult (binary _ v w)
  | call name args => exact call setting.clock name (arguments args hscope he)
  | array items =>
    exact (evalAll items hscope he).bind fun vs hvs => .done (Value.only_array.2 hvs)
  | index target position =>
    obtain ⟨ht, hp⟩ := List.forall_mem_append.1 he
    exact (eval target hscope ht).bind fun v hv => (eval position hscope hp).bind fun w _ =>
      .ofResult (elementAt hv w)
  | lambda params body => exact .plain trivial

theorem evalAll {depth : Nat} {scope : Scope} (es : List Expr) (hscope : P.Binds scope)
    (hes : ∀ v ∈ Expr.constantsAll es, P.Fine v) :
    P.Yields (fun vs => ∀ v ∈ vs, P.Fine v) (Expr.evalAll setting depth scope es) := by
  cases es with
  | nil => exact .done fun _ h => absurd h List.not_mem_nil
  | cons e rest =>
    obtain ⟨he, hrest⟩ := List.forall_mem_append.1 hes
    rw [Expr.evalAll]
    exact (eval e hscope he).bind fun v hv => (evalAll rest hscope hrest).bind fun vs hvs =>
      .done (List.forall_mem_cons.2 ⟨hv, hvs⟩)

theorem arguments {depth : Nat} {scope : Scope} (es : List Expr) (hscope : P.Binds scope)
    (hes : ∀ v ∈ Expr.constantsAll es, P.Fine v) :
    ∀ a ∈ Expr.arguments setting depth scope es, P.Argument a := by
  cases es with
  | nil => exact fun _ h => absurd h List.not_mem_nil
  | cons e rest =>
    obtain ⟨he, hrest⟩ := List.forall_mem_append.1 hes
    rw [Expr.arguments]
    refine List.forall_mem_cons.2 ⟨⟨eval e hscope he, fun f hf => ?_⟩, arguments rest hscope hrest⟩
    cases e with
    | lambda params body =>
      obtain rfl := Option.some.inj hf
      exact fun values hvalues => eval body (hscope.frame params hvalues) he
    | _ => exact absurd hf (by simp [Expr.lambda?])

end

end

/-! ## Runs -/

/-- A run comes to a fine value, if the answers to what is asked do, and keeps what they
keep. -/
theorem Yields.run {α σ : Type} {good : α → Prop} {kind : Path → Prop} {x : Evaluation α}
    (hx : P.Yields good x) (hasks : x.Asks kind) {answer : Path → Nat → σ → Result × σ}
    (kept : σ → Prop)
    (hanswer : ∀ path depth s, kind path → kept s →
      P.Comes P.Fine (answer path depth s).1 ∧ kept (answer path depth s).2) {s : σ}
    (hs : kept s) : P.Comes good (Stop.settle (x.run answer s).1) ∧ kept (x.run answer s).2 := by
  induction hx generalizing s with
  | done h => exact ⟨.ok h, hs⟩
  | raise h => exact ⟨.error h, hs⟩
  | tooDeep limit => exact ⟨.plain trivial, hs⟩
  | ask path depth _ ih =>
    cases hasks with
    | ask hpath _ hnext =>
      obtain ⟨hr, hs'⟩ := hanswer path depth s hpath hs
      rw [Evaluation.run]
      generalize answer path depth s = step at hr hs' ⊢
      obtain ⟨r, s'⟩ := step
      cases hr with
      | ok hv => exact ih _ (.toResult hv) (hnext _) hs'
      | error h => exact ⟨.error h, hs'⟩

end Provenance
end Formulary
