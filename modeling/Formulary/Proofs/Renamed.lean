/-
  The names of parameters do not matter.

  A parameter may become any name that is not in use, if the references that it binds
  follow.  Those below a lambda that binds the name again do not: they are to its own
  parameter.

  * `Expr.Renames`: an expression in which a parameter of one lambda has become another
    name;
  * `Expr.Renames.alpha`: it differs in the names of parameters only;
  * `Path.select_renamed`: a path leads to the same value, or nowhere, from either name;
  * `Evaluation.Retold`: evaluations that differ only in the name that a fault shows;
  * `Expr.eval_renamed`: the expressions have the same references, result and questions,
    other than that name.
-/
import Formulary.Proofs.Lookups

namespace Formulary

namespace Expr

/-! ## Renaming -/

/-- What a parameter may become. -/
def Becomes (x y a b : String) : Prop := a = b ∨ a = x ∧ b = y

/-- A parameter `x` of one lambda becomes `y`, and the references that it binds follow. -/
inductive Renames (x y : String) : Expr → Expr → Prop
  /-- Of parameters of one name the last binds the references; any of them may be renamed. -/
  | parameter {params params' : List String} (body : Expr) :
      List.Forall₂ (Becomes x y) params params' →
        Renames x y (lambda params body) (lambda params'
          (if (Binders.ofParams params params').lookup x = some y then body.rename x y else body))
  | body (params : List String) {e e' : Expr} :
      Renames x y e e' → Renames x y (lambda params e) (lambda params e')
  | operand (op : UnaryOp) {e e' : Expr} :
      Renames x y e e' → Renames x y (unary op e) (unary op e')
  | left (op : BinaryOp) {e e' : Expr} (right : Expr) :
      Renames x y e e' → Renames x y (binary op e right) (binary op e' right)
  | right (op : BinaryOp) (left : Expr) {e e' : Expr} :
      Renames x y e e' → Renames x y (binary op left e) (binary op left e')
  | argument (name : String) (before : List Expr) {e e' : Expr} (after : List Expr) :
      Renames x y e e' →
        Renames x y (call name (before ++ e :: after)) (call name (before ++ e' :: after))
  | item (before : List Expr) {e e' : Expr} (after : List Expr) :
      Renames x y e e' → Renames x y (array (before ++ e :: after)) (array (before ++ e' :: after))
  | target {e e' : Expr} (position : Expr) :
      Renames x y e e' → Renames x y (.index e position) (.index e' position)
  | position (target : Expr) {e e' : Expr} :
      Renames x y e e' → Renames x y (.index target e) (.index target e')

section

variable {x y : String} {bs : Binders} {params params' : List String}

theorem Becomes.refl (x y z : String) : Becomes x y z z := .inl rfl

/-- Other names are the same on both sides of parameters of which some are renamed. -/
theorem match_of_ne (hparams : List.Forall₂ (Becomes x y) params params') {z : String}
    (hzx : z ≠ x) (hzy : z ≠ y) (h : bs.Match z z) :
    (Binders.ofParams params params' ++ bs).Match z z := by
  refine .of_same (fun p hp => ?_) (.inr h)
  rcases Binders.mem_ofParams hparams p hp with heq | ⟨hx, hy⟩
  · rw [heq]
  · exact ⟨fun hz => absurd (hz.symm.trans hx) hzx, fun hz => absurd (hz.symm.trans hy) hzy⟩

/-- Where the last parameter `x` is renamed, `x` is what `y` is on the other side. -/
theorem match_renamed (hparams : List.Forall₂ (Becomes x y) params params') (hy : y ∉ params)
    (h : (Binders.ofParams params params').lookup x = some y) :
    (Binders.ofParams params params' ++ bs).Match x y := by
  refine .of_lookup (fun p hp hpy => ?_) h
  rcases Binders.mem_ofParams hparams p hp with heq | ⟨hx, -⟩
  · have hmem := (Binders.ofParams_fst hparams).1 (List.mem_map_of_mem hp)
    exact absurd (hpy ▸ heq ▸ hmem) hy
  · exact hx

/-- Where it is not renamed, `x` is the same on both sides. -/
theorem match_kept (hparams : List.Forall₂ (Becomes x y) params params')
    (h : (Binders.ofParams params params').lookup x ≠ some y) (hx : bs.Match x x) :
    (Binders.ofParams params params' ++ bs).Match x x := by
  have hback : ∀ p ∈ Binders.ofParams params params', p.2 = x → p.1 = x := by
    intro p hp hpx
    rcases Binders.mem_ofParams hparams p hp with heq | ⟨hpx', -⟩
    · exact heq.trans hpx
    · exact hpx'
  cases hlookup : (Binders.ofParams params params').lookup x with
  | none =>
    have hfirst : ∀ p ∈ Binders.ofParams params params', p.1 ≠ x := fun p hp hpx =>
      bne_iff_ne.1 (List.lookup_eq_none_iff.1 hlookup p hp) hpx.symm
    exact .of_not_mem (fun p hp => ⟨hfirst p hp, fun hpx => hfirst p hp (hback p hp hpx)⟩) hx
  | some b =>
    obtain ⟨before, after, heq, -⟩ := List.lookup_eq_some_iff.1 hlookup
    have hmem : (x, b) ∈ Binders.ofParams params params' := by simp [heq]
    rcases Binders.mem_ofParams hparams _ hmem with hb | ⟨-, hb⟩
    · exact .of_lookup hback (hlookup.trans (congrArg some hb.symm))
    · exact absurd (hlookup.trans (congrArg some hb)) h

theorem AlphaAll.among {named : String → String → Prop} (hnamed : ∀ z, named z z)
    (before : List Expr) {e e' : Expr} (after : List Expr)
    (hbefore : ∀ z ∈ namesAll before, bs.Match z z) (he : Alpha named bs e e')
    (hafter : ∀ z ∈ namesAll after, bs.Match z z) :
    AlphaAll named bs (before ++ e :: after) (before ++ e' :: after) := by
  induction before with
  | nil => exact .cons he (.refl hnamed after hafter)
  | cons first rest ih =>
    refine .cons (.refl hnamed first fun z hz => hbefore z (List.mem_append_left _ hz)) (ih ?_)
    exact fun z hz => hbefore z (List.mem_append_right _ hz)

theorem mem_namesAll_append {z : String} {before after : List Expr} :
    z ∈ namesAll (before ++ after) ↔ z ∈ namesAll before ∨ z ∈ namesAll after := by
  induction before with
  | nil => simp [namesAll]
  | cons first rest ih => simp [namesAll, ih, or_assoc]

/-- It differs in the names of parameters only. -/
theorem Renames.alpha {e e' : Expr} (h : Renames x y e e') (hy : y ∉ e.names)
    (hself : ∀ z ∈ e.names, bs.Match z z) : Alpha (Becomes x y) bs e e' := by
  have hnamed := Becomes.refl x y
  induction h generalizing bs with
  | @parameter params params' body hparams =>
    simp only [names, List.mem_append, not_or] at hy hself
    have hother : ∀ z ∈ body.names, z ≠ x →
        (Binders.ofParams params params' ++ bs).Match z z := fun z hz hzx =>
      match_of_ne hparams hzx (fun hzy => hy.2 (hzy ▸ hz)) (hself z (.inr hz))
    refine .lambda hparams ?_
    -- an earlier parameter `x` binds nothing if the last one keeps the name
    split
    next hlast => exact Alpha.rename hnamed body (match_renamed hparams hy.1 hlast) hother hy.2
    next hlast =>
      refine Alpha.refl hnamed body fun z hz => ?_
      by_cases hzx : z = x
      · subst hzx
        exact match_kept hparams hlast (hself z (.inr hz))
      · exact hother z hz hzx
  | body params _ ih =>
    simp only [names, List.mem_append, not_or] at hy hself
    exact .lambda (List.forall₂_same.2 fun z _ => hnamed z)
      (ih hy.2 fun z hz => .of_self (.inr (hself z (.inr hz))))
  | operand op _ ih => exact .unary op (ih hy hself)
  | left op right _ ih =>
    simp only [names, List.mem_append, not_or] at hy hself
    exact .binary op (ih hy.1 fun z hz => hself z (.inl hz))
      (.refl hnamed right fun z hz => hself z (.inr hz))
  | right op left _ ih =>
    simp only [names, List.mem_append, not_or] at hy hself
    exact .binary op (.refl hnamed left fun z hz => hself z (.inl hz))
      (ih hy.2 fun z hz => hself z (.inr hz))
  | argument name before after _ ih =>
    simp only [names, mem_namesAll_append, namesAll, List.mem_append, not_or] at hy hself
    exact .call name (.among hnamed before after (fun z hz => hself z (.inl hz))
      (ih hy.2.1 fun z hz => hself z (.inr (.inl hz))) fun z hz => hself z (.inr (.inr hz)))
  | item before after _ ih =>
    simp only [names, mem_namesAll_append, namesAll, List.mem_append, not_or] at hy hself
    exact .array (.among hnamed before after (fun z hz => hself z (.inl hz))
      (ih hy.2.1 fun z hz => hself z (.inr (.inl hz))) fun z hz => hself z (.inr (.inr hz)))
  | target position _ ih =>
    simp only [names, List.mem_append, not_or] at hy hself
    exact .index (ih hy.1 fun z hz => hself z (.inl hz))
      (.refl hnamed position fun z hz => hself z (.inr hz))
  | position target _ ih =>
    simp only [names, List.mem_append, not_or] at hy hself
    exact .index (.refl hnamed target fun z hz => hself z (.inl hz))
      (ih hy.2 fun z hz => hself z (.inr hz))

end

end Expr

/-! ## Paths into the value of a parameter -/

namespace Path

/-- Two paths of the same steps lead to the same value, or each of them nowhere. -/
theorem step_cases (path path' : Path) (columns : List Column) (segment : Segment) (v : Value) :
    path.step columns segment v = path'.step columns segment v ∨
      path.step columns segment v = .error path.dangling ∧
        path'.step columns segment v = .error path'.dangling := by
  unfold step
  split
  · split
    · exact .inl rfl
    · exact .inr ⟨rfl, rfl⟩
  · exact .inr ⟨rfl, rfl⟩
  · split
    · exact .inl rfl
    · exact .inr ⟨rfl, rfl⟩
  · split
    · exact .inl rfl
    · exact .inr ⟨rfl, rfl⟩
  · exact .inl rfl
  · exact .inr ⟨rfl, rfl⟩

theorem follow_cases (path path' : Path) (columns : List Column) (segments : List Segment)
    (v : Value) :
    path.follow columns segments v = path'.follow columns segments v ∨
      path.follow columns segments v = .error path.dangling ∧
        path'.follow columns segments v = .error path'.dangling := by
  induction segments generalizing columns v with
  | nil => exact .inl rfl
  | cons segment rest ih =>
    rw [follow, follow]
    rcases step_cases path path' columns segment v with heq | ⟨heq, heq'⟩
    · rw [heq]
      cases path'.step columns segment v with
      | error fault => exact .inl rfl
      | ok w => exact ih (columnsAfter columns segment) w
    · rw [heq, heq']
      exact .inr ⟨rfl, rfl⟩

theorem select_renamed (x y : String) (segments : List Segment) (v : Value) :
    (⟨x, segments⟩ : Path).select [] v = (⟨y, segments⟩ : Path).select [] v ∨
      (⟨x, segments⟩ : Path).select [] v = .error (dangling ⟨x, segments⟩) ∧
        (⟨y, segments⟩ : Path).select [] v = .error (dangling ⟨y, segments⟩) := by
  unfold select
  cases v.toResult with
  | error fault => exact .inl rfl
  | ok w => exact follow_cases ⟨x, segments⟩ ⟨y, segments⟩ [] segments w

end Path

/-! ## Runs -/

namespace Evaluation

variable {α σ : Type} (x y : String)

/-- Results that are one, or faults of a path that leads nowhere from the one name and from
the other. -/
def SameUpTo (r r' : Except Stop α) : Prop :=
  r = r' ∨ ∃ segments : List Segment, r = .error (.raised (Path.dangling ⟨x, segments⟩)) ∧
    r' = .error (.raised (Path.dangling ⟨y, segments⟩))

/-- Evaluations that differ only in the name that the fault of a path shows. -/
inductive Retold : Evaluation α → Evaluation α → Prop
  | done (a : α) : Retold (done a) (done a)
  | stop (reason : Stop) : Retold (stop reason) (stop reason)
  | dangling (segments : List Segment) :
      Retold (raise (Path.dangling ⟨x, segments⟩)) (raise (Path.dangling ⟨y, segments⟩))
  | ask (path : Path) (depth : Nat) {next next' : Value → Evaluation α} :
      (∀ v, Retold (next v) (next' v)) → Retold (ask path depth next) (ask path depth next')

variable {x y}

namespace Retold

theorem bind {β : Type} {u v : Evaluation α} {f g : α → Evaluation β} (h : Retold x y u v)
    (hfg : ∀ a, Retold x y (f a) (g a)) : Retold x y (u.bind f) (v.bind g) := by
  induction h with
  | done a => exact hfg a
  | stop reason => exact .stop reason
  | dangling segments => exact .dangling segments
  | ask path depth _ ih => exact .ask path depth ih

/-- They end in the same state, and with the same result up to that name. -/
theorem run {u v : Evaluation α} (h : Retold x y u v) (answer : Path → Nat → σ → Result × σ)
    (s : σ) :
    SameUpTo x y (u.run answer s).1 (v.run answer s).1 ∧
      (u.run answer s).2 = (v.run answer s).2 := by
  induction h generalizing s with
  | done a => exact ⟨.inl rfl, rfl⟩
  | stop reason => exact ⟨.inl rfl, rfl⟩
  | dangling segments => exact ⟨.inr ⟨segments, rfl, rfl⟩, rfl⟩
  | ask path depth _ ih =>
    rw [Evaluation.run, Evaluation.run]
    cases answer path depth s with
    | mk reply s' =>
      cases reply with
      | ok w => exact ih w s'
      | error fault => exact ⟨.inl rfl, rfl⟩

end Retold

variable (x y)

/-- Evaluations that are retold, as a relation that functions keep. -/
def retelling : Congruence where
  rel := Retold x y
  done := .done
  raise fault := .stop (.raised fault)
  bind := .bind

theorem retold_select {a b : String} (h : Expr.Becomes x y a b) (segments : List Segment)
    (v : Value) :
    Retold x y (ofResult ((⟨a, segments⟩ : Path).select [] v))
      (ofResult ((⟨b, segments⟩ : Path).select [] v)) := by
  rcases h with rfl | ⟨rfl, rfl⟩
  · exact Congruence.ofResult (R := retelling x y) _
  · rcases Path.select_renamed a b segments v with heq | ⟨heq, heq'⟩
    · rw [heq]
      exact Congruence.ofResult (R := retelling a b) _
    · rw [heq, heq']
      exact .dangling segments

def retellingLevels (limit : Nat) :
    (retelling x y).Levels limit limit (Expr.Becomes x y) fun _ => True :=
  .same (fun path depth _ => .ask path depth fun v =>
      Congruence.ofResult (R := retelling x y) v.toResult)
    (.stop _) (retold_select x y)

end Evaluation

namespace Expr

open Evaluation

variable {σ : Type} {x y : String}

/-- **Main result.** An expression in which a parameter has become a name that was not in
use has the same references.  Under every source of answers it has the same result up to
that name in the fault of a path, asks the same questions in the same order, and leaves the
source in the same state. -/
theorem eval_renamed {e e' : Expr} (h : Renames x y e e') (hy : y ∉ e.names) :
    e.references = e'.references ∧
      ∀ (setting : Setting) (depth : Nat) (answer : Path → Nat → σ → Result × σ) (s : σ),
        SameUpTo x y ((e.eval setting depth []).run answer s).1
          ((e'.eval setting depth []).run answer s).1 ∧
        (e.eval setting depth []).lookups answer s = (e'.eval setting depth []).lookups answer s ∧
        ((e.eval setting depth []).run answer s).2 =
          ((e'.eval setting depth []).run answer s).2 := by
  have halpha : Alpha (Becomes x y) [] e e' := h.alpha hy fun z _ => .free z
  constructor
  · exact congrArg NameSet.ofList (halpha.freeRoots_eq e (by simp) (by simp))
  · intro setting depth answer s
    have hretold : Retold x y (e.eval setting depth []) (e'.eval setting depth []) :=
      eval_alpha (retellingLevels x y setting.limit) e halpha rfl (.outer [])
        (fun _ hx => absurd hx List.not_mem_nil : Scope.Binds [] []) fun _ _ => trivial
    obtain ⟨hresult, hstate⟩ := hretold.run answer s
    exact ⟨hresult, congrArg Prod.snd (hretold.run (recording answer) (s, [])).2, hstate⟩

/-- The place of each element of `xs` beside the elements of `ys`.  Both parameters of the
outer lambda may have one name, and the inner lambda has a parameter `x` of its own. -/
def placing (place : String) : Expr :=
  .call "map" [.reference (.field "xs"), .lambda ["x", place] (.array [.reference (.field place),
    .call "map" [.reference (.field "ys"), .lambda ["x"] (.reference (.field "x"))]])]

/-- The second parameter becomes `i`, which the first and that of the inner lambda do not. -/
theorem eval_renamed_placing :
    Renames "x" "i" (placing "x") (placing "i") ∧ "i" ∉ (placing "x").names ∧
      (placing "x").references = (placing "i").references ∧
      SameUpTo "x" "i"
        (((placing "x").eval ⟨8, ⟨0, 0⟩⟩ 0 []).run
          (steady (shadowed (.array [.count 3, .count 4]))) ()).1
        (((placing "i").eval ⟨8, ⟨0, 0⟩⟩ 0 []).run
          (steady (shadowed (.array [.count 3, .count 4]))) ()).1 ∧
      (((placing "x").eval ⟨8, ⟨0, 0⟩⟩ 0 []).run
        (steady (shadowed (.array [.count 3, .count 4]))) ()).1 =
          .ok (.array [.array [.count 0, .array [.count 3, .count 4]],
            .array [.count 1, .array [.count 3, .count 4]]]) := by
  have hrenames : Renames "x" "i" (placing "x") (placing "i") :=
    .argument "map" [_] [] (.parameter _ (.cons (.inl rfl) (.cons (.inr ⟨rfl, rfl⟩) .nil)))
  have hfresh : "i" ∉ (placing "x").names := by decide
  obtain ⟨hreferences, hruns⟩ := eval_renamed hrenames hfresh
  obtain ⟨hresult, -, -⟩ := hruns ⟨8, ⟨0, 0⟩⟩ 0 (steady (shadowed (.array [.count 3, .count 4]))) ()
  exact ⟨hrenames, hfresh, hreferences, hresult, by rfl⟩

end Expr
end Formulary
