/-
  Expressions ask for the fields that they refer to.

  * `Congruence.Levels`: a relation of evaluations at different depths;
  * `Expr.eval_alpha`, `Expr.eval_related`: at related depths expressions that differ in
    the names of parameters have related evaluations, and so has an expression;
  * `Expr.eval_asks`: an expression asks only for roots of its references;
  * `Expr.Timeless`, `Expr.eval_timeless`: an expression without `now` does not
    depend on the time.
-/
import Formulary.Expr.Eval
import Formulary.Proofs.Alpha
import Formulary.Proofs.Questions
import Formulary.Proofs.Uniform

namespace Formulary

/-! ## Scopes -/

theorem Frame.lookup?_zip {params : List String} {values : List Value} {name : String}
    (hmem : name ∈ params) (hlen : params.length ≤ values.length) :
    (Frame.lookup? name (params.zip values)).isSome := by
  have hkeys : name ∈ ((params.zip values).reverse).map Prod.fst := by
    rw [List.map_reverse, List.mem_reverse, List.map_fst_zip hlen]
    exact hmem
  obtain ⟨⟨found, v⟩, hpair, rfl⟩ := List.mem_map.1 hkeys
  rw [Frame.lookup?, List.lookup_isSome_iff]
  exact ⟨(found, v), hpair, beq_self_eq_true found⟩

theorem Scope.lookup?_cons {scope : Scope} {frame : Frame} {name : String}
    (h : (Frame.lookup? name frame).isSome ∨ (scope.lookup? name).isSome) :
    (Scope.lookup? name (frame :: scope)).isSome := by
  rw [Scope.lookup?, List.findSome?_cons]
  cases hf : Frame.lookup? name frame with
  | some v => rfl
  | none => simpa [hf, Scope.lookup?] using h

/-- A scope binds every one of some names. -/
def Scope.Binds (scope : Scope) (bound : List String) : Prop :=
  ∀ name ∈ bound, (scope.lookup? name).isSome

theorem Scope.Binds.frame {scope : Scope} {bound params : List String} {values : List Value}
    (h : scope.Binds bound) (hlen : params.length ≤ values.length) :
    Scope.Binds (params.zip values :: scope) (params ++ bound) := by
  intro name hname
  refine Scope.lookup?_cons ?_
  rcases List.mem_append.1 hname with hp | hb
  · exact .inl (Frame.lookup?_zip hp hlen)
  · exact .inr (h name hb)

/-! ## Related evaluations of an expression -/

/-- Depths below two limits, and names of parameters, at which expressions have related
evaluations, if they refer only to roots of some kind. -/
structure Congruence.Levels (R : Congruence) (limit limit' : Nat)
    (named : String → String → Prop) (kind : String → Prop) where
  near : Nat → Nat → Prop
  succ : ∀ {d d' : Nat}, near d d' → near (d + 1) (d' + 1)
  ask : ∀ {d d' : Nat} (path : Path), near d d' → kind path.root →
    R.rel (.field path d) (.field path d')
  /-- Below the limit on the left side, both sides go on. -/
  enter : ∀ {d d' : Nat} {x y : Evaluation Value}, near d d' → R.rel x y →
    R.rel (if limit ≤ d then .stop (.tooDeep limit) else x)
      (if limit' ≤ d' then .stop (.tooDeep limit') else y)
  /-- The value of a parameter under its two names. -/
  select : ∀ {x y : String}, named x y → ∀ (segments : List Segment) (v : Value),
    R.rel (.ofResult ((⟨x, segments⟩ : Path).select [] v))
      (.ofResult ((⟨y, segments⟩ : Path).select [] v))

namespace Congruence

variable {R : Congruence} {limit : Nat} {named : String → String → Prop} {kind : String → Prop}

theorem select_self {x y : String} (h : x = y) (segments : List Segment) (v : Value) :
    R.rel (.ofResult ((⟨x, segments⟩ : Path).select [] v))
      (.ofResult ((⟨y, segments⟩ : Path).select [] v)) := by
  subst h
  exact ofResult _

/-- The same depth on both sides. -/
def Levels.same
    (ask : ∀ (path : Path) (d : Nat), kind path.root → R.rel (.field path d) (.field path d))
    (stop : R.rel (α := Value) (.stop (.tooDeep limit)) (.stop (.tooDeep limit)))
    (select : ∀ {x y : String}, named x y → ∀ (segments : List Segment) (v : Value),
      R.rel (.ofResult ((⟨x, segments⟩ : Path).select [] v))
        (.ofResult ((⟨y, segments⟩ : Path).select [] v))) :
    R.Levels limit limit named kind where
  near := Eq
  succ := congrArg (· + 1)
  ask := by
    rintro d _ path rfl hpath
    exact ask path d hpath
  enter := by
    rintro d _ x y rfl hxy
    split
    · exact stop
    · exact hxy
  select := select

end Congruence

namespace Expr

section

variable {R : Congruence} {limit limit' : Nat} {clock : Instant} {named : String → String → Prop}
  {kind : String → Prop} (L : R.Levels limit limit' named kind)

theorem evalReference_alpha {bs : Binders} {d d' : Nat} {scope scope' : Scope}
    {bound : List String} {x y : String} {segments : List Segment} (hmatch : bs.Match x y)
    (hd : L.near d d') (hvalues : scope.SameValues named bs scope') (hscope : scope.Binds bound)
    (hroots : ∀ z ∈ freeRoots bound (.reference ⟨x, segments⟩), kind z) :
    R.rel (evalReference d scope ⟨x, segments⟩) (evalReference d' scope' ⟨y, segments⟩) := by
  obtain ⟨hsame, hfree⟩ := hvalues.lookup? hmatch
  unfold evalReference
  dsimp only
  rw [← hsame]
  cases hlookup : scope.lookup? x with
  | some v =>
    rcases hmatch.eq_or_mem with rfl | hmem
    · exact Congruence.ofResult _
    · exact L.select (hvalues.named _ hmem) segments v
  | none =>
    obtain rfl := hfree hlookup
    refine L.ask ⟨x, segments⟩ hd (hroots x ?_)
    have hx : x ∉ bound := fun h => by simpa [hlookup] using hscope x h
    simp [freeRoots, hx]

mutual

/-- At related depths expressions that differ in the names of parameters have related
evaluations, in scopes of the same values. -/
theorem eval_alpha {bs : Binders} {d d' : Nat} {scope scope' : Scope} {bound : List String}
    (e : Expr) {e' : Expr} (he : Alpha named bs e e') (hd : L.near d d')
    (hvalues : scope.SameValues named bs scope') (hscope : scope.Binds bound)
    (hroots : ∀ x ∈ freeRoots bound e, kind x) :
    R.rel (eval ⟨limit, clock⟩ d scope e) (eval ⟨limit', clock⟩ d' scope' e') := by
  rw [eval.eq_def, eval.eq_def]
  refine L.enter hd ?_
  have hd' := L.succ hd
  cases e with
  | literal v =>
    cases he
    exact R.done v
  | reference path =>
    cases he with
    | reference segments hmatch =>
      exact evalReference_alpha L hmatch hd' hvalues hscope hroots
  | unary op operand =>
    cases he with
    | unary _ he =>
      exact R.bind (eval_alpha operand he hd' hvalues hscope hroots) fun v =>
        Congruence.ofResult _
  | binary op left right =>
    cases he with
    | binary _ hleft hright =>
      have hl := eval_alpha left hleft hd' hvalues hscope fun x hx =>
        hroots x (List.mem_append_left _ hx)
      have hr := eval_alpha right hright hd' hvalues hscope fun x hx =>
        hroots x (List.mem_append_right _ hx)
      cases op with
      | and =>
        refine R.bind hl fun v => ?_
        split
        · exact R.bind hr fun w => R.done _
        · exact R.done _
      | or =>
        refine R.bind hl fun v => ?_
        split
        · exact R.done _
        · exact R.bind hr fun w => R.done _
      | _ => exact R.bind hl fun v => R.bind hr fun w => Congruence.ofResult _
  | call name args =>
    cases he with
    | call _ hargs =>
      exact Congruence.call clock name (arguments_alpha args hargs hd' hvalues hscope hroots)
  | array items =>
    cases he with
    | array hitems =>
      exact R.bind (evalAll_alpha items hitems hd' hvalues hscope hroots) fun vs => R.done _
  | index target position =>
    cases he with
    | index htarget hposition =>
      have ht := eval_alpha target htarget hd' hvalues hscope fun x hx =>
        hroots x (List.mem_append_left _ hx)
      have hp := eval_alpha position hposition hd' hvalues hscope fun x hx =>
        hroots x (List.mem_append_right _ hx)
      exact R.bind ht fun v => R.bind hp fun w => Congruence.ofResult _
  | lambda params body =>
    cases he
    exact R.raise _

theorem evalAll_alpha {bs : Binders} {d d' : Nat} {scope scope' : Scope} {bound : List String}
    (es : List Expr) {es' : List Expr} (hes : AlphaAll named bs es es') (hd : L.near d d')
    (hvalues : scope.SameValues named bs scope') (hscope : scope.Binds bound)
    (hroots : ∀ x ∈ freeRootsAll bound es, kind x) :
    R.rel (evalAll ⟨limit, clock⟩ d scope es) (evalAll ⟨limit', clock⟩ d' scope' es') := by
  cases es with
  | nil =>
    cases hes
    exact R.done []
  | cons e rest =>
    cases hes with
    | cons he hrest =>
      rw [evalAll, evalAll]
      have hv := eval_alpha e he hd hvalues hscope fun x hx => hroots x (List.mem_append_left _ hx)
      have hvs := evalAll_alpha rest hrest hd hvalues hscope fun x hx =>
        hroots x (List.mem_append_right _ hx)
      exact R.bind hv fun v => R.bind hvs fun vs => R.done _

theorem arguments_alpha {bs : Binders} {d d' : Nat} {scope scope' : Scope}
    {bound : List String} (es : List Expr) {es' : List Expr} (hes : AlphaAll named bs es es')
    (hd : L.near d d') (hvalues : scope.SameValues named bs scope') (hscope : scope.Binds bound)
    (hroots : ∀ x ∈ freeRootsAll bound es, kind x) :
    R.Arguments (arguments ⟨limit, clock⟩ d scope es)
      (arguments ⟨limit', clock⟩ d' scope' es') := by
  cases es with
  | nil =>
    cases hes
    exact .nil
  | cons e rest =>
    cases hes with
    | cons he hrest =>
      rw [arguments, arguments]
      have hhead : ∀ x ∈ freeRoots bound e, kind x := fun x hx =>
        hroots x (List.mem_append_left _ hx)
      refine .cons ⟨eval_alpha e he hd hvalues hscope hhead, ?_⟩ <|
        arguments_alpha rest hrest hd hvalues hscope fun x hx =>
          hroots x (List.mem_append_right _ hx)
      -- only a lambda has a second part, and each call puts its values on both scopes
      cases e with
      | lambda params body =>
        cases he with
        | lambda hparams hbody =>
          refine .some ⟨hparams.length_eq, fun values hlen => ?_⟩
          exact eval_alpha body hbody hd (hvalues.frame hparams hlen) (hscope.frame hlen) hhead
      | _ =>
        cases he
        exact .none

end

end

/-- At related depths an expression has related evaluations. -/
theorem eval_related {R : Congruence} {limit limit' : Nat} {clock : Instant}
    {kind : String → Prop} (L : R.Levels limit limit' Eq kind) {d d' : Nat} {scope : Scope}
    {bound : List String} (e : Expr) (hd : L.near d d') (hscope : scope.Binds bound)
    (hroots : ∀ x ∈ freeRoots bound e, kind x) :
    R.rel (eval ⟨limit, clock⟩ d scope e) (eval ⟨limit', clock⟩ d' scope e) :=
  eval_alpha L e (Alpha.refl (fun _ => rfl) e fun x _ => .free x) hd (.outer scope) hscope hroots

/-! ## Questions of an expression -/

/-- Evaluations that are one, and ask for roots of some kind only. -/
def askingFor (kind : String → Prop) : Congruence where
  rel x y := x = y ∧ x.Asks fun path => kind path.root
  done a := ⟨rfl, .done a⟩
  raise fault := ⟨rfl, .stop (.raised fault)⟩
  bind := by
    rintro α β x y f g ⟨rfl, hx⟩ hfg
    obtain rfl : f = g := funext fun a => (hfg a).1
    exact ⟨rfl, hx.bind fun a => (hfg a).2⟩

def askingLevels (limit : Nat) (kind : String → Prop) :
    (askingFor kind).Levels limit limit Eq kind :=
  .same (fun _ d hpath => ⟨rfl, .ask hpath d fun _ =>
      (Congruence.ofResult (R := askingFor kind) _).2⟩)
    ⟨rfl, .stop _⟩ Congruence.select_self

/-- An expression asks only for roots of its references. -/
theorem eval_asks (setting : Setting) (depth : Nat) (e : Expr) :
    (eval setting depth [] e).Asks fun path => path.root ∈ e.references := by
  refine (eval_related (askingLevels setting.limit (· ∈ e.references)) e (d := depth) rfl
    (fun _ h => absurd h List.not_mem_nil : Scope.Binds [] []) fun x hx => ?_).2
  exact NameSet.mem_ofList.2 hx

/-! ## Time -/

mutual

/-- Whether an expression calls the function of a name in lower case. -/
def calls (lower : String) : Expr → Bool
  | literal _ | reference _ => false
  | unary _ operand => calls lower operand
  | binary _ left right => calls lower left || calls lower right
  | call name args => Text.lower name == lower || callsAny lower args
  | array items => callsAny lower items
  | .index target position => calls lower target || calls lower position
  | lambda _ body => calls lower body

def callsAny (lower : String) : List Expr → Bool
  | [] => false
  | e :: rest => calls lower e || callsAny lower rest

end

/-- An expression does not call `now`. -/
def Timeless (e : Expr) : Prop := calls (Text.lower "now") e = false

theorem find?_timeless (clock clock' : Instant) {name : String}
    (h : (Text.lower name == Text.lower "now") = false) :
    Functions.find? clock name = Functions.find? clock' name := by
  have hnow (clock : Instant) :
      (Text.lower (Functions.nowFunction clock).name == Text.lower name) = false := by
    rw [BEq.comm]
    exact h
  simp only [Functions.find?, Functions.catalog, Functions.dates, List.find?_append,
    List.find?_cons, hnow]

section

variable {limit : Nat} {clock clock' : Instant}

mutual

/-- An expression that does not call `now` does not depend on the time. -/
theorem eval_timeless {depth : Nat} {scope : Scope} (e : Expr) (h : e.Timeless) :
    eval ⟨limit, clock⟩ depth scope e = eval ⟨limit, clock'⟩ depth scope e := by
  rw [eval.eq_def, eval.eq_def]
  congr 1
  cases e with
  | literal v => rfl
  | reference path => rfl
  | unary op operand =>
    simp only [eval_timeless operand h]
  | binary op left right =>
    obtain ⟨hl, hr⟩ := Bool.or_eq_false_iff.1 h
    cases op <;> simp only [eval_timeless left hl, eval_timeless right hr]
  | call name args =>
    obtain ⟨hname, hargs⟩ := Bool.or_eq_false_iff.1 h
    simp only [Functions.call, find?_timeless clock clock' hname, arguments_timeless args hargs]
  | array items => simp only [evalAll_timeless items h]
  | index target position =>
    obtain ⟨ht, hp⟩ := Bool.or_eq_false_iff.1 h
    simp only [eval_timeless target ht, eval_timeless position hp]
  | lambda params body => rfl

theorem evalAll_timeless {depth : Nat} {scope : Scope} (es : List Expr)
    (h : callsAny (Text.lower "now") es = false) :
    evalAll ⟨limit, clock⟩ depth scope es = evalAll ⟨limit, clock'⟩ depth scope es := by
  cases es with
  | nil => rfl
  | cons e rest =>
    obtain ⟨he, hrest⟩ := Bool.or_eq_false_iff.1 h
    rw [evalAll, evalAll, eval_timeless e he, evalAll_timeless rest hrest]

theorem arguments_timeless {depth : Nat} {scope : Scope} (es : List Expr)
    (h : callsAny (Text.lower "now") es = false) :
    arguments ⟨limit, clock⟩ depth scope es = arguments ⟨limit, clock'⟩ depth scope es := by
  cases es with
  | nil => rfl
  | cons e rest =>
    obtain ⟨he, hrest⟩ := Bool.or_eq_false_iff.1 h
    have hlambda : lambda? ⟨limit, clock⟩ depth scope e =
        lambda? ⟨limit, clock'⟩ depth scope e := by
      cases e with
      | lambda params body =>
        refine congrArg some (congrArg (Lambda.mk params) (funext fun frame => ?_))
        exact eval_timeless body he
      | _ => rfl
    rw [arguments, arguments, eval_timeless e he, hlambda, arguments_timeless rest hrest]

end

end

end Expr
end Formulary
