/-
  Expressions that differ in the names of parameters.

  * `Binders.Match`: two names that one parameter binds on both sides, or that are one and
    not bound;
  * `Scope.SameValues`, `Scope.SameValues.lookup?`: scopes of lambdas that are called alike
    give such names the same value;
  * `Expr.Alpha`: expressions that differ in the names of parameters only;
  * `Expr.Alpha.refl`, `Expr.Alpha.rename`: an expression, and one in which references follow
    a parameter to a name that was not in use;
  * `Expr.Alpha.freeRoots_eq`: they refer to the same fields.
-/
import Formulary.Evaluation
import Formulary.Expr
import Mathlib.Data.List.Forall2
import Mathlib.Tactic.Common

namespace Formulary

/-! ## Names that are bound alike -/

/-- The parameters of the lambdas around a place of two expressions, the innermost and the
last of each first. -/
abbrev Binders := List (String × String)

namespace Binders

/-- The names are bound by one parameter, or neither of them is bound and they are one. -/
inductive Match : Binders → String → String → Prop
  | free (x : String) : Match [] x x
  | here (x y : String) (outer : Binders) : Match ((x, y) :: outer) x y
  | outer {a b x y : String} {outer : Binders} :
      a ≠ x → b ≠ y → Match outer x y → Match ((a, b) :: outer) x y

namespace Match

variable {inner outer : Binders} {x y : String}

theorem eq_or_mem (h : Match outer x y) : x = y ∨ (x, y) ∈ outer := by
  induction h with
  | free x => exact .inl rfl
  | here x y outer => exact .inr List.mem_cons_self
  | outer _ _ _ ih => exact ih.imp_right (List.mem_cons_of_mem _)

theorem mem_iff (h : Match outer x y) :
    x ∈ outer.map Prod.fst ↔ y ∈ outer.map Prod.snd := by
  induction h with
  | free x => simp
  | here x y outer => simp
  | outer ha hb _ ih => simp [ha.symm, hb.symm, ih]

theorem eq_of_not_mem (h : Match outer x y) (hx : x ∉ outer.map Prod.fst) : x = y :=
  h.eq_or_mem.resolve_right fun hmem => hx (List.mem_map_of_mem hmem)

theorem of_not_mem (hinner : ∀ p ∈ inner, p.1 ≠ x ∧ p.2 ≠ y) (h : Match outer x y) :
    Match (inner ++ outer) x y := by
  induction inner with
  | nil => exact h
  | cons p inner ih =>
    obtain ⟨⟨ha, hb⟩, hrest⟩ := List.forall_mem_cons.1 hinner
    exact .outer ha hb (ih hrest)

/-- The first parameter that is named `x` on one side is named `y` on the other. -/
theorem of_lookup (hback : ∀ p ∈ inner, p.2 = y → p.1 = x) (h : inner.lookup x = some y) :
    Match (inner ++ outer) x y := by
  induction inner with
  | nil => simp at h
  | cons p inner ih =>
    obtain ⟨a, b⟩ := p
    obtain ⟨hp, hrest⟩ := List.forall_mem_cons.1 hback
    rw [List.lookup_cons] at h
    by_cases ha : a = x
    · subst ha
      obtain rfl : b = y := by simpa using h
      exact .here a b _
    · have hne : (x == a) = false := beq_false_of_ne (Ne.symm ha)
      rw [hne] at h
      exact .outer ha (fun hb => ha (hp hb)) (ih hrest h)

/-- A name that every parameter has on both sides or on none. -/
theorem of_same (hinner : ∀ p ∈ inner, p.1 = x ↔ p.2 = x)
    (h : x ∈ inner.map Prod.fst ∨ Match outer x x) : Match (inner ++ outer) x x := by
  induction inner with
  | nil => exact h.resolve_left List.not_mem_nil
  | cons p inner ih =>
    obtain ⟨a, b⟩ := p
    obtain ⟨hp, hrest⟩ := List.forall_mem_cons.1 hinner
    by_cases ha : a = x
    · obtain rfl : b = x := hp.1 ha
      subst ha
      exact .here _ _ _
    · refine .outer ha (fun hb => ha (hp.2 hb)) (ih hrest (h.imp_left fun hmem => ?_))
      exact (List.mem_cons.1 hmem).resolve_left (Ne.symm ha)

end Match

/-- The parameters of two lambdas, the last first. -/
def ofParams (params params' : List String) : Binders := (params.zip params').reverse

section

variable {named : String → String → Prop} {params params' : List String}

theorem mem_ofParams (h : List.Forall₂ named params params') :
    ∀ p ∈ ofParams params params', named p.1 p.2 := by
  intro p hp
  exact (List.forall₂_iff_zip.1 h).2 (List.mem_reverse.1 hp)

theorem ofParams_fst (h : List.Forall₂ named params params') {x : String} :
    x ∈ (ofParams params params').map Prod.fst ↔ x ∈ params := by
  rw [ofParams, List.map_reverse, List.mem_reverse, List.map_fst_zip (Nat.le_of_eq h.length_eq)]

theorem ofParams_snd (h : List.Forall₂ named params params') {y : String} :
    y ∈ (ofParams params params').map Prod.snd ↔ y ∈ params' := by
  rw [ofParams, List.map_reverse, List.mem_reverse,
    List.map_snd_zip (Nat.le_of_eq h.length_eq.symm)]

theorem of_mem_ofParams_self {p : String × String} (h : p ∈ ofParams params params) :
    p.1 = p.2 ∧ p.1 ∈ params := by
  have hall : List.Forall₂ (fun a b => a = b) params params := List.forall₂_same.2 fun _ _ => rfl
  exact ⟨mem_ofParams hall p h, (ofParams_fst hall).1 (List.mem_map_of_mem h)⟩

/-- A name below a lambda that is the same on both sides. -/
theorem Match.of_self {outer : Binders} {x : String} (h : x ∈ params ∨ outer.Match x x) :
    Match (ofParams params params ++ outer) x x := by
  have hself : List.Forall₂ (fun a b => a = b) params params := List.forall₂_same.2 fun _ _ => rfl
  refine .of_same (fun p hp => ?_) (h.imp_left (ofParams_fst hself).2)
  rw [(of_mem_ofParams_self hp).1]

end

end Binders

/-! ## Scopes -/

namespace Scope

/-- Scopes of lambdas around a place that were called with the same values. -/
inductive SameValues (named : String → String → Prop) : Binders → Scope → Scope → Prop
  | outer (scope : Scope) : SameValues named [] scope scope
  | frame {params params' : List String} {values : List Value} {outer : Binders}
      {scope scope' : Scope} :
      List.Forall₂ named params params' → params.length ≤ values.length →
      SameValues named outer scope scope' →
        SameValues named (Binders.ofParams params params' ++ outer)
          (params.zip values :: scope) (params'.zip values :: scope')

theorem SameValues.named {named : String → String → Prop} {binders : Binders}
    {scope scope' : Scope} (h : SameValues named binders scope scope') :
    ∀ p ∈ binders, named p.1 p.2 := by
  induction h with
  | outer scope => exact nofun
  | frame hparams _ _ ih =>
    exact List.forall_mem_append.2 ⟨Binders.mem_ofParams hparams, ih⟩

/-- What a name that is bound alike has in frames of the same values. -/
theorem lookup_of_match {outer : Binders} {x y : String}
    (bindings : List ((String × String) × Value))
    (h : Binders.Match (bindings.map Prod.fst ++ outer) x y) :
    (∃ v, (bindings.map (Prod.map Prod.fst id)).lookup x = some v ∧
      (bindings.map (Prod.map Prod.snd id)).lookup y = some v) ∨
    (bindings.map (Prod.map Prod.fst id)).lookup x = none ∧
      (bindings.map (Prod.map Prod.snd id)).lookup y = none ∧ outer.Match x y := by
  induction bindings with
  | nil => exact .inr ⟨rfl, rfl, h⟩
  | cons b rest ih =>
    obtain ⟨⟨a, a'⟩, v⟩ := b
    cases h with
    | here => exact .inl ⟨v, by simp, by simp⟩
    | outer ha ha' h =>
      have hx : (x == a) = false := beq_false_of_ne (Ne.symm ha)
      have hy : (y == a') = false := beq_false_of_ne (Ne.symm ha')
      simpa [List.lookup_cons, hx, hy] using ih h

theorem lookup?_frame (name : String) (frame : Frame) (scope : Scope) :
    Scope.lookup? name (frame :: scope) =
      (frame.reverse.lookup name).or (scope.lookup? name) := by
  rw [Scope.lookup?, List.findSome?_cons, Frame.lookup?]
  cases frame.reverse.lookup name with
  | none => rfl
  | some v => rfl

/-- Names that are bound alike have the same value; if they have none, they are one. -/
theorem SameValues.lookup? {named : String → String → Prop} {binders : Binders}
    {scope scope' : Scope} {x y : String} (h : SameValues named binders scope scope')
    (hmatch : binders.Match x y) :
    scope.lookup? x = scope'.lookup? y ∧ (scope.lookup? x = none → x = y) := by
  induction h with
  | outer scope =>
    cases hmatch
    exact ⟨rfl, fun _ => rfl⟩
  | @frame params params' values outer scope scope' hparams hlen _ ih =>
    have hlen' : (params.zip params').length ≤ values.length := by
      rw [List.length_zip]
      omega
    have hpairs : Binders.ofParams params params' =
        ((params.zip params').zip values).reverse.map Prod.fst := by
      rw [Binders.ofParams, List.map_reverse, List.map_fst_zip hlen']
    have hframe : params.zip values =
        ((params.zip params').zip values).map (Prod.map Prod.fst id) := by
      rw [← List.zip_map_left, List.map_fst_zip (Nat.le_of_eq hparams.length_eq)]
    have hframe' : params'.zip values =
        ((params.zip params').zip values).map (Prod.map Prod.snd id) := by
      rw [← List.zip_map_left, List.map_snd_zip (Nat.le_of_eq hparams.length_eq.symm)]
    rw [hpairs] at hmatch
    rw [lookup?_frame, lookup?_frame, hframe, hframe', ← List.map_reverse, ← List.map_reverse]
    rcases lookup_of_match _ hmatch with ⟨v, hx, hy⟩ | ⟨hx, hy, houter⟩
    · rw [hx, hy]
      exact ⟨rfl, nofun⟩
    · rw [hx, hy]
      exact ih houter

end Scope

/-! ## Expressions -/

namespace Expr

mutual

/-- The names in an expression: the roots of its references, and parameters. -/
def names : Expr → List String
  | literal _ => []
  | reference path => [path.root]
  | unary _ operand => names operand
  | binary _ left right => names left ++ names right
  | call _ args => namesAll args
  | array items => namesAll items
  | .index target position => names target ++ names position
  | lambda params body => params ++ names body

def namesAll : List Expr → List String
  | [] => []
  | e :: rest => names e ++ namesAll rest

end

mutual

/-- References to `x` become references to `y`, other than below lambdas that bind `x`. -/
def rename (x y : String) : Expr → Expr
  | literal v => literal v
  | reference path => if path.root = x then reference { path with root := y } else reference path
  | unary op operand => unary op (rename x y operand)
  | binary op left right => binary op (rename x y left) (rename x y right)
  | call name args => call name (renameAll x y args)
  | array items => array (renameAll x y items)
  | .index target position => .index (rename x y target) (rename x y position)
  | lambda params body => lambda params (if x ∈ params then body else rename x y body)

def renameAll (x y : String) : List Expr → List Expr
  | [] => []
  | e :: rest => rename x y e :: renameAll x y rest

end

variable (named : String → String → Prop)

mutual

/-- Expressions that differ in the names of parameters only, where a parameter may have the
names that `named` tells.  A reference is to the same parameter, or to the same field. -/
inductive Alpha : Binders → Expr → Expr → Prop
  | literal (bs : Binders) (v : Value) : Alpha bs (.literal v) (.literal v)
  | reference {bs : Binders} {x y : String} (segments : List Segment) :
      bs.Match x y → Alpha bs (.reference ⟨x, segments⟩) (.reference ⟨y, segments⟩)
  | unary {bs : Binders} (op : UnaryOp) {e e' : Expr} :
      Alpha bs e e' → Alpha bs (.unary op e) (.unary op e')
  | binary {bs : Binders} (op : BinaryOp) {left left' right right' : Expr} :
      Alpha bs left left' → Alpha bs right right' →
        Alpha bs (.binary op left right) (.binary op left' right')
  | call {bs : Binders} (name : String) {args args' : List Expr} :
      AlphaAll bs args args' → Alpha bs (.call name args) (.call name args')
  | array {bs : Binders} {items items' : List Expr} :
      AlphaAll bs items items' → Alpha bs (.array items) (.array items')
  | index {bs : Binders} {target target' position position' : Expr} :
      Alpha bs target target' → Alpha bs position position' →
        Alpha bs (.index target position) (.index target' position')
  | lambda {bs : Binders} {params params' : List String} {body body' : Expr} :
      List.Forall₂ named params params' → Alpha (Binders.ofParams params params' ++ bs) body body' →
        Alpha bs (.lambda params body) (.lambda params' body')

inductive AlphaAll : Binders → List Expr → List Expr → Prop
  | nil (bs : Binders) : AlphaAll bs [] []
  | cons {bs : Binders} {e e' : Expr} {rest rest' : List Expr} :
      Alpha bs e e' → AlphaAll bs rest rest' → AlphaAll bs (e :: rest) (e' :: rest')

end

variable {named}

/-! ### An expression and itself -/

mutual

theorem Alpha.refl (hnamed : ∀ x, named x x) {bs : Binders} (e : Expr)
    (h : ∀ x ∈ e.names, bs.Match x x) : Alpha named bs e e := by
  cases e with
  | literal v => exact .literal bs v
  | reference path => exact .reference path.segments (h path.root List.mem_cons_self)
  | unary op operand => exact .unary op (Alpha.refl hnamed operand h)
  | binary op left right =>
    exact .binary op (Alpha.refl hnamed left fun x hx => h x (List.mem_append_left _ hx))
      (Alpha.refl hnamed right fun x hx => h x (List.mem_append_right _ hx))
  | call name args => exact .call name (AlphaAll.refl hnamed args h)
  | array items => exact .array (AlphaAll.refl hnamed items h)
  | index target position =>
    exact .index (Alpha.refl hnamed target fun x hx => h x (List.mem_append_left _ hx))
      (Alpha.refl hnamed position fun x hx => h x (List.mem_append_right _ hx))
  | lambda params body =>
    exact .lambda (List.forall₂_same.2 fun x _ => hnamed x) (Alpha.refl hnamed body fun x hx =>
      .of_self (.inr (h x (List.mem_append_right _ hx))))

theorem AlphaAll.refl (hnamed : ∀ x, named x x) {bs : Binders} (es : List Expr)
    (h : ∀ x ∈ namesAll es, bs.Match x x) : AlphaAll named bs es es := by
  cases es with
  | nil => exact .nil bs
  | cons e rest =>
    exact .cons (Alpha.refl hnamed e fun x hx => h x (List.mem_append_left _ hx))
      (AlphaAll.refl hnamed rest fun x hx => h x (List.mem_append_right _ hx))

end

/-! ### References that follow a parameter -/

section

variable {x y : String}

mutual

/-- Where `x` on one side is what `y` is on the other, and `y` was not in use. -/
theorem Alpha.rename (hnamed : ∀ z, named z z) {bs : Binders} (e : Expr) (hbs : bs.Match x y)
    (h : ∀ z ∈ e.names, z ≠ x → bs.Match z z) (hy : y ∉ e.names) :
    Alpha named bs e (e.rename x y) := by
  cases e with
  | literal v => exact .literal bs v
  | reference path =>
    obtain ⟨root, segments⟩ := path
    rw [Expr.rename]
    split
    next hroot =>
      obtain rfl : root = x := hroot
      exact .reference segments hbs
    next hroot => exact .reference segments (h root List.mem_cons_self hroot)
  | unary op operand => exact .unary op (Alpha.rename hnamed operand hbs h hy)
  | binary op left right =>
    simp only [names, List.mem_append, not_or] at h hy
    exact .binary op (Alpha.rename hnamed left hbs (fun z hz => h z (.inl hz)) hy.1)
      (Alpha.rename hnamed right hbs (fun z hz => h z (.inr hz)) hy.2)
  | call name args => exact .call name (AlphaAll.rename hnamed args hbs h hy)
  | array items => exact .array (AlphaAll.rename hnamed items hbs h hy)
  | index target position =>
    simp only [names, List.mem_append, not_or] at h hy
    exact .index (Alpha.rename hnamed target hbs (fun z hz => h z (.inl hz)) hy.1)
      (Alpha.rename hnamed position hbs (fun z hz => h z (.inr hz)) hy.2)
  | lambda params body =>
    simp only [names, List.mem_append, not_or] at h hy
    have hparams : List.Forall₂ named params params := List.forall₂_same.2 fun z _ => hnamed z
    have hsame : ∀ z ∈ body.names, z ∈ params ∨ z ≠ x →
        Binders.Match (Binders.ofParams params params ++ bs) z z :=
      fun z hz hzx => .of_self (hzx.imp_right (h z (.inr hz)))
    rw [Expr.rename]
    split
    next hx =>
      -- the references below are to the inner parameter, which is the same on both sides
      refine .lambda hparams (Alpha.refl hnamed body fun z hz => hsame z hz ?_)
      by_cases hzx : z = x
      · exact .inl (hzx ▸ hx)
      · exact .inr hzx
    next hx =>
      refine .lambda hparams (Alpha.rename hnamed body (.of_not_mem (fun p hp => ?_) hbs)
        (fun z hz hzx => hsame z hz (.inr hzx)) hy.2)
      obtain ⟨heq, hmem⟩ := Binders.of_mem_ofParams_self hp
      exact ⟨fun he => hx (he ▸ hmem), fun he => hy.1 (he ▸ heq ▸ hmem)⟩

theorem AlphaAll.rename (hnamed : ∀ z, named z z) {bs : Binders} (es : List Expr)
    (hbs : bs.Match x y) (h : ∀ z ∈ namesAll es, z ≠ x → bs.Match z z) (hy : y ∉ namesAll es) :
    AlphaAll named bs es (renameAll x y es) := by
  cases es with
  | nil => exact .nil bs
  | cons e rest =>
    simp only [namesAll, List.mem_append, not_or] at h hy
    exact .cons (Alpha.rename hnamed e hbs (fun z hz => h z (.inl hz)) hy.1)
      (AlphaAll.rename hnamed rest hbs (fun z hz => h z (.inr hz)) hy.2)

end

end

/-! ### References to fields -/

mutual

/-- They refer to the same fields, if the bound names are those of the parameters. -/
theorem Alpha.freeRoots_eq {bs : Binders} {bound bound' : List String} (e : Expr) {e' : Expr}
    (h : Alpha named bs e e') (hbound : ∀ x, x ∈ bound ↔ x ∈ bs.map Prod.fst)
    (hbound' : ∀ y, y ∈ bound' ↔ y ∈ bs.map Prod.snd) :
    freeRoots bound e = freeRoots bound' e' := by
  cases e with
  | literal v =>
    cases h
    rfl
  | reference path =>
    cases h with
    | @reference _ x y segments hmatch =>
      have hiff : x ∈ bound ↔ y ∈ bound' := by rw [hbound, hbound', hmatch.mem_iff]
      simp only [freeRoots, hiff]
      split
      · rfl
      next hy => rw [hmatch.eq_of_not_mem fun hx => hy (hiff.1 ((hbound x).2 hx))]
  | unary op operand =>
    cases h with
    | unary _ h => rw [freeRoots, freeRoots, Alpha.freeRoots_eq operand h hbound hbound']
  | binary op left right =>
    cases h with
    | binary _ hl hr =>
      rw [freeRoots, freeRoots, Alpha.freeRoots_eq left hl hbound hbound',
        Alpha.freeRoots_eq right hr hbound hbound']
  | call name args =>
    cases h with
    | call _ h => exact AlphaAll.freeRootsAll_eq args h hbound hbound'
  | array items =>
    cases h with
    | array h => exact AlphaAll.freeRootsAll_eq items h hbound hbound'
  | index target position =>
    cases h with
    | index ht hp =>
      rw [freeRoots, freeRoots, Alpha.freeRoots_eq target ht hbound hbound',
        Alpha.freeRoots_eq position hp hbound hbound']
  | lambda params body =>
    cases h with
    | lambda hparams h =>
      rw [freeRoots, freeRoots]
      refine Alpha.freeRoots_eq body h (fun x => ?_) fun y => ?_
      · rw [List.mem_append, List.map_append, List.mem_append, Binders.ofParams_fst hparams,
          hbound]
      · rw [List.mem_append, List.map_append, List.mem_append, Binders.ofParams_snd hparams,
          hbound']

theorem AlphaAll.freeRootsAll_eq {bs : Binders} {bound bound' : List String} (es : List Expr)
    {es' : List Expr} (h : AlphaAll named bs es es')
    (hbound : ∀ x, x ∈ bound ↔ x ∈ bs.map Prod.fst)
    (hbound' : ∀ y, y ∈ bound' ↔ y ∈ bs.map Prod.snd) :
    freeRootsAll bound es = freeRootsAll bound' es' := by
  cases es with
  | nil =>
    cases h
    rfl
  | cons e rest =>
    cases h with
    | cons h hrest =>
      rw [freeRootsAll, freeRootsAll, Alpha.freeRoots_eq e h hbound hbound',
        AlphaAll.freeRootsAll_eq rest hrest hbound hbound']

end

end Expr
end Formulary
