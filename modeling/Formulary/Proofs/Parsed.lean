/-
  What holds of all expressions that texts denote.

  * `Gives`: what holds of a result, if there is one;
  * `Expr.Inductive`: a property of expressions that their parts hand on;
  * `Derives.inductive`, `Expr.ofText_inductive`: an inductive property holds of every tree
    that tokens derive, and so of every expression that a text denotes.
-/
import Formulary.Proofs.Derived

namespace Formulary

/-! ## Results -/

/-- A result, if there is one, is of some sort. -/
def Gives {ε α : Type} (good : α → Prop) (r : Except ε α) : Prop := ∀ a, r = .ok a → good a

namespace Gives

variable {ε α β : Type} {good : α → Prop} {good' : β → Prop}

theorem ok {a : α} (h : good a) : Gives good (.ok a : Except ε α) := by
  intro b hb
  obtain rfl := Except.ok.inj hb
  exact h

theorem error (e : ε) : Gives good (.error e) := nofun

theorem bind {r : Except ε α} {f : α → Except ε β} (hr : Gives good r)
    (hf : ∀ a, good a → Gives good' (f a)) : Gives good' (r >>= f) := by
  cases r with
  | ok a => exact hf a (hr a rfl)
  | error e => exact error e

theorem map {r : Except ε α} {f : α → β} (hr : Gives good r) (hf : ∀ a, good a → good' (f a)) :
    Gives good' (r.map f) := by
  cases r with
  | ok a => exact ok (hf a (hr a rfl))
  | error e => exact error e

end Gives

/-- A property that holds of the constants which can be written and of references, and of
an expression once it holds of its parts. -/
structure Expr.Inductive (P : Expr → Prop) : Prop where
  number : ∀ x, P (.literal (.number x))
  text : ∀ s, P (.literal (.text s))
  boolean : ∀ b, P (.literal (.boolean b))
  null : P (.literal .null)
  reference : ∀ path, P (.reference path)
  unary : ∀ op operand, P operand → P (.unary op operand)
  binary : ∀ op left right, P left → P right → P (.binary op left right)
  call : ∀ name args, (∀ e ∈ args, P e) → P (.call name args)
  array : ∀ items, (∀ e ∈ items, P e) → P (.array items)
  index : ∀ target position, P target → P position → P (.index target position)
  lambda : ∀ params body, P body → P (.lambda params body)

theorem Grammar.constant?_eq_some {name : String} {v : Value} (h : constant? name = some v) :
    (∃ b, v = .boolean b) ∨ v = .null := by
  unfold constant? at h
  dsimp only at h
  split at h
  · exact .inl ⟨_, (Option.some.inj h).symm⟩
  · split at h
    · exact .inl ⟨_, (Option.some.inj h).symm⟩
    · split at h
      · exact .inr (Option.some.inj h).symm
      · cases h

/-- Every derived tree has the property. -/
theorem Derives.inductive {P : Expr → Prop} (hP : Expr.Inductive P) {n : Nat} {phrase : Phrase}
    {ts : List Token} {e : Expr} (h : Derives n phrase ts e) : P e := by
  induction h with
  | operand _ ih => exact ih
  | tighter _ ih => exact ih
  | element _ ih => exact ih
  | primary _ ih => exact ih
  | group _ ih => exact ih
  | expression _ ih => exact ih
  | binary _ _ _ ihl ihr => exact hP.binary _ _ _ ihl ihr
  | unary _ _ ih => exact hP.unary _ _ ih
  | index _ _ iht ihp => exact hP.index _ _ iht ihp
  | number _ x => exact hP.number x
  | text _ s => exact hP.text s
  | reference _ _ => exact hP.reference _
  | name _ _ _ => exact hP.reference _
  | constant _ hv =>
    rcases Grammar.constant?_eq_some hv with ⟨b, rfl⟩ | rfl
    · exact hP.boolean b
    · exact hP.null
  | call _ _ ih => exact hP.call _ _ (List.forall_mem_map.2 ih)
  | array _ ih => exact hP.array _ (List.forall_mem_map.2 ih)
  | lambda _ _ ih => exact hP.lambda _ _ ih
  | lambdas _ _ _ _ ih => exact hP.lambda _ _ ih

/-- What constants and references have and expressions take over from their parts, every
expression has that a text denotes. -/
theorem Expr.ofText_inductive {P : Expr → Prop} (h : Expr.Inductive P) (limit : Nat)
    (text : String) : Gives P (Expr.ofText limit text) := by
  intro e he
  obtain ⟨ts, hderives⟩ := Expr.derives_of_ofText he
  exact hderives.inductive h

end Formulary
