/-
  The limit of nesting of texts.

  A limit has one part in what the parsers find: where it is met, the text is too deep.
  So what is found below one limit is found below any larger one.  Every level takes a
  token, so a limit is met only by texts of as many tokens.

  * `Parse.Cut`: what is found with less room: the same, or that it is too deep;
  * `Parse.Cuts`: a parser that finds so; below, a lemma for each parser that it does if its
    parts do;
  * `Parse.cuts_nested`: the parsers below a smaller limit do;
  * `Expr.ofText_raised`: below a larger limit a text denotes the same expression, or
    fails in the same way, unless it is too deep for the smaller one.
-/
import Mathlib
import Formulary.Expr.Parser

namespace Formulary

namespace Parse

variable {limit room : Nat} {full full' : Prop} {α β : Type}

/-- What is found with less room: the same, or that it is too deep, which it can be only
where the room is used up. -/
def Cut (limit : Nat) (full : Prop) (found found' : Except ParseFailure α) : Prop :=
  found = found' ∨ full ∧ ∃ position, found = fail position (.tooDeep limit)

namespace Cut

variable {found found' : Except ParseFailure α}

theorem refl (found : Except ParseFailure α) : Cut limit full found found := .inl rfl

theorem mono (h : Cut limit full found found') (hfull : full → full') :
    Cut limit full' found found' :=
  h.imp_right (And.imp_left hfull)

/-- More tokens use up the room as well. -/
theorem of_le {m n : Nat} (h : Cut limit (room ≤ m) found found') (hle : m ≤ n) :
    Cut limit (room ≤ n) found found' :=
  h.mono fun hroom => Nat.le_trans hroom hle

/-- One after the other. -/
theorem bind {f g : α → Except ParseFailure β} (h : Cut limit full found found')
    (hfg : ∀ a, Cut limit full (f a) (g a)) : Cut limit full (found >>= f) (found' >>= g) := by
  rcases h with rfl | ⟨hfull, position, rfl⟩
  · cases found with
    | ok a => exact hfg a
    | error failure => exact .refl _
  · exact .inr ⟨hfull, position, rfl⟩

theorem map (h : Cut limit full found found') (f : α → β) :
    Cut limit full (found.map f) (found'.map f) := by
  rcases h with rfl | ⟨hfull, position, rfl⟩
  · exact .refl _
  · exact .inr ⟨hfull, position, rfl⟩

end Cut

/-- A parser with less room; only so many tokens can use it up. -/
def Cuts (limit room : Nat) (p p' : Parser α) : Prop :=
  ∀ ts, Cut limit (room ≤ ts.length) (p ts) (p' ts)

/-- The parsers of what stands one level deeper, with less room. -/
structure Nested.Cuts (limit room : Nat) (n n' : Nested) : Prop where
  expression : Parse.Cuts limit room n.expression n'.expression
  operand : Parse.Cuts limit room n.operand n'.operand
  lambda : Parse.Cuts limit room n.lambda n'.lambda

section

variable {p p' first first' next next' : Parser Expr} {n n' : Nested}

/-! ## Operators -/

theorem cut_moreOperands (hnext : Cuts limit room next next') (level : Nat) (left : Expr)
    (ts : List Located) :
    Cut limit (room ≤ ts.length) (moreOperands level next left ts)
      (moreOperands level next' left ts) := by
  rw [moreOperands.eq_def, moreOperands.eq_def level next']
  cases ts with
  | nil => exact .refl _
  | cons t rest =>
    dsimp only
    split
    · exact .refl _
    next op hop =>
      refine ((hnext rest).of_le (Nat.le_succ _)).bind fun found => ?_
      obtain ⟨⟨right, rest'⟩, h⟩ := found
      have hless : rest'.length < (t :: rest).length := Nat.lt_succ_of_lt h
      refine Cut.bind ?_ fun _ => .refl _
      exact (cut_moreOperands hnext level _ rest').of_le (Nat.le_of_lt hless)
termination_by ts.length
decreasing_by exact hless

theorem cuts_binaryLevel (level : Nat) (hnext : Cuts limit room next next') :
    Cuts limit room (binaryLevel level next) (binaryLevel level next') := by
  intro ts
  unfold binaryLevel
  refine (hnext ts).bind fun found => Cut.bind ?_ fun _ => .refl _
  obtain ⟨⟨left, rest⟩, h⟩ := found
  exact (cut_moreOperands hnext level left rest).of_le (Nat.le_of_lt h)

theorem cuts_operators (hp : Cuts limit room p p') :
    Cuts limit room (operators p) (operators p') := by
  unfold operators
  induction BinaryOp.levels with
  | nil => exact hp
  | cons level levels ih => exact cuts_binaryLevel level ih

/-! ## Lists -/

theorem cut_moreItems (hnext : Cuts limit room next next') (ts : List Located) :
    Cut limit (room ≤ ts.length) (moreItems next ts) (moreItems next' ts) := by
  rw [moreItems.eq_def, moreItems.eq_def next']
  split
  next p rest =>
    refine ((hnext rest).of_le (Nat.le_succ _)).bind fun found => ?_
    obtain ⟨⟨item, rest'⟩, h⟩ := found
    have hless : rest'.length < rest.length + 1 := Nat.lt_succ_of_lt h
    refine Cut.bind ?_ fun _ => .refl _
    exact (cut_moreItems hnext rest').of_le (Nat.le_of_lt hless)
  next => exact .refl _
termination_by ts.length
decreasing_by subst_vars; exact hless

theorem cut_items (closing : Token) (hfirst : Cuts limit room first first')
    (hnext : Cuts limit room next next') (ts : List Located) :
    Cut limit (room ≤ ts.length) (items closing first next ts) (items closing first' next' ts) := by
  unfold items
  split
  · exact .refl _
  · refine (hfirst ts).bind fun found => Cut.bind ?_ fun _ => .refl _
    obtain ⟨⟨item, rest⟩, h⟩ := found
    exact (cut_moreItems hnext rest).of_le (Nat.le_of_lt h)

theorem cuts_listUntil (finish : Nat) (closing : Token) (what : Missing)
    (hfirst : Cuts limit room first first') (hnext : Cuts limit room next next') :
    Cuts limit room (listUntil finish closing what first next)
      (listUntil finish closing what first' next') :=
  fun ts => (cut_items closing hfirst hnext ts).bind fun _ => .refl _

theorem cuts_laterItem (hp : Cuts limit room p p') :
    Cuts limit room (laterItem p) (laterItem p') := by
  intro ts
  unfold laterItem
  split
  · exact .refl _
  · exact hp ts

/-! ## Lambdas and arguments -/

/-- A lambda takes tokens before its body. -/
theorem cuts_lambda (finish : Nat) (hp : Cuts limit room p p') :
    Cuts limit (room + 1) (lambda finish p) (lambda finish p') := by
  intro ts
  unfold lambda
  split
  next => exact .refl _
  next params rest hhead =>
    have hless := lambdaHead?_shorter hhead
    split
    · exact .refl _
    · split
      · exact .refl _
      · refine Cut.bind ?_ fun _ => .refl _
        exact (hp rest).mono fun hroom => Nat.lt_of_le_of_lt hroom hless

theorem cuts_argument (hn : Nested.Cuts limit room n n') :
    Cuts limit room (argument n) (argument n') := by
  intro ts
  unfold argument
  split
  · exact hn.lambda ts
  · exact hn.expression ts

/-! ## Primaries -/

theorem cuts_call (finish : Nat) (name : String) (position : Nat)
    (hn : Nested.Cuts limit room n n') :
    Cuts limit room (call finish n name position) (call finish n' name position) := by
  intro ts
  unfold call
  split
  · exact .refl _
  · refine Cut.bind ?_ fun _ => .refl _
    exact cuts_listUntil finish _ _ (cuts_argument hn) (cuts_argument hn) ts

theorem cuts_array (finish : Nat) (hp : Cuts limit room p p') :
    Cuts limit room (array finish p) (array finish p') :=
  fun ts => (cuts_listUntil finish _ _ hp (cuts_laterItem hp) ts).bind fun _ => .refl _

theorem cuts_group (finish : Nat) (hp : Cuts limit room p p') :
    Cuts limit room (group finish p) (group finish p') :=
  fun ts => (hp ts).bind fun _ => .refl _

/-- A token that was taken makes room. -/
theorem Cut.after {t : Located} {rest : List Located} {found found' : Found Expr rest}
    (h : Cut limit (room ≤ rest.length) found found') :
    Cut limit (room + 1 ≤ (t :: rest).length) (after t found) (after t found') :=
  (h.mono fun hroom => Nat.succ_le_succ hroom).map _

theorem cuts_primary (finish : Nat) (hn : Nested.Cuts limit room n n') :
    Cuts limit (room + 1) (primary finish n) (primary finish n') := by
  intro ts
  cases ts with
  | nil => exact .refl _
  | cons t rest =>
    unfold primary
    dsimp only
    split
    next => exact .refl _
    next => exact .refl _
    next => exact .refl _
    next text _ =>
      split
      next p rest' =>
        have hcall := (cuts_call finish text t.position hn rest').after (t := ⟨.openParen, p⟩)
        exact (hcall.mono fun hroom => Nat.le_of_succ_le hroom).after
      next => exact .refl _
    next => exact (cuts_array finish hn.expression rest).after
    next => exact (cuts_group finish hn.expression rest).after
    next => exact .refl _

/-! ## Operands -/

theorem cut_moreIndices (finish : Nat) (hp : Cuts limit room p p') (target : Expr)
    (ts : List Located) :
    Cut limit (room ≤ ts.length) (moreIndices finish p target ts)
      (moreIndices finish p' target ts) := by
  rw [moreIndices.eq_def, moreIndices.eq_def finish p']
  split
  next position rest =>
    refine ((hp rest).of_le (Nat.le_succ _)).bind fun found => (Cut.refl _).bind fun closed => ?_
    obtain ⟨⟨index, rest'⟩, h⟩ := found
    obtain ⟨rest'', h'⟩ := closed
    have hless : rest''.length < rest.length + 1 := Nat.lt_succ_of_lt (Nat.lt_trans h' h)
    refine Cut.bind ?_ fun _ => .refl _
    exact (cut_moreIndices finish hp _ rest'').of_le (Nat.le_of_lt hless)
  next => exact .refl _
termination_by ts.length
decreasing_by subst_vars; exact hless

theorem cuts_element (finish : Nat) (hn : Nested.Cuts limit room n n') :
    Cuts limit (room + 1) (element finish n) (element finish n') := by
  intro ts
  unfold element
  refine (cuts_primary finish hn ts).bind fun found => Cut.bind ?_ fun _ => .refl _
  obtain ⟨⟨target, rest⟩, h⟩ := found
  exact (cut_moreIndices finish hn.expression target rest).mono fun hroom =>
    Nat.lt_of_le_of_lt hroom h

theorem cuts_operand (finish : Nat) (hn : Nested.Cuts limit room n n') :
    Cuts limit (room + 1) (operand finish n) (operand finish n') := by
  intro ts
  cases ts with
  | nil => exact cuts_element finish hn []
  | cons t rest =>
    unfold operand
    dsimp only
    split
    · -- the operand is one level deeper, but it has a token less as well
      exact ((hn.operand rest).map _).after
    · exact cuts_element finish hn (t :: rest)

end

/-! ## Nesting -/

/-- The parsers below a limit find what those below a larger one find, or that it is too
deep.  Each level that they enter takes a token, so there is room for as many levels as
tokens. -/
theorem cuts_nested (finish : Nat) {limit' room' : Nat} (hroom : room ≤ room') :
    Nested.Cuts limit room (nested limit finish room) (nested limit' finish room') := by
  induction room generalizing room' with
  | zero =>
    have hdeep (p : Parser Expr) : Cuts limit 0 (atLimit limit finish) p :=
      fun ts => .inr ⟨Nat.zero_le _, place finish ts, rfl⟩
    exact ⟨hdeep _, hdeep _, hdeep _⟩
  | succ room ih =>
    cases room' with
    | zero => exact absurd hroom (Nat.not_succ_le_zero room)
    | succ room' =>
      have hn := ih (Nat.le_of_succ_le_succ hroom)
      have hoperand := cuts_operand finish hn
      exact ⟨cuts_operators hoperand, hoperand, cuts_lambda finish hn.expression⟩

end Parse

namespace Expr

open Parse

theorem cut_ofTokens {limit limit' : Nat} (h : limit ≤ limit') (finish : Nat)
    (ts : List Located) :
    Cut limit (limit ≤ ts.length) (ofTokens limit finish ts) (ofTokens limit' finish ts) := by
  unfold ofTokens
  split
  · exact .refl _
  · exact ((cuts_nested finish h).expression ts).bind fun _ => .refl _

/-- **Main result.** Below a larger limit a text denotes the same expression, or fails for the
same reason at the same place, unless it is too deep for the smaller limit.  A text of fewer
tokens than the limit is not. -/
theorem ofText_raised {limit limit' : Nat} (h : limit ≤ limit') (text : String) :
    ofText limit text = ofText limit' text ∨
      (∃ position, ofText limit text = .error ⟨position, .tooDeep limit⟩) ∧
        ∃ ts, tokenize text = .ok ts ∧ limit ≤ ts.length := by
  unfold ofText
  cases htokens : tokenize text with
  | error failure => exact .inl rfl
  | ok ts =>
    rcases cut_ofTokens h text.length ts with heq | ⟨hfull, position, hdeep⟩
    · exact .inl heq
    · exact .inr ⟨⟨position, hdeep⟩, ts, rfl, hfull⟩

/-- A prefix in parentheses in parentheses takes four levels, and is read alike below larger
limits.  Below a limit of two, what stands in the inner parentheses is too deep. -/
theorem ofText_raised_parentheses :
    ofText 2 "((-a))" = .error ⟨2, .tooDeep 2⟩ ∧
      ofText 4 "((-a))" = .ok (.unary .neg (.reference (.field "a"))) ∧
      4 ≤ 9 ∧ ofText 4 "((-a))" = ofText 9 "((-a))" := by
  have hdeep : ofText 2 "((-a))" = .error ⟨2, .tooDeep 2⟩ := by cbv
  have hok : ofText 4 "((-a))" = .ok (.unary .neg (.reference (.field "a"))) := by cbv
  refine ⟨hdeep, hok, by decide, ?_⟩
  rcases ofText_raised (by decide : 4 ≤ 9) "((-a))" with heq | ⟨⟨position, hfail⟩, -⟩
  · exact heq
  · rw [hok] at hfail
    cases hfail

end Expr
end Formulary
