/-
  What the grammar derives, the parsers find.

  * `Parse.lambdaHead?_eq_none`, `Parse.parameterList?_of_tokens`: how far the parsers look
    ahead to tell lambdas from expressions in parentheses;
  * `Parse.Accepts`: what is derived is found in front of any tokens that cannot go on
    with it; before an operator of its own level or an index, it is found as the left part
    of what follows;
  * `Parse.accepts_of_derives`: all that is derived within the limit of nesting is found so;
  * `Expr.ofTokens_iff_derives`: the tree that tokens denote is the one that they derive.
-/
import Mathlib
import Formulary.Proofs.Derived

namespace Formulary.Parse

theorem tokens_eq_cons {front : List Located} {token : Token} {ts : List Token}
    (h : front.map Located.token = token :: ts) :
    ∃ position front', front = ⟨token, position⟩ :: front' ∧ front'.map Located.token = ts := by
  obtain ⟨⟨_, position⟩, front', rfl, rfl, hfront⟩ := List.map_eq_cons_iff.1 h
  exact ⟨position, front', rfl, hfront⟩

/-- What holds of the first token, and of the next one where there is none, holds of the
first token of both parts. -/
theorem head_append {P : Token → Prop} {front rest : List Located}
    (hfront : ∀ t ∈ (front.map Located.token).head?, P t)
    (hrest : ∀ t ∈ rest.head?, P t.token) : ∀ t ∈ (front ++ rest).head?, P t.token := by
  cases front with
  | nil => exact hrest
  | cons u front =>
    intro t ht
    obtain rfl := Option.some.inj ht
    exact hfront u.token rfl

/-! ## Looking ahead -/

theorem parameterList?_of_tokens {names : List String} (hne : names ≠ []) {front : List Located}
    (h : front.map Located.token =
      (names.map Token.identifier).intersperse .comma ++ [.closeParen, .arrow])
    (rest : List Located) :
    ∃ params, parameterList? (front ++ rest) = some (params, rest) ∧
      params.map Prod.fst = names := by
  induction names generalizing front with
  | nil => exact absurd rfl hne
  | cons name names ih =>
    cases names with
    | nil =>
      obtain ⟨position, front, rfl, h₁⟩ := tokens_eq_cons h
      obtain ⟨p, front, rfl, h₂⟩ := tokens_eq_cons h₁
      obtain ⟨p', front, rfl, h₃⟩ := tokens_eq_cons h₂
      obtain rfl := List.map_eq_nil_iff.1 h₃
      exact ⟨[(name, position)], rfl, rfl⟩
    | cons name' names =>
      obtain ⟨position, front, rfl, h₁⟩ := tokens_eq_cons h
      obtain ⟨p, front, rfl, h₂⟩ := tokens_eq_cons h₁
      obtain ⟨params, hparams, hnames⟩ := ih (List.cons_ne_nil _ _) h₂
      refine ⟨(name, position) :: params, ?_, by rw [List.map_cons, hnames]⟩
      rw [List.cons_append, List.cons_append, parameterList?, hparams]
      rfl

theorem parameterList?_eq_none {ts : List Located}
    (h : ∀ t ∈ ts.head?, ∀ name, t.token ≠ .identifier name) : parameterList? ts = none := by
  unfold parameterList?
  split
  next => exact absurd rfl (h _ rfl _)
  next => exact absurd rfl (h _ rfl _)
  next => rfl

theorem parameterList?_eq_none_of_next {t : Located} {ts : List Located}
    (h : ∀ u ∈ ts.head?, u.token ≠ .comma ∧ u.token ≠ .closeParen) :
    parameterList? (t :: ts) = none := by
  unfold parameterList?
  split
  next heq =>
    obtain ⟨-, rfl⟩ := List.cons.inj heq
    exact absurd rfl (h _ rfl).1
  next heq =>
    obtain ⟨-, rfl⟩ := List.cons.inj heq
    exact absurd rfl (h _ rfl).2
  next => rfl

/-- Parentheses hold no parameters of a lambda if no arrow follows them. -/
theorem parameterList?_closed {t u : Located} {ts : List Located} (hu : u.token = .closeParen)
    (h : ∀ v ∈ ts.head?, v.token ≠ .arrow) : parameterList? (t :: u :: ts) = none := by
  unfold parameterList?
  split
  next heq =>
    simp only [List.cons.injEq] at heq
    simp [heq.2.1] at hu
  next heq =>
    simp only [List.cons.injEq] at heq
    obtain ⟨-, -, rfl⟩ := heq
    exact absurd rfl (h _ rfl)
  next => rfl

/-- An expression is not taken for a lambda, unless an arrow follows. -/
theorem lambdaHead?_eq_none {front rest : List Located}
    (h : Opening (front.map Located.token)) (hrest : ∀ t ∈ rest.head?, t.token ≠ .arrow) :
    lambdaHead? (front ++ rest) = none := by
  have hafter {ts : List Token} {front' : List Located} (htokens : front'.map Located.token = ts)
      (hnext : ∀ t ∈ ts.head?, t = .openParen ∨ GoesOn t) :
      ∀ t ∈ (front' ++ rest).head?, t.token ≠ .arrow := by
    refine head_append (P := (· ≠ .arrow)) (fun t ht harrow => ?_) hrest
    rcases hnext t (htokens ▸ ht) with rfl | ht
    · simp at harrow
    · exact ht.ne.1 harrow
  generalize htokens : front.map Located.token = ts at h
  cases h with
  | name name hnext =>
    obtain ⟨position, front, rfl, hts⟩ := tokens_eq_cons htokens
    rw [List.cons_append]
    unfold lambdaHead?
    split
    next heq =>
      obtain ⟨-, heq⟩ := List.cons.inj heq
      exact absurd rfl (hafter hts hnext _ (by rw [heq]; rfl))
    next heq => simp at heq
    next => rfl
  | other ts hname hparen =>
    obtain ⟨position, front, rfl, hts⟩ := tokens_eq_cons htokens
    rw [List.cons_append]
    unfold lambdaHead?
    split
    next heq =>
      obtain ⟨⟨rfl, -⟩, -⟩ := by simpa only [List.cons.injEq, Located.mk.injEq] using heq
      exact absurd rfl (hname _)
    next heq =>
      obtain ⟨⟨rfl, -⟩, -⟩ := by simpa only [List.cons.injEq, Located.mk.injEq] using heq
      exact absurd List.mem_cons_self hparen
    next => rfl
  | @group inner ts hinner hnext =>
    obtain ⟨position, front, rfl, htokens'⟩ := tokens_eq_cons htokens
    obtain ⟨inner', front', rfl, hinner', hts⟩ := List.map_eq_append_iff.1 htokens'
    obtain ⟨p, after, rfl, hts'⟩ := tokens_eq_cons hts
    show parameterList? (inner' ++ ⟨.closeParen, p⟩ :: after ++ rest) = none
    rw [List.append_assoc, List.cons_append]
    cases hinner with
    | name name hname =>
      obtain ⟨p', inner', rfl, hafterName⟩ := tokens_eq_cons hinner'
      cases inner' with
      | nil => exact parameterList?_closed rfl (hafter hts' fun t ht => .inr (hnext t ht))
      | cons u inner' =>
        refine parameterList?_eq_none_of_next fun v hv => ?_
        obtain rfl := Option.some.inj hv
        rcases hname u.token (by rw [← hafterName]; rfl) with hu | hu
        · simp [hu]
        · exact hu.ne.2
    | group _ _ =>
      obtain ⟨p', inner', rfl, -⟩ := tokens_eq_cons hinner'
      exact parameterList?_eq_none fun v hv name => by
        obtain rfl := Option.some.inj hv
        simp
    | other _ hname _ =>
      obtain ⟨p', inner', rfl, -⟩ := tokens_eq_cons hinner'
      exact parameterList?_eq_none fun v hv name => by
        obtain rfl := Option.some.inj hv
        exact hname name

/-! ## Lists -/

section

variable {finish : Nat} {first next : Parser Expr} {closing : Token}

/-- A parser finds the items of a list, each before a comma or the closing token. -/
def FindsItems (closing : Token) (p : Parser Expr) (items : List (List Token × Expr)) : Prop :=
  ∀ item ∈ items, ∀ front t rest, front.map Located.token = item.1 →
    t.token = .comma ∨ t.token = closing → Is (p (front ++ t :: rest)) (item.2, t :: rest)

/-- What follows an item is the comma of the next one, or the closing token. -/
theorem FindsItems.before {p : Parser Expr} {items : List (List Token × Expr)}
    (h : FindsItems closing p items) {item : List Token × Expr} (hitem : item ∈ items)
    {front more : List Located} (hfront : front.map Located.token = item.1)
    {later : List (List Token)} (hmore : more.map Located.token = later.flatMap (Token.comma :: ·))
    {t : Located} (ht : t.token = closing) (rest : List Located) :
    Is (p (front ++ (more ++ t :: rest))) (item.2, more ++ t :: rest) := by
  cases later with
  | nil =>
    obtain rfl := List.map_eq_nil_iff.1 hmore
    exact h item hitem front t rest hfront (.inr ht)
  | cons _ _ =>
    obtain ⟨p, more, rfl, -⟩ := tokens_eq_cons hmore
    exact h item hitem front ⟨.comma, p⟩ (more ++ t :: rest) hfront (.inl rfl)

theorem is_moreItems_of_tokens (hclosing : closing ≠ .comma)
    {items : List (List Token × Expr)} (hitems : FindsItems closing next items)
    {more : List Located}
    (hmore : more.map Located.token = (items.map Prod.fst).flatMap (Token.comma :: ·))
    {t : Located} (ht : t.token = closing) (rest : List Located) :
    Is (moreItems next (more ++ t :: rest)) (items.map Prod.snd, t :: rest) := by
  induction items generalizing more with
  | nil =>
    obtain rfl := List.map_eq_nil_iff.1 hmore
    refine (is_moreItems_done fun u hu => ?_).2 rfl
    obtain rfl : t = u := Option.some.inj hu
    exact ht ▸ hclosing
  | cons item items ih =>
    obtain ⟨position, more, rfl, htokens⟩ := tokens_eq_cons hmore
    obtain ⟨front, more, rfl, hfront, hlater⟩ := List.map_eq_append_iff.1 htokens
    have hitem := hitems.before List.mem_cons_self hfront hlater ht rest
    have hrest := ih (fun item hitem => hitems item (List.mem_cons_of_mem _ hitem)) hlater
    rw [List.cons_append, is_moreItems_cons rfl, List.append_assoc]
    exact ⟨_, hitem, _, hrest, rfl⟩

theorem is_listUntil_of_tokens {what : Missing} (hclosing : closing ≠ .comma)
    {items : List (List Token × Expr)} (hfirst : FindsItems closing first items)
    (hnext : FindsItems closing next items)
    (hhead : ∀ item ∈ items, ∃ t ts, item.1 = t :: ts ∧ t ≠ closing) {front : List Located}
    (hfront : front.map Located.token = [.comma].intercalate (items.map Prod.fst) ++ [closing])
    (rest : List Located) :
    Is (listUntil finish closing what first next (front ++ rest)) (items.map Prod.snd, rest) := by
  obtain ⟨front, last, rfl, htokens, hlast⟩ := List.map_eq_append_iff.1 hfront
  obtain ⟨position, last, rfl, hnil⟩ := tokens_eq_cons hlast
  obtain rfl := List.map_eq_nil_iff.1 hnil
  rw [List.append_assoc, List.cons_append, List.nil_append, is_listUntil]
  refine ⟨(items.map Prod.snd, ⟨closing, position⟩ :: rest), ?_, _, rfl, rfl, rfl⟩
  rw [is_items]
  cases items with
  | nil =>
    obtain rfl := List.map_eq_nil_iff.1 htokens
    have hnext : isNext closing (⟨closing, position⟩ :: rest) = true := isNext_iff.2 ⟨_, _, rfl, rfl⟩
    rw [List.nil_append, if_pos hnext]
    rfl
  | cons item items =>
    rw [List.map_cons, intercalate_comma] at htokens
    obtain ⟨one, more, rfl, hone, hmore⟩ := List.map_eq_append_iff.1 htokens
    have hitem := hfirst.before List.mem_cons_self hone hmore (t := ⟨closing, position⟩) rfl rest
    have hlater := is_moreItems_of_tokens hclosing
      (fun item hitem => hnext item (List.mem_cons_of_mem _ hitem)) hmore
      (t := ⟨closing, position⟩) rfl rest
    rw [List.append_assoc, if_neg]
    · exact ⟨_, hitem, _, hlater, rfl⟩
    · obtain ⟨t, ts, htoken, ht⟩ := hhead item List.mem_cons_self
      obtain ⟨p, one, rfl, -⟩ := tokens_eq_cons (hone.trans htoken)
      rw [isNext_iff]
      rintro ⟨_, _, heq, htoken⟩
      obtain ⟨rfl, -⟩ := List.cons.inj heq
      exact ht htoken

end

/-! ## Parts of formulas -/

/-- The parser of the operands of a level, with tighter operators between them. -/
def operatorsFrom (operand : Parser Expr) (level : Nat) : Parser Expr :=
  (BinaryOp.levels.drop level).foldr binaryLevel operand

theorem operatorsFrom_eq (operand : Parser Expr) {level : Nat} (h : level < 6) :
    operatorsFrom operand level = binaryLevel level (operatorsFrom operand (level + 1)) := by
  match level with
  | 0 | 1 | 2 | 3 | 4 | 5 => rfl
  | level + 6 => omega

theorem operatorAt?_tightest (token : Token) : operatorAt? 6 token = none := by
  rw [Option.eq_none_iff_forall_ne_some]
  intro op hop
  obtain ⟨sign, -, hsign⟩ := operatorAt?_eq_some.1 hop
  simp [Grammar.joining_eq_nil] at hsign

/-- A sign is of one level only. -/
theorem operatorAt?_operator_of_ne {sign : Sign} {op : BinaryOp} {level level' : Nat}
    (hop : (sign, op) ∈ Grammar.joining level) (h : level ≠ level') :
    operatorAt? level' (.operator sign) = none := by
  rw [Option.eq_none_iff_forall_ne_some]
  intro op' hop'
  obtain ⟨sign', hsign, hop'⟩ := operatorAt?_eq_some.1 hop'
  obtain rfl := Token.operator.inj hsign
  obtain ⟨hsign, rfl⟩ := mem_joining_iff.1 hop
  obtain ⟨hsign', rfl⟩ := mem_joining_iff.1 hop'
  obtain rfl := Option.some.inj (hsign.symm.trans hsign')
  exact h rfl

/-- No token is next that goes on with an element. -/
def AfterElement (rest : List Located) : Prop :=
  ∀ t ∈ rest.head?, t.token ≠ .openParen ∧ t.token ≠ .openBracket

/-- Nor an operator that binds tighter than those of a level. -/
def AfterLevel (level : Nat) (rest : List Located) : Prop :=
  AfterElement rest ∧ ∀ t ∈ rest.head?, ∀ level' > level, operatorAt? level' t.token = none

/-- No token is next that goes on with an expression. -/
def AfterExpression (rest : List Located) : Prop :=
  ∀ t ∈ rest.head?, ¬ GoesOn t.token ∧ t.token ≠ .openParen

theorem AfterLevel.tighter {level : Nat} {rest : List Located} (h : AfterLevel level rest) :
    AfterLevel (level + 1) rest :=
  ⟨h.1, fun t ht level' hlevel' => h.2 t ht level' (Nat.lt_of_succ_lt hlevel')⟩

/-- So there are no more operands for the operators of the next level. -/
theorem AfterLevel.is_moreOperands {level : Nat} {rest : List Located} (h : AfterLevel level rest)
    {next : Parser Expr} (left : Expr) :
    Is (moreOperands (level + 1) next left rest) (left, rest) :=
  (is_moreOperands_done fun t ht => h.2 t ht _ (Nat.lt_succ_self _)).2 rfl

theorem AfterExpression.operatorAt? {rest : List Located} (h : AfterExpression rest)
    {t : Located} (ht : t ∈ rest.head?) (level : Nat) : operatorAt? level t.token = none := by
  rw [Option.eq_none_iff_forall_ne_some]
  intro op hop
  obtain ⟨sign, hsign, -⟩ := operatorAt?_eq_some.1 hop
  exact (h t ht).1 (hsign ▸ .operator sign)

theorem AfterExpression.level {rest : List Located} (h : AfterExpression rest) (level : Nat) :
    AfterLevel level rest :=
  ⟨fun t ht => ⟨(h t ht).2, fun hbracket => (h t ht).1 (hbracket ▸ .openBracket)⟩,
    fun _ ht level' _ => h.operatorAt? ht level'⟩

theorem afterExpression_of_closing {t : Located}
    (ht : t.token = .comma ∨ t.token = .closeParen ∨ t.token = .closeBracket)
    (rest : List Located) : AfterExpression (t :: rest) := by
  intro u hu
  obtain rfl := Option.some.inj hu
  rcases ht with ht | ht | ht
  · exact ⟨ht ▸ nofun, by simp [ht]⟩
  · exact ⟨ht ▸ nofun, by simp [ht]⟩
  · exact ⟨ht ▸ nofun, by simp [ht]⟩

section

variable (limit finish : Nat)

/-- What is derived is found in front of tokens that cannot go on with it, if there is room
for its levels of nesting.  As the left part of more operands, or of more indices, it is
found with these. -/
def Accepts (n : Nat) : Phrase → List Token → Expr → Prop
  | .level level, ts, e => ∀ room front rest r, n ≤ room + 1 → front.map Located.token = ts →
      AfterLevel level rest →
      let operand := operand finish (nested limit finish room)
      Is (moreOperands level (operatorsFrom operand (level + 1)) e rest) r →
        Is (operatorsFrom operand level (front ++ rest)) r
  | .operand, ts, e => ∀ room front rest, n ≤ room + 1 → front.map Located.token = ts →
      AfterElement rest → Is (operand finish (nested limit finish room) (front ++ rest)) (e, rest)
  | .element, ts, e => ∀ room front rest r, n ≤ room + 1 → front.map Located.token = ts →
      (∀ t ∈ rest.head?, t.token ≠ .openParen) →
      Is (moreIndices finish (nested limit finish room).expression e rest) r →
        Is (element finish (nested limit finish room) (front ++ rest)) r
  | .primary, ts, e => ∀ room front rest, n ≤ room + 1 → front.map Located.token = ts →
      (∀ t ∈ rest.head?, t.token ≠ .openParen) →
        Is (primary finish (nested limit finish room) (front ++ rest)) (e, rest)
  | .argument, ts, e => ∀ room front t rest, n ≤ room → front.map Located.token = ts →
      t.token = .comma ∨ t.token = .closeParen →
        Is (argument (nested limit finish room) (front ++ t :: rest)) (e, t :: rest)

variable {limit finish} {n : Nat} {ts : List Token} {e : Expr}

/-- Where no operator or index is next, an expression is found. -/
theorem Accepts.expression (h : Accepts limit finish n (.level 0) ts e) (hpos : 0 < n)
    {room : Nat} (hroom : n ≤ room) {front rest : List Located}
    (hfront : front.map Located.token = ts)
    (hrest : AfterExpression rest) :
    Is ((nested limit finish room).expression (front ++ rest)) (e, rest) := by
  obtain ⟨room, rfl⟩ : ∃ k, room = k + 1 := ⟨room - 1, by omega⟩
  refine h room front rest (e, rest) hroom hfront (hrest.level 0) ?_
  exact (is_moreOperands_done fun t ht => hrest.operatorAt? ht 0).2 rfl

/-! ### Operators -/

theorem accepts_operand (h : Accepts limit finish n .operand ts e) :
    Accepts limit finish n (.level 6) ts e := by
  intro room front rest r hroom hfront hrest operand hmore
  obtain rfl := (is_moreOperands_done fun t _ => operatorAt?_tightest t.token).1 hmore
  exact h room front rest hroom hfront hrest.1

theorem accepts_tighter {level : Nat} (hlevel : level < 6)
    (h : Accepts limit finish n (.level (level + 1)) ts e) :
    Accepts limit finish n (.level level) ts e := by
  intro room front rest r hroom hfront hrest operand hmore
  rw [operatorsFrom_eq operand hlevel, is_binaryLevel]
  exact ⟨(e, rest), h room front rest _ hroom hfront hrest.tighter (hrest.is_moreOperands e), hmore⟩

theorem accepts_binary {level : Nat} {sign : Sign} {op : BinaryOp}
    (hop : (sign, op) ∈ Grammar.joining level) {ts' : List Token} {left right : Expr}
    (hleft : Accepts limit finish n (.level level) ts left)
    (hright : Accepts limit finish n (.level (level + 1)) ts' right) :
    Accepts limit finish n (.level level) (ts ++ .operator sign :: ts')
      (.binary op left right) := by
  intro room front rest r hroom htokens hrest operand hmore
  obtain ⟨front, after, rfl, hfront, hafter⟩ := List.map_eq_append_iff.1 htokens
  obtain ⟨position, front', rfl, hfront'⟩ := tokens_eq_cons hafter
  have hat : operatorAt? level (.operator sign) = some op :=
    operatorAt?_eq_some.2 ⟨sign, rfl, hop⟩
  rw [List.append_assoc, List.cons_append]
  refine hleft room front (⟨.operator sign, position⟩ :: (front' ++ rest)) r hroom hfront ?_ ?_
  · refine ⟨fun t ht => ?_, fun t ht level' hlevel' => ?_⟩
    · obtain rfl := Option.some.inj ht
      exact ⟨by simp, by simp⟩
    · obtain rfl := Option.some.inj ht
      exact operatorAt?_operator_of_ne hop (Nat.ne_of_lt hlevel')
  · rw [is_moreOperands_cons hat]
    exact ⟨(right, rest), hright room front' rest _ hroom hfront' hrest.tighter
      (hrest.is_moreOperands right), hmore⟩

/-! ### Operands -/

theorem accepts_unary {sign : Sign} {op : UnaryOp} (hop : (sign, op) ∈ Grammar.leading)
    (hpos : 0 < n) (h : Accepts limit finish n .operand ts e) :
    Accepts limit finish (n + 1) .operand (.operator sign :: ts) (.unary op e) := by
  intro room front rest hroom htokens hrest
  obtain ⟨position, front, rfl, hfront⟩ := tokens_eq_cons htokens
  obtain ⟨room, rfl⟩ : ∃ k, room = k + 1 := ⟨room - 1, by omega⟩
  have hat : unaryAt? (.operator sign) = some op := unaryAt?_eq_some.2 ⟨sign, rfl, hop⟩
  rw [List.cons_append, is_operand_unary hat]
  exact ⟨(e, rest), h room front rest (Nat.le_of_succ_le_succ hroom) hfront hrest, rfl⟩

theorem accepts_element (hsign : ∀ t ∈ ts.head?, ∀ sign, t ≠ .operator sign) (hne : ts ≠ [])
    (h : Accepts limit finish n .element ts e) : Accepts limit finish n .operand ts e := by
  intro room front rest hroom hfront hrest
  have hunary : ∀ t ∈ (front ++ rest).head?, unaryAt? t.token = none := by
    obtain ⟨t, ts, rfl⟩ := List.exists_cons_of_ne_nil hne
    obtain ⟨position, front, rfl, -⟩ := tokens_eq_cons hfront
    intro u hu
    obtain rfl := Option.some.inj hu
    rw [Option.eq_none_iff_forall_ne_some]
    intro op hop
    obtain ⟨sign, ht, -⟩ := unaryAt?_eq_some.1 hop
    exact hsign t rfl sign ht
  rw [is_operand_element hunary]
  refine h room front rest _ hroom hfront (fun t ht => (hrest t ht).1) ?_
  exact (is_moreIndices_done fun t ht => (hrest t ht).2).2 rfl

theorem accepts_index {ts' : List Token} {target position : Expr} (hpos : 0 < n)
    (htarget : Accepts limit finish (n + 1) .element ts target)
    (hposition : Accepts limit finish n (.level 0) ts' position) :
    Accepts limit finish (n + 1) .element (ts ++ .openBracket :: (ts' ++ [.closeBracket]))
      (.index target position) := by
  intro room front rest r hroom htokens hrest hmore
  obtain ⟨front, after, rfl, hfront, hafter⟩ := List.map_eq_append_iff.1 htokens
  obtain ⟨p, after, rfl, hafter'⟩ := tokens_eq_cons hafter
  obtain ⟨inner, last, rfl, hinner, hlast⟩ := List.map_eq_append_iff.1 hafter'
  obtain ⟨p', last, rfl, hnil⟩ := tokens_eq_cons hlast
  obtain rfl := List.map_eq_nil_iff.1 hnil
  have hfound : Is ((nested limit finish room).expression (inner ++ ⟨.closeBracket, p'⟩ :: rest))
      (position, ⟨.closeBracket, p'⟩ :: rest) :=
    hposition.expression hpos (Nat.le_of_succ_le_succ hroom) hinner
      (afterExpression_of_closing (.inr (.inr rfl)) rest)
  have hnext : front ++ ⟨.openBracket, p⟩ :: (inner ++ [⟨.closeBracket, p'⟩]) ++ rest =
      front ++ ⟨.openBracket, p⟩ :: (inner ++ ⟨.closeBracket, p'⟩ :: rest) := by simp
  rw [hnext]
  refine htarget room front _ r hroom hfront (fun t ht => ?_) ?_
  · obtain rfl := Option.some.inj ht
    simp
  · rw [is_moreIndices_cons rfl]
    exact ⟨position, _, rest, hfound, rfl, hmore⟩

theorem accepts_primary (h : Accepts limit finish n .primary ts e) :
    Accepts limit finish n .element ts e := by
  intro room front rest r hroom hfront hrest hmore
  exact is_element.2 ⟨(e, rest), h room front rest hroom hfront hrest, hmore⟩

/-! ### Primaries -/

/-- What one token stands for. -/
theorem accepts_token {t : Token} (h : ∀ position room rest,
      (∀ u ∈ rest.head?, u.token ≠ .openParen) →
        Is (primary finish (nested limit finish room) (⟨t, position⟩ :: rest)) (e, rest)) :
    Accepts limit finish n .primary [t] e := by
  intro room front rest hroom htokens hrest
  obtain ⟨position, front, rfl, hnil⟩ := tokens_eq_cons htokens
  obtain rfl := List.map_eq_nil_iff.1 hnil
  exact h position room rest hrest

theorem accepts_name {name : String} (h : ∀ position, Parse.name position name = .ok e) :
    Accepts limit finish n .primary [.identifier name] e := by
  refine accepts_token fun position room rest hrest => ?_
  rw [is_primary]
  dsimp only
  rw [if_neg]
  · exact ⟨h position, rfl⟩
  · rw [isNext_iff]
    rintro ⟨t, _, rfl, ht⟩
    exact hrest t rfl ht

theorem accepts_group (hpos : 0 < n) (h : Accepts limit finish n (.level 0) ts e) :
    Accepts limit finish (n + 1) .primary (.openParen :: (ts ++ [.closeParen])) e := by
  intro room front rest hroom htokens hrest
  obtain ⟨position, after, rfl, hafter⟩ := tokens_eq_cons htokens
  obtain ⟨inner, last, rfl, hinner, hlast⟩ := List.map_eq_append_iff.1 hafter
  obtain ⟨p, last, rfl, hnil⟩ := tokens_eq_cons hlast
  obtain rfl := List.map_eq_nil_iff.1 hnil
  rw [List.cons_append, List.append_assoc, List.cons_append, List.nil_append, is_primary]
  refine is_group.2 ⟨⟨.closeParen, p⟩, rfl, ?_⟩
  exact h.expression hpos (Nat.le_of_succ_le_succ hroom) hinner
    (afterExpression_of_closing (.inr (.inl rfl)) rest)

theorem accepts_call {name : String} {args : List (List Token × Expr)}
    (hname : '.' ∉ name.toList)
    (hargs : ∀ arg ∈ args, Derives n .argument arg.1 arg.2 ∧
      Accepts limit finish n .argument arg.1 arg.2) :
    Accepts limit finish (n + 1) .primary (.identifier name :: .openParen ::
      ([.comma].intercalate (args.map Prod.fst) ++ [.closeParen]))
      (.call name (args.map Prod.snd)) := by
  intro room front rest hroom htokens hrest
  obtain ⟨position, after, rfl, hafter⟩ := tokens_eq_cons htokens
  obtain ⟨p, front, rfl, hfront⟩ := tokens_eq_cons hafter
  have hfind : FindsItems .closeParen (argument (nested limit finish room)) args :=
    fun arg harg front t rest hfront ht =>
      (hargs arg harg).2 room front t rest (Nat.le_of_succ_le_succ hroom) hfront ht
  have hhead : ∀ arg ∈ args, ∃ t ts, arg.1 = t :: ts ∧ t ≠ .closeParen := fun arg harg => by
    obtain ⟨t, ts, heq, hparen, -⟩ := (hargs arg harg).1.head
    exact ⟨t, ts, heq, hparen⟩
  have hnext : isNext .openParen (⟨.openParen, p⟩ :: (front ++ rest)) = true :=
    isNext_iff.2 ⟨_, _, rfl, rfl⟩
  rw [List.cons_append, List.cons_append, is_primary]
  dsimp only
  rw [if_pos hnext, is_call]
  refine ⟨hname, _, is_listUntil_of_tokens (by simp) hfind hfind hhead hfront rest, rfl⟩

theorem accepts_array {items : List (List Token × Expr)}
    (hitems : ∀ item ∈ items, Derives n (.level 0) item.1 item.2 ∧
      Accepts limit finish n (.level 0) item.1 item.2) :
    Accepts limit finish (n + 1) .primary (.openBracket ::
      ([.comma].intercalate (items.map Prod.fst) ++ [.closeBracket]))
      (.array (items.map Prod.snd)) := by
  intro room front rest hroom htokens hrest
  obtain ⟨position, front, rfl, hfront⟩ := tokens_eq_cons htokens
  have hhead : ∀ item ∈ items, ∃ t ts, item.1 = t :: ts ∧ t ≠ .closeBracket :=
    fun item hitem => by
      obtain ⟨t, ts, heq, -, hbracket⟩ := (hitems item hitem).1.head
      exact ⟨t, ts, heq, hbracket⟩
  have hfind : FindsItems .closeBracket (nested limit finish room).expression items := by
    intro item hitem front t rest hfront ht
    exact (hitems item hitem).2.expression (hitems item hitem).1.pos
      (Nat.le_of_succ_le_succ hroom) hfront (afterExpression_of_closing (ht.imp_right .inr) rest)
  have hlater :
      FindsItems .closeBracket (laterItem (nested limit finish room).expression) items := by
    intro item hitem front t rest hfront ht
    refine is_laterItem.2 ⟨?_, hfind item hitem front t rest hfront ht⟩
    obtain ⟨u, ts, heq, hu⟩ := hhead item hitem
    obtain ⟨p, front, rfl, -⟩ := tokens_eq_cons (hfront.trans heq)
    rw [Bool.eq_false_iff, ne_eq, isNext_iff]
    rintro ⟨_, _, hcons, htoken⟩
    obtain ⟨rfl, -⟩ := List.cons.inj hcons
    exact hu htoken
  rw [List.cons_append, is_primary]
  exact is_array.2 ⟨_, is_listUntil_of_tokens (by simp) hfind hlater hhead hfront rest, rfl⟩

/-! ### Arguments -/

theorem accepts_expression (hderives : Derives n (.level 0) ts e)
    (h : Accepts limit finish n (.level 0) ts e) : Accepts limit finish n .argument ts e := by
  intro room front t rest hroom hfront ht
  have hhead : lambdaHead? (front ++ t :: rest) = none := by
    refine lambdaHead?_eq_none (hfront ▸ hderives.opening (by simp)) fun u hu => ?_
    obtain rfl := Option.some.inj hu
    rcases ht with ht | ht <;> simp [ht]
  rw [is_argument, hhead]
  exact h.expression hderives.pos hroom hfront
    (afterExpression_of_closing (ht.imp_right .inl) rest)

/-- The body of a lambda is found after its head. -/
theorem accepts_lambda {names : List String} {body : Expr} (hpos : 0 < n)
    (hnames : ∀ name ∈ names, '.' ∉ name.toList) (hfew : names.length ≤ 3)
    (h : Accepts limit finish n (.level 0) ts body) (head : List Token)
    (hhead : ∀ front rest, front.map Located.token = head →
      ∃ params, lambdaHead? (front ++ rest) = some (params, rest) ∧ params.map Prod.fst = names) :
    Accepts limit finish (n + 1) .argument (head ++ ts) (.lambda names body) := by
  intro room front t rest hroom htokens ht
  obtain ⟨front, inner, rfl, hfront, hinner⟩ := List.map_eq_append_iff.1 htokens
  obtain ⟨room, rfl⟩ : ∃ k, room = k + 1 := ⟨room - 1, by omega⟩
  obtain ⟨params, hparams, rfl⟩ := hhead front (inner ++ t :: rest) hfront
  rw [List.append_assoc, is_argument, hparams]
  refine is_lambda.2 ⟨params, _, hparams, ?_, by simpa using hfew, (body, t :: rest), ?_, rfl⟩
  · exact fun param hparam => hnames _ (List.mem_map_of_mem hparam)
  · exact h.expression hpos (Nat.le_of_succ_le_succ hroom) hinner
      (afterExpression_of_closing (ht.imp_right .inl) rest)

/-! ### Derivations -/

/-- All that is derived is found. -/
theorem accepts_of_derives {phrase : Phrase} (h : Derives n phrase ts e) :
    Accepts limit finish n phrase ts e := by
  induction h with
  | operand _ ih => exact accepts_operand ih
  | tighter h ih => exact accepts_tighter h.level_le ih
  | binary hop _ _ ihl ihr => exact accepts_binary hop ihl ihr
  | unary hop h ih => exact accepts_unary hop h.pos ih
  | element h ih =>
    obtain ⟨t, ts, rfl, -⟩ := h.head
    exact accepts_element (h.unsigned (.inl rfl)) (List.cons_ne_nil _ _) ih
  | index _ h iht ihp => exact accepts_index h.pos iht ihp
  | primary _ ih => exact accepts_primary ih
  | number _ x => exact accepts_token fun position room rest _ => is_primary.2 rfl
  | text _ s => exact accepts_token fun position room rest _ => is_primary.2 rfl
  | reference _ hpath =>
    exact accepts_token fun position room rest _ =>
      is_primary.2 ⟨path_eq_ok.2 ⟨_, hpath, rfl⟩, rfl⟩
  | constant _ hv => exact accepts_name fun position => name_eq_ok.2 (by rw [hv])
  | name _ hv hpath =>
    refine accepts_name fun position => name_eq_ok.2 ?_
    rw [hv]
    exact ⟨_, hpath, rfl⟩
  | call hname hargs ih => exact accepts_call hname fun arg harg => ⟨hargs arg harg, ih arg harg⟩
  | array hitems ih => exact accepts_array fun item hitem => ⟨hitems item hitem, ih item hitem⟩
  | group h ih => exact accepts_group h.pos ih
  | expression h ih => exact accepts_expression h ih
  | @lambda _ name _ _ hname h ih =>
    refine accepts_lambda h.pos (by simpa using hname) (by simp) ih
      [.identifier name, .arrow] fun front rest hfront => ?_
    obtain ⟨position, front, rfl, hfront'⟩ := tokens_eq_cons hfront
    obtain ⟨p, front, rfl, hnil⟩ := tokens_eq_cons hfront'
    obtain rfl := List.map_eq_nil_iff.1 hnil
    exact ⟨[(name, position)], rfl, rfl⟩
  | @lambdas _ names ts body hne hfew hnames h ih =>
    have haccepts := accepts_lambda h.pos hnames hfew ih
      (.openParen :: ((names.map Token.identifier).intersperse .comma ++ [.closeParen, .arrow]))
      fun front rest hfront => by
        obtain ⟨position, front, rfl, hfront'⟩ := tokens_eq_cons hfront
        exact parameterList?_of_tokens hne hfront' rest
    rwa [List.cons_append, List.append_assoc, List.cons_append, List.cons_append,
      List.nil_append] at haccepts

end

end Formulary.Parse

/-! ## Formulas -/

namespace Formulary.Expr

/-- What tokens denote below a limit of nesting is what they derive with so many levels. -/
theorem ofTokens_eq_ok {limit finish : Nat} {ts : List Located} {e : Expr} :
    ofTokens limit finish ts = .ok e ↔ Derives limit (.level 0) (ts.map Located.token) e := by
  refine ⟨derives_of_ofTokens, fun h => ?_⟩
  have haccepts : Parse.Accepts limit finish limit (.level 0) (ts.map Located.token) e :=
    Parse.accepts_of_derives h
  have hend : Parse.AfterExpression [] := nofun
  have hall := haccepts.expression h.pos (Nat.le_refl limit) rfl hend
  rw [List.append_nil] at hall
  obtain ⟨hlt, hfound⟩ := hall
  have hne : ts.isEmpty = false := by
    obtain ⟨t, ts', hcons, -⟩ := h.head
    obtain ⟨position, front, rfl, -⟩ := Parse.tokens_eq_cons hcons
    rfl
  unfold ofTokens
  rw [hne, hfound]
  rfl

/-- Tokens derive one tree at most. -/
theorem derives_unique {n m : Nat} {ts : List Token} {e e' : Expr}
    (h : Derives n (.level 0) ts e) (h' : Derives m (.level 0) ts e') : e = e' := by
  have hok {k : Nat} {tree : Expr} (hle : k ≤ n + m) (h : Derives k (.level 0) ts tree) :
      ofTokens (n + m) 0 (ts.map (⟨·, 0⟩)) = .ok tree := by
    have htokens : (ts.map fun t => (⟨t, 0⟩ : Located)).map Located.token = ts := by
      rw [List.map_map]
      exact List.map_id ts
    rw [ofTokens_eq_ok, htokens]
    exact h.mono hle
  exact Except.ok.inj ((hok (by omega) h).symm.trans (hok (by omega) h'))

/-- **Main result.** Below a limit of nesting that is no smaller than the number of tokens,
exactly what the grammar derives is read from them; there is one tree at most, and where
there is none, the fault is that of a text that is no formula. -/
theorem ofTokens_iff_derives {limit : Nat} (finish : Nat) {ts : List Located}
    (hlimit : ts.length ≤ limit) :
    (∀ e, ofTokens limit finish ts = .ok e ↔
      ∃ n, Derives n (.level 0) (ts.map Located.token) e) ∧
    (∀ e e', (∃ n, Derives n (.level 0) (ts.map Located.token) e) →
      (∃ n, Derives n (.level 0) (ts.map Located.token) e') → e = e') ∧
    ((¬ ∃ e n, Derives n (.level 0) (ts.map Located.token) e) →
      ∃ failure, ofTokens limit finish ts = .error failure ∧
        failure.toFault = .parse failure.position failure.cause.message) := by
  have hiff : ∀ e, ofTokens limit finish ts = .ok e ↔
      ∃ n, Derives n (.level 0) (ts.map Located.token) e := by
    intro e
    rw [ofTokens_eq_ok]
    refine ⟨fun h => ⟨limit, h⟩, fun ⟨n, h⟩ => ?_⟩
    exact h.within.mono (by simpa using hlimit)
  refine ⟨hiff, fun e e' ⟨_, h⟩ ⟨_, h'⟩ => derives_unique h h', fun hnone => ?_⟩
  cases hresult : ofTokens limit finish ts with
  | ok e => exact absurd ⟨e, (hiff e).1 hresult⟩ hnone
  | error failure => exact ⟨failure, rfl, rfl⟩

/-- The tokens of a call: of an expression in parentheses and of a lambda, which start alike.
Its body is `b - c * -a[0] - d`. -/
def twoArguments : List Located :=
  [.identifier "f", .openParen, .openParen, .identifier "a", .closeParen, .comma, .openParen,
    .identifier "a", .closeParen, .arrow, .identifier "b", .operator .minus, .identifier "c",
    .operator .times, .operator .minus, .identifier "a", .openBracket, .number .zero,
    .closeBracket, .operator .minus, .identifier "d", .closeParen].map (⟨·, 0⟩)

/-- What they denote: only the second argument is a lambda, and in its body the sign is that
of the element, the factors are taken together first, and the differences from the left. -/
def twoArgumentsTree : Expr :=
  .call "f" [.reference (.field "a"), .lambda ["a"]
    (.binary .sub
      (.binary .sub (.reference (.field "b"))
        (.binary .mul (.reference (.field "c"))
          (.unary .neg (.index (.reference (.field "a")) (.literal (.number .zero))))))
      (.reference (.field "d")))]

theorem ofTokens_iff_derives_twoArguments :
    twoArguments.length ≤ 22 ∧ ofTokens 22 0 twoArguments = .ok twoArgumentsTree ∧
      (∃ n, Derives n (.level 0) (twoArguments.map Located.token) twoArgumentsTree) ∧
      ∀ e, (∃ n, Derives n (.level 0) (twoArguments.map Located.token) e) →
        e = twoArgumentsTree := by
  have hlimit : twoArguments.length ≤ 22 := by decide
  obtain ⟨hiff, hunique, -⟩ := ofTokens_iff_derives 0 hlimit
  have hok : ofTokens 22 0 twoArguments = .ok twoArgumentsTree := by cbv
  have hderives := (hiff twoArgumentsTree).1 hok
  exact ⟨hlimit, hok, hderives, fun e h => hunique e twoArgumentsTree h hderives⟩

end Formulary.Expr
