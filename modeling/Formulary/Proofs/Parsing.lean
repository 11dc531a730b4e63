/-
  What the parsers find, as relations.

  * `Parse.Is`: what was found, apart from the proof that tokens were taken;
  * `Parse.is_bind`: one parser after the other; and below, a lemma for each parser that
    tells what it finds by what its parts find.
-/
import Formulary.Proofs.Grammar

namespace Formulary.Parse

/-- What was found, apart from the proof that tokens were taken. -/
def Is {ρ : Type} {P : ρ → Prop} (found : Except ParseFailure { r : ρ // P r }) (r : ρ) : Prop :=
  ∃ h, found = .ok ⟨r, h⟩

section

variable {ρ ρ' : Type} {P : ρ → Prop} {Q : ρ' → Prop}

theorem is_ok {r r' : ρ} {h : P r} :
    Is (.ok ⟨r, h⟩ : Except ParseFailure { r : ρ // P r }) r' ↔ r = r' := by
  constructor
  · rintro ⟨h', heq⟩
    exact congrArg Subtype.val (Except.ok.inj heq)
  · rintro rfl
    exact ⟨h, rfl⟩

@[simp] theorem is_error {failure : ParseFailure} {r : ρ} :
    Is (.error failure : Except ParseFailure { r : ρ // P r }) r ↔ False :=
  ⟨nofun, False.elim⟩

@[simp] theorem is_fail {position : Nat} {cause : ParseCause} {r : ρ} :
    Is (fail position cause : Except ParseFailure { r : ρ // P r }) r ↔ False :=
  is_error

/-- What is found one after the other. -/
theorem is_bind {found : Except ParseFailure { r : ρ // P r }}
    {f : { r : ρ // P r } → Except ParseFailure { r : ρ' // Q r }} {r' : ρ'} {G : ρ → Prop}
    (hf : ∀ r h, Is (f ⟨r, h⟩) r' ↔ G r) : Is (found >>= f) r' ↔ ∃ r, Is found r ∧ G r := by
  cases found with
  | ok a =>
    constructor
    · exact fun h => ⟨a.1, ⟨a.2, rfl⟩, (hf a.1 a.2).1 h⟩
    · rintro ⟨r, h, hr⟩
      obtain rfl := is_ok.1 h
      exact (hf _ _).2 hr
  | error failure =>
    constructor
    · exact fun h => (is_error.1 h).elim
    · rintro ⟨r, h, -⟩
      exact (is_error.1 h).elim

end

variable {finish : Nat} {ts : List Located} {r : Expr × List Located}

theorem is_expect {token : Token} {what : Missing} {rest : List Located} :
    Is (expect finish token what ts) rest ↔ ∃ t, t.token = token ∧ ts = t :: rest := by
  unfold expect
  cases ts with
  | nil => simp
  | cons t rest' =>
    dsimp only
    split
    next h =>
      rw [is_ok]
      constructor
      · rintro rfl
        exact ⟨t, h, rfl⟩
      · rintro ⟨_, -, heq⟩
        exact (List.cons.inj heq).2
    next h =>
      rw [is_fail, false_iff]
      rintro ⟨_, ht, heq⟩
      exact h ((List.cons.inj heq).1 ▸ ht)

theorem is_after {t : Located} {found : Found Expr ts} :
    Is (after t found) r ↔ Is found r := by
  cases found with
  | ok a =>
    obtain ⟨a, h⟩ := a
    exact is_ok.trans is_ok.symm
  | error failure => exact is_error.trans is_error.symm

theorem is_only {t : Located} {found : Except ParseFailure Expr} :
    Is (only t ts found) r ↔ found = .ok r.1 ∧ r.2 = ts := by
  cases found with
  | ok e =>
    refine is_ok.trans ?_
    rw [Except.ok.injEq, Prod.ext_iff]
    exact and_congr_right' eq_comm
  | error failure => exact is_error.trans ⟨False.elim, fun h => by simp at h⟩

/-! ## Operators -/

/-- The operators of a level are those of the grammar. -/
theorem mem_joining_iff {level : Nat} {sign : Sign} {op : BinaryOp} :
    (sign, op) ∈ Grammar.joining level ↔ sign.binary? = some op ∧ op.level = level := by
  constructor
  · intro h
    have hall : ∀ entry ∈ Grammar.joining level,
        entry.1.binary? = some entry.2 ∧ entry.2.level = level := by
      match level with
      | 0 | 1 | 2 | 3 | 4 | 5 => decide
      | k + 6 => simp [Grammar.joining]
    exact hall _ h
  · rintro ⟨hop, rfl⟩
    cases sign with
    | bang => simp [Sign.binary?] at hop
    | _ =>
      obtain rfl := Option.some.inj hop
      decide

/-- So it is with those before an operand. -/
theorem mem_leading_iff {sign : Sign} {op : UnaryOp} :
    (sign, op) ∈ Grammar.leading ↔ sign.unary? = some op := by
  cases sign <;> cases op <;> decide

theorem operatorAt?_eq_some {level : Nat} {token : Token} {op : BinaryOp} :
    operatorAt? level token = some op ↔
      ∃ sign, token = .operator sign ∧ (sign, op) ∈ Grammar.joining level := by
  unfold operatorAt?
  split
  next sign =>
    rw [Option.filter_eq_some_iff, beq_iff_eq]
    simp [mem_joining_iff]
  next hsign =>
    simp only [reduceCtorEq, false_iff, not_and, not_exists]
    exact fun sign h => absurd h (hsign sign)

section

variable {level : Nat} {next : Parser Expr} {left : Expr}

/-- Where no operator of the level is next, nothing more is taken. -/
theorem is_moreOperands_done (h : ∀ t ∈ ts.head?, operatorAt? level t.token = none) :
    Is (moreOperands level next left ts) r ↔ (left, ts) = r := by
  cases ts with
  | nil =>
    rw [moreOperands.eq_def]
    exact is_ok
  | cons t rest =>
    rw [moreOperands.eq_def]
    dsimp only
    split
    next => exact is_ok
    next hop => exact absurd ((h t rfl).symm.trans hop) (by simp)

theorem is_moreOperands_cons {t : Located} {op : BinaryOp}
    (h : operatorAt? level t.token = some op) :
    Is (moreOperands level next left (t :: ts)) r ↔
      ∃ right, Is (next ts) right ∧
        Is (moreOperands level next (.binary op left right.1) right.2) r := by
  rw [moreOperands.eq_def]
  dsimp only
  split
  next hop => exact absurd (h.symm.trans hop) (by simp)
  next hop =>
    obtain rfl := Option.some.inj (h.symm.trans hop)
    refine is_bind fun right _ => (is_bind fun r' _ => ?_).trans exists_eq_right
    exact is_ok

theorem is_binaryLevel :
    Is (binaryLevel level next ts) r ↔
      ∃ left, Is (next ts) left ∧ Is (moreOperands level next left.1 left.2) r := by
  unfold binaryLevel
  refine is_bind fun ⟨left, rest⟩ _ => (is_bind fun r' _ => ?_).trans exists_eq_right
  exact is_ok

end

/-! ## Lists -/

section

variable {first next : Parser Expr} {rs : List Expr × List Located}

theorem is_moreItems_done (h : ∀ t ∈ ts.head?, t.token ≠ .comma) :
    Is (moreItems next ts) rs ↔ ([], ts) = rs := by
  rw [moreItems.eq_def]
  split
  next => exact absurd rfl (h _ rfl)
  next => exact is_ok

theorem is_moreItems_cons {t : Located} (h : t.token = .comma) :
    Is (moreItems next (t :: ts)) rs ↔
      ∃ item, Is (next ts) item ∧ ∃ items, Is (moreItems next item.2) items ∧
        (item.1 :: items.1, items.2) = rs := by
  obtain ⟨token, position⟩ := t
  obtain rfl : token = .comma := h
  rw [moreItems.eq_def]
  refine is_bind fun ⟨item, rest⟩ _ => is_bind fun ⟨items, rest'⟩ _ => ?_
  exact is_ok

theorem isNext_iff {token : Token} :
    isNext token ts = true ↔ ∃ t rest, ts = t :: rest ∧ t.token = token := by
  cases ts with
  | nil => simp [isNext]
  | cons t rest => simp [isNext]

theorem is_items {closing : Token} :
    Is (items closing first next ts) rs ↔
      if isNext closing ts = true then ([], ts) = rs
      else ∃ item, Is (first ts) item ∧ ∃ items, Is (moreItems next item.2) items ∧
        (item.1 :: items.1, items.2) = rs := by
  unfold items
  split
  next => exact is_ok
  next =>
    refine is_bind fun ⟨item, rest⟩ _ => is_bind fun ⟨items, rest'⟩ _ => ?_
    exact is_ok

theorem is_listUntil {closing : Token} {what : Missing} :
    Is (listUntil finish closing what first next ts) rs ↔
      ∃ found, Is (items closing first next ts) found ∧
        ∃ t, t.token = closing ∧ found.1 = rs.1 ∧ found.2 = t :: rs.2 := by
  have hsteps : Is (listUntil finish closing what first next ts) rs ↔
      ∃ found, Is (items closing first next ts) found ∧
        ∃ rest, Is (expect finish closing what found.2) rest ∧ (found.1, rest) = rs := by
    unfold listUntil
    refine is_bind fun ⟨found, rest⟩ _ => is_bind fun rest' _ => ?_
    exact is_ok
  rw [hsteps]
  simp only [is_expect]
  constructor
  · rintro ⟨found, hfound, rest, ⟨t, ht, htokens⟩, rfl⟩
    exact ⟨found, hfound, t, ht, rfl, htokens⟩
  · rintro ⟨found, hfound, t, ht, hitems, htokens⟩
    exact ⟨found, hfound, rs.2, ⟨t, ht, htokens⟩, Prod.ext hitems rfl⟩

theorem is_laterItem :
    Is (laterItem first ts) r ↔ isNext .closeBracket ts = false ∧ Is (first ts) r := by
  unfold laterItem
  split
  next => simp [isNext]
  next h =>
    refine (and_iff_right ?_).symm
    rw [Bool.eq_false_iff, ne_eq, isNext_iff]
    rintro ⟨⟨token, position⟩, rest, rfl, ht⟩
    exact h position rest (by rw [← ht])

end

/-! ## Lambdas and arguments -/

theorem isDotted_eq_false {name : String} : isDotted name = false ↔ '.' ∉ name.toList := by
  simp [isDotted]

section

variable {expression : Parser Expr}

theorem is_lambda :
    Is (lambda finish expression ts) r ↔
      ∃ params rest, lambdaHead? ts = some (params, rest) ∧
        (∀ param ∈ params, '.' ∉ param.1.toList) ∧ params.length ≤ 3 ∧
        ∃ body, Is (expression rest) body ∧
          (.lambda (params.map Prod.fst) body.1, body.2) = r := by
  unfold lambda
  split
  next hhead => simp [hhead]
  next params rest hhead =>
    have hparts {params' rest'} (h : lambdaHead? ts = some (params', rest')) :
        params = params' ∧ rest = rest' := Prod.mk.inj (Option.some.inj (hhead.symm.trans h))
    have hall : (params.find? fun param => isDotted param.1) = none ↔
        ∀ param ∈ params, '.' ∉ param.1.toList := by
      simp only [List.find?_eq_none, Bool.not_eq_true, isDotted_eq_false]
    split
    next hdotted =>
      rw [is_fail, false_iff]
      rintro ⟨_, _, heq, hundotted, -⟩
      obtain ⟨rfl, rfl⟩ := hparts heq
      exact absurd (hdotted.symm.trans (hall.2 hundotted)) (by simp)
    next hundotted =>
      split
      next hmany =>
        rw [is_fail, false_iff]
        rintro ⟨_, _, heq, -, hfew, -⟩
        obtain ⟨rfl, rfl⟩ := hparts heq
        exact absurd hfew (Nat.not_le.2 hmany)
      next hfew =>
        refine Iff.trans (b := ∃ body, Is (expression rest) body ∧
          (.lambda (params.map Prod.fst) body.1, body.2) = r) ?_ ⟨fun h => ?_, ?_⟩
        · refine is_bind fun ⟨body, rest'⟩ _ => ?_
          exact is_ok
        · exact ⟨params, rest, hhead, hall.1 hundotted, Nat.not_lt.1 hfew, h⟩
        · rintro ⟨_, _, heq, -, -, h⟩
          obtain ⟨rfl, rfl⟩ := hparts heq
          exact h

variable {nested : Nested}

theorem is_argument :
    Is (argument nested ts) r ↔
      if (lambdaHead? ts).isSome = true then Is (nested.lambda ts) r
      else Is (nested.expression ts) r := by
  unfold argument
  split
  next => rfl
  next => rfl

/-! ## Primaries -/

theorem path_eq_ok {position : Nat} {text : String} {e : Expr} :
    path position text = .ok e ↔ ∃ path, Path.ofText text = .ok path ∧ .reference path = e := by
  unfold path
  cases Path.ofText text with
  | ok path => simp
  | error cause => simp [fail]

theorem name_eq_ok {position : Nat} {text : String} {e : Expr} :
    name position text = .ok e ↔
      match Grammar.constant? text with
      | some v => .literal v = e
      | none => ∃ path, Path.ofText text = .ok path ∧ .reference path = e := by
  unfold name Grammar.constant?
  dsimp only
  split
  · simp
  · split
    · simp
    · split
      · simp
      · exact path_eq_ok

theorem is_call {name : String} {position : Nat} :
    Is (call finish nested name position ts) r ↔
      '.' ∉ name.toList ∧
        ∃ args, Is (listUntil finish .closeParen .parenAfterArguments (argument nested)
            (argument nested) ts) args ∧ (.call name args.1, args.2) = r := by
  rw [← isDotted_eq_false]
  unfold call
  cases isDotted name with
  | true => simp
  | false =>
    refine Iff.trans ?_ (and_iff_right rfl).symm
    exact is_bind fun ⟨args, rest⟩ _ => is_ok

theorem is_array :
    Is (array finish expression ts) r ↔
      ∃ items, Is (listUntil finish .closeBracket .bracketAfterItems expression
        (laterItem expression) ts) items ∧ (.array items.1, items.2) = r := by
  unfold array
  exact is_bind fun ⟨items, rest⟩ _ => is_ok

theorem is_group :
    Is (group finish expression ts) r ↔
      ∃ t, t.token = .closeParen ∧ Is (expression ts) (r.1, t :: r.2) := by
  have hsteps : Is (group finish expression ts) r ↔
      ∃ inner, Is (expression ts) inner ∧
        ∃ rest, Is (expect finish .closeParen .parenAfterExpression inner.2) rest ∧
          (inner.1, rest) = r := by
    unfold group
    refine is_bind fun ⟨inner, rest⟩ _ => is_bind fun rest' _ => ?_
    exact is_ok
  rw [hsteps]
  simp only [is_expect]
  constructor
  · rintro ⟨⟨inner, _⟩, hinner, rest, ⟨t, ht, rfl⟩, rfl⟩
    exact ⟨t, ht, hinner⟩
  · rintro ⟨t, ht, hinner⟩
    exact ⟨_, hinner, _, ⟨t, ht, rfl⟩, rfl⟩

theorem is_primary {t : Located} :
    Is (primary finish nested (t :: ts)) r ↔
      match t.token with
      | .number x => (.literal (.number x), ts) = r
      | .text s => (.literal (.text s), ts) = r
      | .reference text => path t.position text = .ok r.1 ∧ r.2 = ts
      | .identifier text =>
        if isNext .openParen ts = true then Is (call finish nested text t.position ts.tail) r
        else name t.position text = .ok r.1 ∧ r.2 = ts
      | .openBracket => Is (array finish nested.expression ts) r
      | .openParen => Is (group finish nested.expression ts) r
      | _ => False := by
  have hliteral (t : Located) (v : Value) :
      Is (only t ts (.ok (.literal v))) r ↔ (.literal v, ts) = r := by
    rw [is_only, Except.ok.injEq, Prod.ext_iff]
    exact and_congr_right' eq_comm
  obtain ⟨token, position⟩ := t
  cases token with
  | number x => exact hliteral _ _
  | text s => exact hliteral _ _
  | reference text => exact is_only
  | openBracket => exact is_after
  | openParen => exact is_after
  | identifier text =>
    unfold primary
    dsimp only
    split
    next p rest =>
      have hnext : isNext .openParen (⟨.openParen, p⟩ :: rest) = true :=
        isNext_iff.2 ⟨_, _, rfl, rfl⟩
      rw [if_pos hnext]
      exact is_after.trans is_after
    next hnext =>
      rw [if_neg]
      · exact is_only
      · rw [isNext_iff]
        rintro ⟨⟨token, p⟩, rest, rfl, htoken⟩
        obtain rfl : token = .openParen := htoken
        exact hnext p rest rfl
  | operator _ => exact is_fail
  | closeParen => exact is_fail
  | closeBracket => exact is_fail
  | comma => exact is_fail
  | arrow => exact is_fail

/-! ## Operands -/

theorem is_moreIndices_done {target : Expr} (h : ∀ t ∈ ts.head?, t.token ≠ .openBracket) :
    Is (moreIndices finish expression target ts) r ↔ (target, ts) = r := by
  rw [moreIndices.eq_def]
  split
  next => exact absurd rfl (h _ rfl)
  next => exact is_ok

theorem is_moreIndices_cons {target : Expr} {t : Located} (h : t.token = .openBracket) :
    Is (moreIndices finish expression target (t :: ts)) r ↔
      ∃ index t' rest, Is (expression ts) (index, t' :: rest) ∧ t'.token = .closeBracket ∧
        Is (moreIndices finish expression (.index target index) rest) r := by
  obtain ⟨token, position⟩ := t
  obtain rfl : token = .openBracket := h
  have hsteps : Is (moreIndices finish expression target (⟨.openBracket, position⟩ :: ts)) r ↔
      ∃ index, Is (expression ts) index ∧
        ∃ rest, Is (expect finish .closeBracket .bracketAfterIndex index.2) rest ∧
          Is (moreIndices finish expression (.index target index.1) rest) r := by
    rw [moreIndices.eq_def]
    refine is_bind fun ⟨index, rest⟩ _ => is_bind fun rest' _ =>
      (is_bind fun r' _ => ?_).trans exists_eq_right
    exact is_ok
  rw [hsteps]
  simp only [is_expect]
  constructor
  · rintro ⟨⟨index, _⟩, hindex, rest, ⟨t', ht', rfl⟩, hmore⟩
    exact ⟨index, t', rest, hindex, ht', hmore⟩
  · rintro ⟨index, t', rest, hindex, ht', hmore⟩
    exact ⟨_, hindex, rest, ⟨t', ht', rfl⟩, hmore⟩

theorem is_element :
    Is (element finish nested ts) r ↔
      ∃ target, Is (primary finish nested ts) target ∧
        Is (moreIndices finish nested.expression target.1 target.2) r := by
  unfold element
  refine is_bind fun ⟨target, rest⟩ _ => (is_bind fun r' _ => ?_).trans exists_eq_right
  exact is_ok

theorem unaryAt?_eq_some {token : Token} {op : UnaryOp} :
    unaryAt? token = some op ↔
      ∃ sign, token = .operator sign ∧ (sign, op) ∈ Grammar.leading := by
  unfold unaryAt?
  split
  next sign => simp [mem_leading_iff]
  next hsign =>
    simp only [reduceCtorEq, false_iff, not_exists, not_and]
    exact fun sign h => absurd h (hsign sign)

theorem is_operand_unary {t : Located} {op : UnaryOp} (h : unaryAt? t.token = some op) :
    Is (operand finish nested (t :: ts)) r ↔
      ∃ e, Is (nested.operand ts) e ∧ (.unary op e.1, e.2) = r := by
  unfold operand
  simp only [h]
  refine is_after.trans ?_
  cases nested.operand ts with
  | ok a =>
    obtain ⟨a, ha⟩ := a
    refine is_ok.trans ?_
    simp [is_ok]
  | error failure => simp [Except.map]

theorem is_operand_element (h : ∀ t ∈ ts.head?, unaryAt? t.token = none) :
    Is (operand finish nested ts) r ↔ Is (element finish nested ts) r := by
  cases ts with
  | nil => rfl
  | cons t rest =>
    unfold operand
    simp only [h t rfl]

end

end Formulary.Parse
