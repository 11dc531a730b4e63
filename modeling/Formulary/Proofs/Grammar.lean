/-
  The grammar of formulas, by itself.

      expression = level 0
      level n    = level n operator level (n + 1)    for the operators of level n
                 | level (n + 1)
      level 6    = operand
      operand    = ("-" | "!") operand | element
      element    = element "[" expression "]" | primary
      primary    = number | text | reference | name | name "(" arguments ")"
                 | "[" items "]" | "(" expression ")"
      argument   = expression | name "->" expression | "(" names ")" "->" expression

  * `Grammar.joining`, `Grammar.leading`: the operators of each level between operands, and
    those before one;
  * `Derives`: tokens derive a tree, with so many levels of nesting at most;
  * `Derives.within`: as many levels as there are tokens are enough;
  * `Derives.opening`, `Derives.head`: how the tokens of an expression can start, and those
    of any part.
-/
import Formulary.Expr.Parser
import Mathlib.Data.List.Basic

namespace Formulary

namespace Grammar

/-- The signs between operands, with the operators that they stand for: those that bind the
loosest at level 0, and none from level 6 on. -/
def joining : Nat → List (Sign × BinaryOp)
  | 0 => [(.doubleOr, .or)]
  | 1 => [(.doubleAnd, .and)]
  | 2 => [(.doubleEqual, .eq), (.equal, .eq), (.bangEqual, .notEq), (.lessGreater, .notEq)]
  | 3 => [(.less, .lt), (.greater, .gt), (.lessEqual, .le), (.greaterEqual, .ge)]
  | 4 => [(.plus, .add), (.minus, .sub)]
  | 5 => [(.times, .mul), (.slash, .div)]
  | _ => []

/-- The signs before an operand, with the operators that they stand for. -/
def leading : List (Sign × UnaryOp) := [(.minus, .neg), (.bang, .not)]

/-- The constant that a bare name stands for, in any case of letters. -/
def constant? (name : String) : Option Value :=
  let lower := Text.lower name
  if lower = "true" then some (.boolean true)
  else if lower = "false" then some (.boolean false)
  else if lower = "null" then some .null
  else none

theorem joining_eq_nil {level : Nat} (h : 6 ≤ level) : joining level = [] := by
  obtain ⟨k, rfl⟩ := Nat.exists_eq_add_of_le' h
  rfl

end Grammar

/-- The parts of formulas. -/
inductive Phrase where
  /-- Operands with operators between them that bind so tightly at least. -/
  | level (n : Nat)
  | operand
  | element
  | primary
  | argument

/-- Tokens derive a tree as a part of a formula.  An expression, the operand of a prefix and
a lambda are one level below what they stand in. -/
inductive Derives : Nat → Phrase → List Token → Expr → Prop
  | operand {n : Nat} {ts : List Token} {e : Expr} :
      Derives n .operand ts e → Derives n (.level 6) ts e
  | tighter {n level : Nat} {ts : List Token} {e : Expr} :
      Derives n (.level (level + 1)) ts e → Derives n (.level level) ts e
  | binary {n level : Nat} {sign : Sign} {op : BinaryOp} {ts ts' : List Token}
      {left right : Expr} :
      (sign, op) ∈ Grammar.joining level → Derives n (.level level) ts left →
      Derives n (.level (level + 1)) ts' right →
        Derives n (.level level) (ts ++ .operator sign :: ts') (.binary op left right)
  | unary {n : Nat} {sign : Sign} {op : UnaryOp} {ts : List Token} {e : Expr} :
      (sign, op) ∈ Grammar.leading → Derives n .operand ts e →
        Derives (n + 1) .operand (.operator sign :: ts) (.unary op e)
  | element {n : Nat} {ts : List Token} {e : Expr} :
      Derives n .element ts e → Derives n .operand ts e
  | index {n : Nat} {ts ts' : List Token} {target position : Expr} :
      Derives (n + 1) .element ts target → Derives n (.level 0) ts' position →
        Derives (n + 1) .element (ts ++ .openBracket :: (ts' ++ [.closeBracket]))
          (.index target position)
  | primary {n : Nat} {ts : List Token} {e : Expr} :
      Derives n .primary ts e → Derives n .element ts e
  | number (n : Nat) (x : Number) : Derives (n + 1) .primary [.number x] (.literal (.number x))
  | text (n : Nat) (s : String) : Derives (n + 1) .primary [.text s] (.literal (.text s))
  | reference (n : Nat) {text : String} {path : Path} :
      Path.ofText text = .ok path →
        Derives (n + 1) .primary [.reference text] (.reference path)
  | constant (n : Nat) {name : String} {v : Value} :
      Grammar.constant? name = some v → Derives (n + 1) .primary [.identifier name] (.literal v)
  | name (n : Nat) {name : String} {path : Path} :
      Grammar.constant? name = none → Path.ofText name = .ok path →
        Derives (n + 1) .primary [.identifier name] (.reference path)
  | call {n : Nat} {name : String} {args : List (List Token × Expr)} :
      '.' ∉ name.toList → (∀ arg ∈ args, Derives n .argument arg.1 arg.2) →
        Derives (n + 1) .primary (.identifier name :: .openParen ::
          ([.comma].intercalate (args.map Prod.fst) ++ [.closeParen]))
          (.call name (args.map Prod.snd))
  | array {n : Nat} {items : List (List Token × Expr)} :
      (∀ item ∈ items, Derives n (.level 0) item.1 item.2) →
        Derives (n + 1) .primary (.openBracket ::
          ([.comma].intercalate (items.map Prod.fst) ++ [.closeBracket]))
          (.array (items.map Prod.snd))
  | group {n : Nat} {ts : List Token} {e : Expr} :
      Derives n (.level 0) ts e →
        Derives (n + 1) .primary (.openParen :: (ts ++ [.closeParen])) e
  | expression {n : Nat} {ts : List Token} {e : Expr} :
      Derives n (.level 0) ts e → Derives n .argument ts e
  | lambda {n : Nat} {name : String} {ts : List Token} {body : Expr} :
      '.' ∉ name.toList → Derives n (.level 0) ts body →
        Derives (n + 1) .argument (.identifier name :: .arrow :: ts) (.lambda [name] body)
  | lambdas {n : Nat} {names : List String} {ts : List Token} {body : Expr} :
      names ≠ [] → names.length ≤ 3 →
      (∀ name ∈ names, '.' ∉ name.toList) → Derives n (.level 0) ts body →
        Derives (n + 1) .argument (.openParen ::
          ((names.map Token.identifier).intersperse .comma ++ .closeParen :: .arrow :: ts))
          (.lambda names body)

namespace Derives

variable {n m : Nat} {phrase : Phrase} {ts : List Token} {e : Expr}

/-! ## Levels of nesting -/

theorem mono (h : Derives n phrase ts e) (hle : n ≤ m) : Derives m phrase ts e := by
  have hsucc {n m : Nat} (hle : n + 1 ≤ m) : ∃ m', n ≤ m' ∧ m = m' + 1 :=
    ⟨m - 1, by omega, by omega⟩
  induction h generalizing m with
  | operand _ ih => exact .operand (ih hle)
  | tighter _ ih => exact .tighter (ih hle)
  | binary hop _ _ ihl ihr => exact .binary hop (ihl hle) (ihr hle)
  | element _ ih => exact .element (ih hle)
  | primary _ ih => exact .primary (ih hle)
  | expression _ ih => exact .expression (ih hle)
  | unary hop _ ih =>
    obtain ⟨m, hle', rfl⟩ := hsucc hle
    exact .unary hop (ih hle')
  | index _ _ iht ihp =>
    obtain ⟨m, hle', rfl⟩ := hsucc hle
    exact .index (iht hle) (ihp hle')
  | number _ x =>
    obtain ⟨m, -, rfl⟩ := hsucc hle
    exact .number m x
  | text _ s =>
    obtain ⟨m, -, rfl⟩ := hsucc hle
    exact .text m s
  | reference _ hpath =>
    obtain ⟨m, -, rfl⟩ := hsucc hle
    exact .reference m hpath
  | constant _ hv =>
    obtain ⟨m, -, rfl⟩ := hsucc hle
    exact .constant m hv
  | name _ hv hpath =>
    obtain ⟨m, -, rfl⟩ := hsucc hle
    exact .name m hv hpath
  | call hname _ ih =>
    obtain ⟨m, hle', rfl⟩ := hsucc hle
    exact .call hname fun arg harg => ih arg harg hle'
  | array _ ih =>
    obtain ⟨m, hle', rfl⟩ := hsucc hle
    exact .array fun item hitem => ih item hitem hle'
  | group _ ih =>
    obtain ⟨m, hle', rfl⟩ := hsucc hle
    exact .group (ih hle')
  | lambda hname _ ih =>
    obtain ⟨m, hle', rfl⟩ := hsucc hle
    exact .lambda hname (ih hle')
  | lambdas hne hlength hnames _ ih =>
    obtain ⟨m, hle', rfl⟩ := hsucc hle
    exact .lambdas hne hlength hnames (ih hle')

theorem length_le_intercalate {items : List (List Token × Expr)} {item : List Token × Expr}
    (h : item ∈ items) :
    item.1.length ≤ ([Token.comma].intercalate (items.map Prod.fst)).length := by
  have hmem : item.1 ∈ (items.map Prod.fst).intersperse [Token.comma] := by
    obtain ⟨i, hget⟩ := List.getElem?_of_mem h
    exact List.mem_of_getElem? (i := 2 * i) (by simp [hget])
  exact (List.sublist_flatten_of_mem hmem).length_le

/-- As many levels of nesting as there are tokens are enough. -/
theorem within (h : Derives n phrase ts e) : Derives ts.length phrase ts e := by
  induction h with
  | operand _ ih => exact .operand ih
  | tighter _ ih => exact .tighter ih
  | element _ ih => exact .element ih
  | primary _ ih => exact .primary ih
  | expression _ ih => exact .expression ih
  | binary hop _ _ ihl ihr =>
    refine .binary hop (ihl.mono ?_) (ihr.mono ?_)
    · simp
    · simp only [List.length_append, List.length_cons]
      omega
  | unary hop _ ih => exact .unary hop ih
  | @index _ ts ts' _ _ _ _ iht ihp =>
    have h := Derives.index (iht.mono (by omega : _ ≤ ts.length + ts'.length + 1))
      (ihp.mono (by omega : _ ≤ ts.length + ts'.length))
    refine h.mono ?_
    simp only [List.length_append, List.length_cons, List.length_nil]
    omega
  | number _ x => exact .number 0 x
  | text _ s => exact .text 0 s
  | reference _ hpath => exact .reference 0 hpath
  | constant _ hv => exact .constant 0 hv
  | name _ hv hpath => exact .name 0 hv hpath
  | call hname _ ih =>
    refine .call hname fun arg harg => (ih arg harg).mono ?_
    have := length_le_intercalate harg
    simp only [List.length_append, List.length_cons]
    omega
  | array _ ih =>
    refine .array fun item hitem => (ih item hitem).mono ?_
    have := length_le_intercalate hitem
    simp only [List.length_append]
    omega
  | group _ ih => exact .group (ih.mono (by simp))
  | lambda hname _ ih => exact .lambda hname (ih.mono (by simp))
  | lambdas hne hlength hnames _ ih =>
    refine .lambdas hne hlength hnames (ih.mono ?_)
    simp only [List.length_append, List.length_cons]
    omega

/-- Operands of a level are operands of every looser one. -/
theorem looser {level level' : Nat} (h : Derives n (.level level') ts e) (hle : level ≤ level') :
    Derives n (.level level) ts e := by
  induction hle with
  | refl => exact h
  | step _ ih => exact ih (.tighter h)

theorem pos (h : Derives n phrase ts e) : 0 < n := by
  induction h with
  | operand _ ih => exact ih
  | tighter _ ih => exact ih
  | binary _ _ _ ihl _ => exact ihl
  | element _ ih => exact ih
  | primary _ ih => exact ih
  | expression _ ih => exact ih
  | _ => exact Nat.succ_pos _

end Derives

/-! ## The start of an expression -/

/-- Tokens that go on after an element. -/
inductive GoesOn : Token → Prop
  | operator (sign : Sign) : GoesOn (.operator sign)
  | openBracket : GoesOn .openBracket

theorem GoesOn.ne {t : Token} (h : GoesOn t) : t ≠ .arrow ∧ t ≠ .comma ∧ t ≠ .closeParen := by
  cases h with
  | operator sign => simp
  | openBracket => simp

/-- How an expression can start.  A name is called or nothing but an operator or an index
follows, and so it is with what stands in parentheses. -/
inductive Opening : List Token → Prop
  | name (name : String) {ts : List Token} :
      (∀ t ∈ ts.head?, t = .openParen ∨ GoesOn t) → Opening (.identifier name :: ts)
  | group {inner ts : List Token} :
      Opening inner → (∀ t ∈ ts.head?, GoesOn t) →
        Opening (.openParen :: (inner ++ .closeParen :: ts))
  | other {t : Token} (ts : List Token) :
      (∀ name, t ≠ .identifier name) → t ∉ [.openParen, .closeParen, .closeBracket] →
        Opening (t :: ts)

theorem Opening.append {t : Token} {ts : List Token} (h : Opening ts) (ht : GoesOn t)
    (ts' : List Token) : Opening (ts ++ t :: ts') := by
  cases h with
  | name name hnext =>
    refine .name name fun u hu => ?_
    rename_i ts
    cases ts with
    | nil => exact .inr (Option.some.inj hu ▸ ht)
    | cons _ _ => exact hnext u hu
  | @group inner ts hinner hnext =>
    rw [List.cons_append, List.append_assoc, List.cons_append]
    refine .group hinner fun u hu => ?_
    cases ts with
    | nil => exact Option.some.inj hu ▸ ht
    | cons _ _ => exact hnext u hu
  | other ts hname hparen => exact .other _ hname hparen

theorem Derives.opening {n : Nat} {phrase : Phrase} {ts : List Token} {e : Expr}
    (h : Derives n phrase ts e) (hphrase : phrase ≠ .argument) : Opening ts := by
  induction h with
  | operand _ ih => exact ih (by simp)
  | tighter _ ih => exact ih (by simp)
  | element _ ih => exact ih (by simp)
  | primary _ ih => exact ih (by simp)
  | binary _ _ _ ihl _ => exact (ihl (by simp)).append (.operator _) _
  | unary _ _ _ => exact .other _ (by simp) (by simp)
  | index _ _ iht _ => exact (iht (by simp)).append .openBracket _
  | number _ _ => exact .other _ (by simp) (by simp)
  | text _ _ => exact .other _ (by simp) (by simp)
  | reference _ _ => exact .other _ (by simp) (by simp)
  | constant _ _ => exact .name _ (by simp)
  | name _ _ _ => exact .name _ (by simp)
  | call _ _ _ => exact .name _ (by simp)
  | array _ _ => exact .other _ (by simp) (by simp)
  | group _ ih => exact .group (ih (by simp)) (by simp)
  | expression _ _ => exact absurd rfl hphrase
  | lambda _ _ _ => exact absurd rfl hphrase
  | lambdas _ _ _ _ _ => exact absurd rfl hphrase

/-- No part of a formula starts with a closing token. -/
theorem Derives.head {n : Nat} {phrase : Phrase} {ts : List Token} {e : Expr}
    (h : Derives n phrase ts e) : ∃ t ts', ts = t :: ts' ∧ t ≠ .closeParen ∧ t ≠ .closeBracket := by
  have hopening {ts : List Token} (h : Opening ts) :
      ∃ t ts', ts = t :: ts' ∧ t ≠ .closeParen ∧ t ≠ .closeBracket := by
    cases h with
    | name _ _ => exact ⟨_, _, rfl, by simp, by simp⟩
    | group _ _ => exact ⟨_, _, rfl, by simp, by simp⟩
    | other _ _ ht => exact ⟨_, _, rfl, by simp_all, by simp_all⟩
  by_cases hphrase : phrase = .argument
  · subst hphrase
    cases h with
    | expression h => exact hopening (h.opening (by simp))
    | lambda _ _ => exact ⟨_, _, rfl, by simp, by simp⟩
    | lambdas _ _ _ _ => exact ⟨_, _, rfl, by simp, by simp⟩
  · exact hopening (h.opening hphrase)

/-- An element starts with no sign. -/
theorem Derives.unsigned {n : Nat} {phrase : Phrase} {ts : List Token} {e : Expr}
    (h : Derives n phrase ts e) (hphrase : phrase = .element ∨ phrase = .primary) :
    ∀ t ∈ ts.head?, ∀ sign, t ≠ .operator sign := by
  induction h with
  | index ht _ iht _ =>
    obtain ⟨t, ts, rfl, -⟩ := ht.head
    exact iht (.inl rfl)
  | primary _ ih => exact ih (.inr rfl)
  | number _ _ => simp
  | text _ _ => simp
  | reference _ _ => simp
  | constant _ _ => simp
  | name _ _ _ => simp
  | call _ _ _ => simp
  | array _ _ => simp
  | group _ _ => simp
  | _ => simp at hphrase

/-- There are no levels above the operands. -/
theorem Derives.level_le {n level : Nat} {ts : List Token} {e : Expr}
    (h : Derives n (.level level) ts e) : level ≤ 6 := by
  generalize hphrase : Phrase.level level = phrase at h
  induction h generalizing level with
  | operand _ _ => exact Nat.le_of_eq (Phrase.level.inj hphrase)
  | tighter _ ih => exact Nat.le_of_succ_le (Phrase.level.inj hphrase ▸ ih rfl)
  | @binary _ level' _ _ _ _ _ _ hop _ _ _ _ =>
    obtain rfl := Phrase.level.inj hphrase
    by_contra hlevel
    simp [Grammar.joining_eq_nil (show 6 ≤ level by omega)] at hop
  | _ => simp at hphrase

end Formulary
