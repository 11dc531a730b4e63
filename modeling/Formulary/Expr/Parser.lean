/-
  Reading an expression from tokens.

      expression = operand (operator operand)*          by level of the operator
      operand    = ("-" | "!") operand | element
      element    = primary ("[" expression "]")*
      primary    = number | text | reference | constant | name "(" arguments ")"
                 | "[" items "]" | "(" expression ")"
      argument   = parameters "->" expression | expression

  Every parser takes at least one token, which its type says, so repetitions end.
  Expressions inside expressions are entered through `Nested`, whose values count
  down the room that is left below the limit of nesting.

  * `Expr.ofTokens`: the expression that the tokens of a text denote;
  * `Expr.ofText`: the expression that a text denotes.
-/
import Formulary.Expr
import Formulary.Text.Casing
import Formulary.Token.Lexer

namespace Formulary

namespace Parse

/-! ## Parsers -/

/-- What a parser found in front of the tokens that it left, fewer than before. -/
abbrev Found (α : Type) (ts : List Located) : Type :=
  Except ParseFailure { r : α × List Located // r.2.length < ts.length }

/-- A parser takes tokens off the front and leaves fewer. -/
abbrev Parser (α : Type) : Type := (ts : List Located) → Found α ts

/-- What a repetition found, which may be nothing. -/
abbrev FoundMany (α : Type) (ts : List Located) : Type :=
  Except ParseFailure { r : α × List Located // r.2.length ≤ ts.length }

/-- The place of the next token, or the end of the text. -/
def place (finish : Nat) : List Located → Nat
  | t :: _ => t.position
  | [] => finish

def fail {α : Type} (position : Nat) (cause : ParseCause) : Except ParseFailure α :=
  .error ⟨position, cause⟩

/-- The tokens after one that has to follow. -/
def expect (finish : Nat) (token : Token) (what : Missing) (ts : List Located) :
    Except ParseFailure { rest : List Located // rest.length < ts.length } :=
  match ts with
  | t :: rest =>
    if t.token = token then .ok ⟨rest, Nat.lt_succ_self _⟩
    else fail t.position (.missing what)
  | [] => fail finish (.missing what)

/-- The parsers of what stands one level deeper. -/
structure Nested where
  expression : Parser Expr
  operand : Parser Expr
  lambda : Parser Expr

/-! ## Operators -/

/-- The operator of a level that a token stands for. -/
def operatorAt? (level : Nat) : Token → Option BinaryOp
  | .operator sign => sign.binary?.filter fun op => op.level == level
  | _ => none

/-- More operands of a level, taken together from the left. -/
def moreOperands (level : Nat) (next : Parser Expr) (left : Expr) (ts : List Located) :
    FoundMany Expr ts :=
  match ts with
  | [] => .ok ⟨(left, []), Nat.le_refl _⟩
  | t :: rest =>
    match operatorAt? level t.token with
    | none => .ok ⟨(left, t :: rest), Nat.le_refl _⟩
    | some op => do
      let ⟨(right, rest'), h⟩ ← next rest
      let ⟨r, h'⟩ ← moreOperands level next (.binary op left right) rest'
      return ⟨r, by simp only [List.length_cons] at *; omega⟩
termination_by ts.length
decreasing_by simp only [List.length_cons] at *; omega

/-- Operands of a level with its operators between them. -/
def binaryLevel (level : Nat) (next : Parser Expr) : Parser Expr := fun ts => do
  let ⟨(left, rest), h⟩ ← next ts
  let ⟨r, h'⟩ ← moreOperands level next left rest
  return ⟨r, by simp only at *; omega⟩

/-- An operand with operators of all levels after it. -/
def operators (operand : Parser Expr) : Parser Expr :=
  BinaryOp.levels.foldr binaryLevel operand

/-! ## Lists -/

/-- More items, each after a comma. -/
def moreItems (next : Parser Expr) (ts : List Located) : FoundMany (List Expr) ts :=
  match ts with
  | ⟨.comma, _⟩ :: rest => do
    let ⟨(item, rest'), h⟩ ← next rest
    let ⟨(items, rest''), h'⟩ ← moreItems next rest'
    return ⟨(item :: items, rest''), by simp only [List.length_cons] at *; omega⟩
  | ts => .ok ⟨([], ts), Nat.le_refl _⟩
termination_by ts.length
decreasing_by simp only [List.length_cons] at *; omega

/-- Whether a token is the next one. -/
def isNext (token : Token) : List Located → Bool
  | t :: _ => t.token == token
  | [] => false

/-- Items with commas between them; there are none if the closing token is next. -/
def items (closing : Token) (first next : Parser Expr) (ts : List Located) :
    FoundMany (List Expr) ts :=
  if isNext closing ts then .ok ⟨([], ts), Nat.le_refl _⟩
  else do
    let ⟨(item, rest), h⟩ ← first ts
    let ⟨(items, rest'), h'⟩ ← moreItems next rest
    return ⟨(item :: items, rest'), by simp only at *; omega⟩

/-- Items and the closing token. -/
def listUntil (finish : Nat) (closing : Token) (what : Missing) (first next : Parser Expr) :
    Parser (List Expr) := fun ts => do
  let ⟨(found, rest), h⟩ ← items closing first next ts
  let ⟨rest', h'⟩ ← expect finish closing what rest
  return ⟨(found, rest'), by simp only at *; omega⟩

/-- An item of an array after a comma, where the array may not end. -/
def laterItem (expression : Parser Expr) : Parser Expr
  | ⟨.closeBracket, position⟩ :: _ => fail position .commaBeforeBracket
  | ts => expression ts

/-! ## Lambdas -/

/-- The parameters of a lambda between parentheses, if that is what the tokens
after the first parenthesis are, and the tokens after its arrow. -/
def parameterList? : List Located → Option (List (String × Nat) × List Located)
  | ⟨.identifier name, position⟩ :: ⟨.comma, _⟩ :: rest =>
    (parameterList? rest).map fun r => ((name, position) :: r.1, r.2)
  | ⟨.identifier name, position⟩ :: ⟨.closeParen, _⟩ :: ⟨.arrow, _⟩ :: rest =>
    some ([(name, position)], rest)
  | _ => none

/-- The parameters of a lambda with their places, if the tokens start with one,
and the tokens after its arrow. -/
def lambdaHead? : List Located → Option (List (String × Nat) × List Located)
  | ⟨.identifier name, position⟩ :: ⟨.arrow, _⟩ :: rest => some ([(name, position)], rest)
  | ⟨.openParen, _⟩ :: rest => parameterList? rest
  | _ => none

theorem parameterList?_shorter {ts rest : List Located} {params : List (String × Nat)}
    (h : parameterList? ts = some (params, rest)) : rest.length < ts.length := by
  fun_induction parameterList? ts generalizing params rest with
  | case1 name position p rest' ih =>
    obtain ⟨⟨params', rest''⟩, hr, he⟩ := Option.map_eq_some_iff.1 h
    have := ih hr
    simp only [Prod.mk.injEq] at he
    simp only [List.length_cons, ← he.2]; omega
  | case2 => simp_all only [Option.some.injEq, Prod.mk.injEq, List.length_cons]; omega
  | case3 => simp at h

theorem lambdaHead?_shorter {ts rest : List Located} {params : List (String × Nat)}
    (h : lambdaHead? ts = some (params, rest)) : rest.length < ts.length := by
  unfold lambdaHead? at h
  split at h
  · simp_all only [Option.some.injEq, Prod.mk.injEq, List.length_cons]; omega
  · have := parameterList?_shorter h
    simp only [List.length_cons]; omega
  · simp at h

def isDotted (name : String) : Bool := name.toList.contains '.'

/-- A lambda: at most three parameters without dots, and its body. -/
def lambda (finish : Nat) (expression : Parser Expr) : Parser Expr := fun ts =>
  match h : lambdaHead? ts with
  | none => fail (place finish ts) .badParameter
  | some (params, rest) =>
    match params.find? fun param => isDotted param.1 with
    | some (_, position) => fail position .badParameter
    | none =>
      if maxParameters < params.length then fail (place finish ts) .tooManyParameters
      else do
        let ⟨(body, rest'), h'⟩ ← expression rest
        return ⟨(.lambda (params.map Prod.fst) body, rest'), by
          have := lambdaHead?_shorter h
          simp only at *; omega⟩

/-- An argument: a lambda, where its head stands, and otherwise an expression. -/
def argument (nested : Nested) : Parser Expr := fun ts =>
  if (lambdaHead? ts).isSome then nested.lambda ts else nested.expression ts

/-! ## Primaries -/

/-- The path that a text denotes. -/
def path (position : Nat) (text : String) : Except ParseFailure Expr :=
  match Path.ofText text with
  | .ok path => .ok (.reference path)
  | .error cause => fail position (.path cause)

/-- What a bare name stands for: a constant in any case of letters, or a path. -/
def name (position : Nat) (text : String) : Except ParseFailure Expr :=
  let lower := Text.lower text
  if lower = "true" then .ok (.literal (.boolean true))
  else if lower = "false" then .ok (.literal (.boolean false))
  else if lower = "null" then .ok (.literal .null)
  else path position text

/-- The arguments of a call, after its parenthesis. -/
def call (finish : Nat) (nested : Nested) (name : String) (position : Nat) : Parser Expr :=
  fun ts =>
    if isDotted name then fail position (.dottedFunction name)
    else do
      let ⟨(args, rest), h⟩ ← listUntil finish .closeParen .parenAfterArguments
        (argument nested) (argument nested) ts
      return ⟨(.call name args, rest), h⟩

/-- The items of an array, after its bracket. -/
def array (finish : Nat) (expression : Parser Expr) : Parser Expr := fun ts => do
  let ⟨(items, rest), h⟩ ← listUntil finish .closeBracket .bracketAfterItems
    expression (laterItem expression) ts
  return ⟨(.array items, rest), h⟩

/-- An expression in parentheses, after the first of them. -/
def group (finish : Nat) (expression : Parser Expr) : Parser Expr := fun ts => do
  let ⟨(inner, rest), h⟩ ← expression ts
  let ⟨rest', h'⟩ ← expect finish .closeParen .parenAfterExpression rest
  return ⟨(inner, rest'), by simp only at *; omega⟩

/-- What was found after the token `t` was taken. -/
def after (t : Located) {rest : List Located} (found : Found Expr rest) :
    Found Expr (t :: rest) :=
  found.map fun ⟨r, h⟩ => ⟨r, Nat.lt_succ_of_lt h⟩

/-- The token `t` alone was taken. -/
def only (t : Located) (rest : List Located) (found : Except ParseFailure Expr) :
    Found Expr (t :: rest) :=
  found.map fun e => ⟨(e, rest), Nat.lt_succ_self _⟩

def primary (finish : Nat) (nested : Nested) : Parser Expr
  | [] => fail finish .unexpectedEnd
  | t :: rest =>
    match t.token with
    | .number x => only t rest (.ok (.literal (.number x)))
    | .text s => only t rest (.ok (.literal (.text s)))
    | .reference text => only t rest (path t.position text)
    | .identifier text =>
      match rest with
      | ⟨.openParen, p⟩ :: rest' =>
        after t (after ⟨.openParen, p⟩ (call finish nested text t.position rest'))
      | rest => only t rest (name t.position text)
    | .openBracket => after t (array finish nested.expression rest)
    | .openParen => after t (group finish nested.expression rest)
    | token => fail t.position (.strayToken token)

/-! ## Operands -/

/-- More indices, each between brackets. -/
def moreIndices (finish : Nat) (expression : Parser Expr) (target : Expr) (ts : List Located) :
    FoundMany Expr ts :=
  match ts with
  | ⟨.openBracket, _⟩ :: rest => do
    let ⟨(index, rest'), h⟩ ← expression rest
    let ⟨rest'', h'⟩ ← expect finish .closeBracket .bracketAfterIndex rest'
    let ⟨r, h''⟩ ← moreIndices finish expression (.index target index) rest''
    return ⟨r, by simp only [List.length_cons] at *; omega⟩
  | ts => .ok ⟨(target, ts), Nat.le_refl _⟩
termination_by ts.length
decreasing_by simp only [List.length_cons] at *; omega

/-- A primary with its indices. -/
def element (finish : Nat) (nested : Nested) : Parser Expr := fun ts => do
  let ⟨(target, rest), h⟩ ← primary finish nested ts
  let ⟨r, h'⟩ ← moreIndices finish nested.expression target rest
  return ⟨r, by simp only at *; omega⟩

/-- The operator that a token stands for before an operand. -/
def unaryAt? : Token → Option UnaryOp
  | .operator sign => sign.unary?
  | _ => none

/-- An operand: an operator before an operand one level deeper, or an element. -/
def operand (finish : Nat) (nested : Nested) : Parser Expr
  | [] => element finish nested []
  | t :: rest =>
    match unaryAt? t.token with
    | some op => after t <| (nested.operand rest).map fun ⟨(e, rest'), h⟩ =>
        ⟨(.unary op e, rest'), h⟩
    | none => element finish nested (t :: rest)

/-! ## Nesting -/

/-- Nothing can stand below the limit. -/
def atLimit (limit finish : Nat) : Parser Expr := fun ts =>
  fail (place finish ts) (.tooDeep limit)

/-- The parsers of what stands one level deeper, with room for so many levels.
A level is made only when tokens are given to it, so a limit may be far beyond the
depth of any text. -/
def nested (limit finish : Nat) : Nat → Nested
  | 0 => ⟨atLimit limit finish, atLimit limit finish, atLimit limit finish⟩
  | room + 1 =>
    { expression := fun ts => operators (operand finish (nested limit finish room)) ts
      operand := fun ts => operand finish (nested limit finish room) ts
      lambda := fun ts => lambda finish (nested limit finish room).expression ts }

end Parse

namespace Expr

/-- The expression that the tokens of a text denote; the text ends at `finish`. -/
def ofTokens (limit finish : Nat) (ts : List Located) : Except ParseFailure Expr :=
  if ts.isEmpty then Parse.fail 0 .emptyFormula
  else do
    let ⟨(e, rest), _⟩ ← (Parse.nested limit finish limit).expression ts
    match rest with
    | [] => return e
    | t :: _ => Parse.fail t.position (.tokenAfterEnd t.token)

/-- The expression that a text denotes, nested up to a limit. -/
def ofText (limit : Nat) (text : String) : Except ParseFailure Expr := do
  let ts ← tokenize text
  ofTokens limit text.length ts

end Expr
end Formulary
