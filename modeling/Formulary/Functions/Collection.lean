/-
  Functions of arrays: `map`, `filter`, `find`, `some`, `every`, `reduce`,
  `flatMap`, `countIf`, `flat`, `unique`, `sort`.

  * `visited`: the items of an array with what a lambda makes of them, up to the
    first result that settles the matter; most functions read their result off
    this list;
  * `flatten`, `distinct`, `sorted?`: the functions without a lambda.
-/
import Formulary.Functions.Text

namespace Formulary.Functions

/-! ## Lambdas over arrays -/

/-- The items with what a lambda makes of each and its index.  Nothing after the
first result that `settles` accepts is visited. -/
def visited (f : Lambda) (settles : Value → Bool) : Nat → List Value →
    Evaluation (List (Value × Value))
  | _, [] => return []
  | index, item :: rest => do
    let result ← f.call [item, .count index]
    if settles result then return [(item, result)]
    else do
      let later ← visited f settles (index + 1) rest
      return (item, result) :: later

/-- A function of an array and a lambda that reads its result off the visits. -/
def visiting (name : String) (settles : Value → Bool) (read : List (Value × Value) → Value)
    (a b : Argument) : Evaluation Value := do
  let items ← a.collection name
  let f ← b.asLambda name 2
  return read (← visited f settles 0 items)

/-- No result settles the matter. -/
def never (_ : Value) : Bool := false

/-- Whether the lambda accepted the item of a visit. -/
def accepted (visit : Value × Value) : Bool := visit.2.isTruthy

def mapFunction : Builtin := .two "map" <| visiting "map" never fun visits =>
  .array (visits.map Prod.snd)

def filterFunction : Builtin := .two "filter" <| visiting "filter" never fun visits =>
  .array ((visits.filter accepted).map Prod.fst)

/-- The first item that is accepted, or null. -/
def findFunction : Builtin := .two "find" <| visiting "find" Value.isTruthy fun visits =>
  match visits.find? accepted with
  | some visit => visit.1
  | none => .null

def someFunction : Builtin := .two "some" <| visiting "some" Value.isTruthy fun visits =>
  .boolean (visits.any accepted)

def everyFunction : Builtin := .two "every" <| visiting "every" (fun v => !v.isTruthy)
  fun visits => .boolean (visits.all accepted)

/-- What a result adds to an array: the items of an array, and otherwise itself. -/
def spliced : Value → List Value
  | .array items => items
  | v => [v]

def flatMapFunction : Builtin := .two "flatMap" <| visiting "flatMap" never fun visits =>
  .array (visits.flatMap fun visit => spliced visit.2)

/-- The lambda of an accumulator, an item and its index along an array. -/
def folded (f : Lambda) : Nat → List Value → Value → Evaluation Value
  | _, [], acc => return acc
  | index, item :: rest, acc => do
    let acc' ← f.call [acc, item, .count index]
    folded f (index + 1) rest acc'

def reduceFunction : Builtin := .three "reduce" fun a b c => do
  let items ← a.collection "reduce"
  let f ← b.asLambda "reduce" 3
  folded f 0 items (← c.value)

/-! ## Counting -/

/-- Whether an item meets a criterion: a text contains it up to the case of
letters, values of one kind are equal, and others have equal texts. -/
def meets (item criterion : Value) : Bool :=
  match item, criterion with
  | .text s, .text part => containsText s part
  | .number x, .number y => x.eq y
  | .boolean a, .boolean b => a == b
  | .null, .null => true
  | item, criterion => item.display == criterion.display

/-- Counts the items that a lambda accepts or that meet a criterion. -/
def countIfFunction : Builtin := .two "countIf" fun a b => do
  if b.lambda?.isSome then
    visiting "countIf" never (fun visits => .count (visits.countP accepted)) a b
  else
    let items ← a.collection "countIf"
    let criterion ← b.value
    return .count (items.countP fun item => meets item criterion)

/-! ## Functions without lambdas -/

/-- The items with arrays replaced by their items, down to a depth. -/
def flatten : Nat → List Value → List Value
  | 0, items => items
  | depth + 1, items => items.flatMap fun
    | .array inner => flatten depth inner
    | v => [v]

/-- A depth, if a number is one. -/
def depth? (x : Number) : Option Nat :=
  if x.isWhole && !x.lt Number.zero then some x.whole.toNat else none

def flatFunction : Builtin := .oneOrTwo "flat" fun a b => do
  let items ← a.collection "flat"
  match b with
  | none => return .array (flatten 1 items)
  | some b =>
    match depth? (← b.number "flat") with
    | some depth => return .array (flatten depth items)
    | none => .raise (.domain "flat" "Depth must be a non-negative integer")

/-- The items that are not like one kept before them, after the items `kept`. -/
def distinct (kept : List Value) : List Value → List Value
  | [] => kept
  | item :: rest =>
    if kept.any fun v => v.alike item then distinct kept rest
    else distinct (kept ++ [item]) rest

def uniqueFunction : Builtin := .one "unique" fun a => do
  return .array (distinct [] (← a.collection "unique"))

/-- Whether values of a kind can be put in order. -/
def isSortable : Value → Bool
  | .number _ | .text _ | .date _ => true
  | _ => false

/-- The order of numbers, texts and dates: numbers by the total order, which tells
all of them apart, texts by their characters, dates by time. -/
def notAfter : Value → Value → Bool
  | .number x, .number y => x.rank ≤ y.rank
  | .text s, .text t => s ≤ t
  | .date s, .date t => !t.lt s
  | _, _ => true

/-- The items in order, if they are all numbers, all texts or all dates. -/
def sorted? (ascending : Bool) (items : List Value) : Except Fault (List Value) :=
  match items with
  | [] => .ok []
  | first :: _ =>
    match items.find? fun v => !isSortable first || v.kind != first.kind with
    | some odd => .error (operandFault "sort" [first, odd])
    | none => .ok (items.mergeSort fun v w => if ascending then notAfter v w else notAfter w v)

/-- Without a second argument, or with one that counts as true, the order ascends. -/
def sortFunction : Builtin := .oneOrTwo "sort" fun a b => do
  let items ← a.collection "sort"
  match b with
  | some b => do
    let ascending ← b.value
    .ofResult ((sorted? ascending.isTruthy items).map .array)
  | none => .ofResult ((sorted? true items).map .array)

def collections : List Builtin :=
  [mapFunction, filterFunction, findFunction, someFunction, everyFunction, reduceFunction,
    flatMapFunction, countIfFunction, flatFunction, uniqueFunction, sortFunction]

end Formulary.Functions
