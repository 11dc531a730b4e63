/-
  Searches of arrays.

  `filter`, `find`, `some`, `every` and `countIf` call a lambda for the items of an array, one
  after the other, until a result settles the matter.  Where the source of answers replies by
  path, the lambda has one verdict on every item, whichever function asks for it, and what a
  function comes to can be read off the list of verdicts.

  * `Functions.visitsOf`: the visits of a function, from the verdicts;
  * `Functions.visitsOf_append`: up to the first failure, they stop at the first verdict that
    settles the matter;
  * `Search`: a lambda and a collection, where functions are called with them;
  * `Search.Collects.call_of_settled`, `Search.Collects.call_of_failing`: where a function stops
    if the lambda fails on no item, and if it fails on one;
  * `Search.agrees_with_filter`: what the others tell if `filter` comes to a value, and if it
    fails.
-/
import Formulary.Proofs.Applied
import Formulary.Proofs.Lookups
import Mathlib

namespace Formulary

namespace Functions

/-! ## Visits of items -/

/-- A visit as the verdict on its item. -/
def settled (visit : Value × Value) : Value × Except Stop Value := (visit.1, .ok visit.2)

/-- The visits from the verdicts on items: up to the first one that settles the matter, if no
failure comes before it. -/
def visitsOf (settles : Value → Bool) :
    List (Value × Except Stop Value) → Except Stop (List (Value × Value))
  | [] => .ok []
  | (item, r) :: rest => r.bind fun v =>
    if settles v then .ok [(item, v)] else (visitsOf settles rest).map ((item, v) :: ·)

/-- Visits up to the first one that settles the matter. -/
def upTo (settles : Value → Bool) : List (Value × Value) → List (Value × Value)
  | [] => []
  | visit :: rest => if settles visit.2 then [visit] else visit :: upTo settles rest

variable {settles : Value → Bool} {visits : List (Value × Value)}

/-- Visits that come to a value settle the matter, or what follows them does. -/
theorem visitsOf_append (calls : List (Value × Except Stop Value)) :
    visitsOf settles (visits.map settled ++ calls) =
      if visits.any (fun visit => settles visit.2) then .ok (upTo settles visits)
      else (visitsOf settles calls).map (visits ++ ·) := by
  induction visits with
  | nil => cases h : visitsOf settles calls <;> simp [h, Except.map]
  | cons visit rest ih =>
    simp only [List.map_cons, List.cons_append, settled, visitsOf, Except.bind, List.any_cons, upTo]
    by_cases hvisit : settles visit.2 = true
    · simp [hvisit]
    · simp only [hvisit, Bool.false_or, Bool.false_eq_true, if_false, ih]
      split
      · rfl
      · cases visitsOf settles calls <;> rfl

theorem upTo_of_not_any (h : visits.any (fun visit => settles visit.2) = false) :
    upTo settles visits = visits := by
  induction visits with
  | nil => rfl
  | cons visit rest ih =>
    obtain ⟨hvisit, hrest⟩ : settles visit.2 = false ∧ _ := Bool.or_eq_false_iff.1 h
    rw [upTo, hvisit, ih hrest]
    rfl

theorem visitsOf_settled : visitsOf settles (visits.map settled) = .ok (upTo settles visits) := by
  rw [← List.append_nil (visits.map settled), visitsOf_append]
  split
  · rfl
  next h => rw [upTo_of_not_any (Bool.eq_false_of_not_eq_true h)]; simp [visitsOf, Except.map]

/-- If nothing settles the matter, every item is visited. -/
theorem eq_map_settled_of_visitsOf {calls : List (Value × Except Stop Value)}
    (h : visitsOf never calls = .ok visits) : calls = visits.map settled := by
  induction calls generalizing visits with
  | nil => obtain rfl := Except.ok.inj h; rfl
  | cons call rest ih =>
    obtain ⟨item, r⟩ := call
    cases r with
    | error reason => exact absurd h nofun
    | ok v =>
      change (visitsOf never rest).map ((item, v) :: ·) = .ok visits at h
      cases hrest : visitsOf never rest with
      | error reason => rw [hrest] at h; exact absurd h nofun
      | ok later =>
        rw [hrest] at h
        obtain rfl := Except.ok.inj h
        rw [List.map_cons, ← ih hrest]
        rfl

/-- The visits of a function are those from the verdicts of its lambda. -/
theorem result_visited {reply : Path → Result} (f : Lambda) (settles : Value → Bool) (index : Nat)
    (items : List Value) :
    (visited f settles index items).result reply =
      visitsOf settles ((items.zipIdx index).map fun (item, i) =>
        (item, (f.call [item, .count i]).result reply)) := by
  induction items generalizing index with
  | nil => rfl
  | cons item rest ih =>
    rw [visited, Evaluation.result_bind, List.zipIdx_cons, List.map_cons, visitsOf]
    congr 1
    funext v
    split
    · rfl
    · rw [Evaluation.result_bind, ih]
      cases visitsOf settles _ <;> rfl

/-! ## What is read off visits -/

/-- The items that a lambda accepted. -/
def kept (visits : List (Value × Value)) : List Value := (visits.filter accepted).map Prod.fst

/-- What settles the matter first is among the visits up to it. -/
theorem find?_upTo_settles : (upTo settles visits).find? (fun visit => settles visit.2) =
    visits.find? fun visit => settles visit.2 := by
  induction visits with
  | nil => rfl
  | cons visit rest ih =>
    cases hvisit : settles visit.2 <;> simp [upTo, hvisit, ih]

theorem any_upTo_settles : (upTo settles visits).any (fun visit => settles visit.2) =
    visits.any fun visit => settles visit.2 := by
  rw [← List.isSome_find?, find?_upTo_settles, List.isSome_find?]

theorem find?_upTo : (upTo Value.isTruthy visits).find? accepted = visits.find? accepted :=
  find?_upTo_settles

theorem any_upTo : (upTo Value.isTruthy visits).any accepted = visits.any accepted :=
  any_upTo_settles

theorem all_upTo : (upTo (fun v => !v.isTruthy) visits).all accepted = visits.all accepted := by
  rw [List.all_eq_not_any_not, List.all_eq_not_any_not]
  exact congrArg _ any_upTo_settles

/-- The first item accepted is the first one kept. -/
theorem head?_kept : (kept visits).head? = (visits.find? accepted).map Prod.fst := by
  rw [kept, List.head?_map, List.head?_filter]

/-- An item is accepted if any are kept. -/
theorem any_accepted : visits.any accepted = !(kept visits).isEmpty := by
  rw [kept, List.isEmpty_map, Bool.eq_iff_iff]
  simp

/-- All items are accepted if as many are kept. -/
theorem all_accepted : visits.all accepted = ((kept visits).length == visits.length) := by
  rw [kept, List.length_map, Bool.eq_iff_iff, List.all_eq_true, beq_iff_eq,
    List.length_filter_eq_length_iff]

/-- So many items are accepted as are kept. -/
theorem countP_accepted : visits.countP accepted = (kept visits).length := by
  rw [kept, List.length_map, List.countP_eq_length_filter]

/-- A function that reads its result off what a lambda makes of the items of an array. -/
structure Visits (f : Builtin) (settles : Value → Bool) (read : List (Value × Value) → Value) :
    Prop where
  listed : f ∈ collections
  visiting : ∀ a b : Argument, b.lambda?.isSome → f.apply [a, b] = visiting f.name settles read a b

theorem visits_filter : Visits filterFunction never fun visits => .array (kept visits) where
  listed := by simp [collections]
  visiting _ _ _ := rfl

theorem visits_find : Visits findFunction Value.isTruthy fun visits =>
    match visits.find? accepted with
    | some visit => visit.1
    | none => .null where
  listed := by simp [collections]
  visiting _ _ _ := rfl

theorem visits_some : Visits someFunction Value.isTruthy fun visits =>
    .boolean (visits.any accepted) where
  listed := by simp [collections]
  visiting _ _ _ := rfl

theorem visits_every : Visits everyFunction (fun v => !v.isTruthy) fun visits =>
    .boolean (visits.all accepted) where
  listed := by simp [collections]
  visiting _ _ _ := rfl

theorem visits_countIf : Visits countIfFunction never fun visits =>
    .count (visits.countP accepted) where
  listed := by simp [collections]
  visiting _ _ hb := if_pos hb

end Functions

open Functions

/-! ## Searches -/

/-- A collection and a lambda of at most two parameters, in a scope below some others, and a
source of answers that replies by path. -/
structure Search (σ : Type) where
  setting : Setting
  depth : Nat
  scope : Scope
  collection : Expr
  params : List String
  params_le : params.length ≤ 2
  body : Expr
  answer : Path → Nat → σ → Result × σ
  state : σ
  /-- What the source of answers replies, in any state. -/
  reply : Path → Result
  byPath : ∀ path depth s, (answer path depth s).1 = reply path

namespace Search

variable {σ : Type} (q : Search σ)

/-- What an evaluation comes to. -/
def outcome (x : Evaluation Value) : Except Stop Value := (x.run q.answer q.state).1

/-- What a function of the collection and the lambda comes to. -/
def call (name : String) : Except Stop Value :=
  q.outcome ((Expr.call name [q.collection, .lambda q.params q.body]).eval q.setting q.depth q.scope)

/-- The collection comes to an array of these items, or to null, which has none. -/
def Collects (items : List Value) : Prop :=
  q.outcome (q.collection.eval q.setting (q.depth + 1) q.scope) = .ok (.array items) ∨
    q.outcome (q.collection.eval q.setting (q.depth + 1) q.scope) = .ok .null ∧ items = []

/-- What the lambda comes to for an item and its index. -/
def verdict (index : Nat) (item : Value) : Except Stop Value :=
  q.outcome (q.body.eval q.setting (q.depth + 1) (q.params.zip [item, .count index] :: q.scope))

/-- The lambda accepts the item at an index, or it rejects it. -/
def Judges (items : List Value) (index : Nat) (accepted : Bool) : Prop :=
  ∃ item v, items[index]? = some item ∧ q.verdict index item = .ok v ∧ v.isTruthy = accepted

/-- The lambda fails on the item at an index, and on none before it. -/
structure FailsAt (items : List Value) (index : Nat) (reason : Stop) : Prop where
  before : ∀ j < index, ∃ accepted, q.Judges items j accepted
  here : ∃ item, items[index]? = some item ∧ q.verdict index item = .error reason

/-- The verdicts on items, one after the other. -/
def verdicts (items : List Value) : List (Value × Except Stop Value) :=
  items.zipIdx.map fun (item, i) => (item, q.verdict i item)

variable {q} {items : List Value}

theorem outcome_eq (x : Evaluation Value) : q.outcome x = x.result q.reply :=
  Evaluation.fst_run_eq_result q.byPath x q.state

theorem getElem?_verdicts (i : Nat) :
    (q.verdicts items)[i]? = items[i]?.map fun item => (item, q.verdict i item) := by
  rw [verdicts, List.getElem?_map, List.getElem?_zipIdx, Option.map_map, Nat.zero_add]
  rfl

theorem length_verdicts : (q.verdicts items).length = items.length := by
  rw [verdicts, List.length_map, List.length_zipIdx]

/-- The collection as an argument. -/
def argument (q : Search σ) : Argument :=
  ⟨q.collection.eval q.setting (q.depth + 1) q.scope,
    Expr.lambda? q.setting (q.depth + 1) q.scope q.collection⟩

/-- The lambda as a function of its parameters. -/
def lambda (q : Search σ) : Lambda :=
  ⟨q.params, fun frame => q.body.eval q.setting (q.depth + 1) (frame :: q.scope)⟩

theorem collects_iff (function : String) :
    (q.argument.collection function).result q.reply = .ok items ↔ q.Collects items := by
  rw [Collects, outcome_eq, Argument.collection, Evaluation.result_bind, argument]
  cases q.collection.eval q.setting (q.depth + 1) q.scope |>.result q.reply with
  | error reason => simp [Except.bind]
  | ok v =>
    cases v with
    | array items' => simp [Except.bind]
    | null => simp [Except.bind, eq_comm]
    | _ => simp [Except.bind]

variable {f : Builtin} {settles : Value → Bool} {read : List (Value × Value) → Value}

/-- Within the limit of nesting a function finds its items and reads its result off the verdicts. -/
theorem call_eq (hf : Visits f settles read) (hdepth : q.depth < q.setting.limit) :
    q.call f.name = ((q.argument.collection f.name).result q.reply).bind fun items =>
      (visitsOf settles (q.verdicts items)).map read := by
  have harguments : Expr.arguments q.setting (q.depth + 1) q.scope
      [q.collection, .lambda q.params q.body] =
      [q.argument, ⟨Expr.eval q.setting (q.depth + 1) q.scope (.lambda q.params q.body),
        some q.lambda⟩] := rfl
  have hlambda (b : Argument) (hb : b.lambda? = some q.lambda) :
      b.asLambda f.name 2 = pure q.lambda := by
    rw [Argument.asLambda, hb]
    exact if_neg (Nat.not_lt.2 q.params_le)
  rw [call, outcome_eq, Expr.eval_call hdepth,
    call_name (mem_catalog_of_mem_collections hf.listed _), harguments, hf.visiting _ _ rfl,
    visiting, Evaluation.result_bind]
  congr 1
  funext items
  rw [hlambda _ rfl]
  change (visited q.lambda settles 0 items >>= fun visits => pure (read visits)).result q.reply = _
  rw [Evaluation.result_bind, result_visited]
  have hverdicts : (items.zipIdx.map fun (item, i) =>
      (item, (q.lambda.call [item, .count i]).result q.reply)) = q.verdicts items :=
    List.map_congr_left fun (item, i) _ => congrArg (item, ·) (outcome_eq _).symm
  rw [hverdicts]
  cases visitsOf settles (q.verdicts items) <;> rfl

theorem Collects.depth_lt (h : q.Collects items) : q.depth < q.setting.limit := by
  by_contra hdepth
  have hstop : q.collection.eval q.setting (q.depth + 1) q.scope =
      .stop (.tooDeep q.setting.limit) := by
    rw [Expr.eval.eq_def, if_pos (Nat.le_succ_of_le (Nat.le_of_not_lt hdepth))]
  rw [Collects, hstop] at h
  rcases h with h | ⟨h, -⟩ <;> exact absurd h nofun

/-- A function reads its result off the verdicts. -/
theorem Collects.call_eq (h : q.Collects items) (hf : Visits f settles read) :
    q.call f.name = (visitsOf settles (q.verdicts items)).map read := by
  rw [Search.call_eq hf h.depth_lt, (collects_iff f.name).2 h]
  rfl

/-- A call that comes to a value has found the items of its collection. -/
theorem exists_collects (hf : Visits f settles read) {v : Value} (h : q.call f.name = .ok v) :
    ∃ items, q.Collects items := by
  by_cases hdepth : q.depth < q.setting.limit
  · rw [call_eq hf hdepth] at h
    cases hitems : (q.argument.collection f.name).result q.reply with
    | ok items => exact ⟨items, (collects_iff f.name).1 hitems⟩
    | error reason => rw [hitems] at h; exact absurd h nofun
  · rw [call, Expr.eval.eq_def, if_pos (Nat.le_of_not_lt hdepth)] at h
    exact absurd h nofun

/-- A visit tells the verdict on its item. -/
theorem Judges.of_settled {visits : List (Value × Value)} {rest : List (Value × Except Stop Value)}
    (h : q.verdicts items = visits.map settled ++ rest) {j : Nat} {visit : Value × Value}
    (hvisit : visits[j]? = some visit) :
    items[j]? = some visit.1 ∧ q.Judges items j visit.2.isTruthy := by
  have hj : j < (visits.map settled).length := by
    rw [List.length_map]
    exact (List.getElem?_eq_some_iff.1 hvisit).1
  have hverdict : (q.verdicts items)[j]? = some (settled visit) := by
    rw [h, List.getElem?_append_left hj, List.getElem?_map, hvisit, Option.map_some]
  rw [getElem?_verdicts, Option.map_eq_some_iff] at hverdict
  obtain ⟨item, hitem, heq⟩ := hverdict
  obtain ⟨rfl, hv⟩ := Prod.ext_iff.1 heq
  exact ⟨hitem, visit.1, visit.2, hitem, hv, rfl⟩

/-- An item is not both accepted and rejected. -/
theorem Judges.unique {i : Nat} {b b' : Bool} (h : q.Judges items i b) (h' : q.Judges items i b') :
    b = b' := by
  obtain ⟨item, v, hitem, hv, rfl⟩ := h
  obtain ⟨item', v', hitem', hv', rfl⟩ := h'
  obtain rfl := Option.some.inj (hitem.symm.trans hitem')
  rw [Except.ok.inj (hv.symm.trans hv')]

theorem exists_map_settled {calls : List (Value × Except Stop Value)}
    (h : ∀ call ∈ calls, ∃ v, call.2 = .ok v) :
    ∃ visits : List (Value × Value), calls = visits.map settled := by
  induction calls with
  | nil => exact ⟨[], rfl⟩
  | cons call rest ih =>
    obtain ⟨⟨v, hv⟩, hrest⟩ := List.forall_mem_cons.1 h
    obtain ⟨visits, rfl⟩ := ih hrest
    exact ⟨(call.1, v) :: visits, congrArg (· :: _) (Prod.ext rfl hv)⟩

/-- The visits before a failure. -/
theorem FailsAt.exists_visits {i : Nat} {reason : Stop} (h : q.FailsAt items i reason) :
    ∃ (visits : List (Value × Value)) (item : Value) (rest : List (Value × Except Stop Value)),
      visits.length = i ∧
      q.verdicts items = visits.map settled ++ (item, .error reason) :: rest := by
  obtain ⟨item, hitem, hreason⟩ := h.here
  have hhere : (q.verdicts items)[i]? = some (item, .error reason) := by
    rw [getElem?_verdicts, hitem, Option.map_some, hreason]
  obtain ⟨hi, hget⟩ := List.getElem?_eq_some_iff.1 hhere
  have hbefore : ∀ call ∈ (q.verdicts items).take i, ∃ v, call.2 = .ok v := by
    intro call hcall
    obtain ⟨j, hj, hcall⟩ := List.mem_take_iff_getElem.1 hcall
    have hj' : j < i := (Nat.lt_min.1 hj).1
    obtain ⟨accepted, item', v, hitem', hv, -⟩ := h.before j hj'
    have hverdict : (q.verdicts items)[j]? = some (item', .ok v) := by
      rw [getElem?_verdicts, hitem', Option.map_some, hv]
    obtain ⟨_, hget'⟩ := List.getElem?_eq_some_iff.1 hverdict
    exact ⟨v, by rw [← hcall, hget']⟩
  obtain ⟨visits, hvisits⟩ := exists_map_settled hbefore
  refine ⟨visits, item, (q.verdicts items).drop (i + 1), ?_, ?_⟩
  · rw [← List.length_map (f := settled), ← hvisits, List.length_take_of_le hi.le]
  · rw [← hvisits, ← hget, ← List.drop_eq_getElem_cons hi, List.take_append_drop]

/-- The first verdict of one kind, if there is one. -/
theorem first_or_none {visits : List (Value × Value)} {rest : List (Value × Except Stop Value)}
    (h : q.verdicts items = visits.map settled ++ rest) (b : Bool) :
    (∃ j visit, j < visits.length ∧ items[j]? = some visit.1 ∧ q.Judges items j b ∧
        (∀ k < j, q.Judges items k (!b)) ∧
        visits.find? (fun visit => visit.2.isTruthy == b) = some visit) ∨
      (∀ j < visits.length, q.Judges items j (!b)) ∧
        visits.find? (fun visit => visit.2.isTruthy == b) = none := by
  have hnot (v : Value) (hv : (v.isTruthy == b) = false) : v.isTruthy = !b := by
    cases b <;> simpa using hv
  cases hfind : visits.find? fun visit => visit.2.isTruthy == b with
  | none =>
    refine .inr ⟨fun j hj => ?_, rfl⟩
    have hvisit : visits[j]? = some visits[j] := List.getElem?_eq_getElem hj
    have hjudges := (Judges.of_settled h hvisit).2
    rwa [hnot _ (Bool.eq_false_of_not_eq_true (List.find?_eq_none.1 hfind _ (List.getElem_mem hj)))]
      at hjudges
  | some visit =>
    obtain ⟨hb, before, after, rfl, hbefore⟩ := List.find?_eq_some_iff_append.1 hfind
    have hvisit : (before ++ visit :: after)[before.length]? = some visit := by simp
    obtain ⟨hitem, hjudges⟩ := Judges.of_settled h hvisit
    rw [beq_iff_eq] at hb
    refine .inl ⟨before.length, visit, by simp, hitem, hb ▸ hjudges, fun k hk => ?_, rfl⟩
    have hvisit' : (before ++ visit :: after)[k]? = some before[k] := by
      rw [List.getElem?_append_left hk, List.getElem?_eq_getElem hk]
    have hjudges' := (Judges.of_settled h hvisit').2
    rwa [hnot _ (by simpa using hbefore _ (List.getElem_mem hk))] at hjudges'

/-! ## Where no item fails -/

/-- If `filter` comes to a value, the lambda has come to a value for every item. -/
theorem exists_visits_of_filter {v : Value} (h : q.call "filter" = .ok v) :
    ∃ items visits, q.Collects items ∧ q.verdicts items = visits.map settled ∧
      v = .array (kept visits) := by
  obtain ⟨items, hitems⟩ := exists_collects visits_filter h
  have hfilter := hitems.call_eq visits_filter
  rw [show filterFunction.name = "filter" from rfl, h] at hfilter
  cases hvisits : visitsOf never (q.verdicts items) with
  | error reason => rw [hvisits] at hfilter; exact absurd hfilter nofun
  | ok visits =>
    rw [hvisits] at hfilter
    exact ⟨items, visits, hitems, eq_map_settled_of_visitsOf hvisits, Except.ok.inj hfilter⟩

/-- Then every function stops at the first visit that settles the matter, or at the end. -/
theorem Collects.call_of_settled (hitems : q.Collects items) {visits : List (Value × Value)}
    (h : q.verdicts items = visits.map settled) (hf : Visits f settles read) :
    q.call f.name = .ok (read (upTo settles visits)) := by
  rw [hitems.call_eq hf, h, visitsOf_settled]
  rfl

/-! ## Where an item fails -/

/-- A function stops before the failure, at the first visit that settles the matter, or it
fails. -/
theorem Collects.call_of_failing (hitems : q.Collects items) {visits : List (Value × Value)}
    {item : Value} {reason : Stop} {rest : List (Value × Except Stop Value)}
    (h : q.verdicts items = visits.map settled ++ (item, .error reason) :: rest)
    (hf : Visits f settles read) :
    q.call f.name = if visits.any (fun visit => settles visit.2) then
      .ok (read (upTo settles visits)) else .error reason := by
  rw [hitems.call_eq hf, h, visitsOf_append]
  split <;> rfl

variable {i : Nat} {reason : Stop}

/-- `filter` always meets the failure. -/
theorem FailsAt.filter (h : q.FailsAt items i reason) (hitems : q.Collects items) :
    q.call "filter" = .error reason := by
  obtain ⟨visits, item, rest, -, hverdicts⟩ := h.exists_visits
  refine (hitems.call_of_failing hverdicts visits_filter).trans (if_neg ?_)
  simp [never]

/-- `find` and `some` stop at the first item accepted before it, or they meet it. -/
theorem FailsAt.find_some (h : q.FailsAt items i reason) (hitems : q.Collects items) :
    (∃ j < i, q.Judges items j true ∧ (∀ k < j, q.Judges items k false) ∧
        (∃ item, items[j]? = some item ∧ q.call "find" = .ok item) ∧
        q.call "some" = .ok (.boolean true)) ∨
      (∀ j < i, q.Judges items j false) ∧ q.call "find" = .error reason ∧
        q.call "some" = .error reason := by
  obtain ⟨visits, item, rest, rfl, hverdicts⟩ := h.exists_visits
  have hfind := hitems.call_of_failing hverdicts visits_find
  have hsome := hitems.call_of_failing hverdicts visits_some
  rw [find?_upTo] at hfind
  rw [any_upTo] at hsome
  rcases first_or_none hverdicts true with ⟨j, visit, hj, hitem, hjudges, hbefore, hfirst⟩ | hnone
  · simp only [beq_true] at hfirst
    have hany : visits.any (fun visit => visit.2.isTruthy) = true :=
      List.any_eq_true.2
        ⟨visit, List.mem_of_find?_eq_some hfirst, by simpa using List.find?_some hfirst⟩
    have haccepted : visits.find? accepted = some visit := hfirst
    rw [if_pos hany, haccepted] at hfind
    rw [if_pos hany, show visits.any accepted = true from hany] at hsome
    exact .inl ⟨j, hj, hjudges, hbefore, ⟨visit.1, hitem, hfind⟩, hsome⟩
  · obtain ⟨hall, hfirst⟩ := hnone
    have hany : ¬ visits.any (fun visit => visit.2.isTruthy) = true := by simpa using hfirst
    exact .inr ⟨hall, hfind.trans (if_neg hany), hsome.trans (if_neg hany)⟩

/-- `every` stops at the first item rejected before it, or it meets it. -/
theorem FailsAt.every (h : q.FailsAt items i reason) (hitems : q.Collects items) :
    (∃ j < i, q.Judges items j false ∧ (∀ k < j, q.Judges items k true) ∧
        q.call "every" = .ok (.boolean false)) ∨
      (∀ j < i, q.Judges items j true) ∧ q.call "every" = .error reason := by
  obtain ⟨visits, item, rest, rfl, hverdicts⟩ := h.exists_visits
  have hevery := hitems.call_of_failing hverdicts visits_every
  rw [all_upTo] at hevery
  rcases first_or_none hverdicts false with ⟨j, visit, hj, -, hjudges, hbefore, hfirst⟩ | hnone
  · simp only [beq_false] at hfirst
    have hany : visits.any (fun visit => !visit.2.isTruthy) = true :=
      List.any_eq_true.2
        ⟨visit, List.mem_of_find?_eq_some hfirst, by simpa using List.find?_some hfirst⟩
    have hall : visits.all accepted = false := by
      rw [List.all_eq_not_any_not, Bool.not_eq_false']
      exact hany
    rw [if_pos hany, hall] at hevery
    exact .inl ⟨j, hj, hjudges, hbefore, hevery⟩
  · obtain ⟨hall, hfirst⟩ := hnone
    have hany : ¬ visits.any (fun visit => !visit.2.isTruthy) = true := by simpa using hfirst
    exact .inr ⟨hall, hevery.trans (if_neg hany)⟩

/-- **Main result.** Searches with a lambda agree with `filter`.  If `filter` comes to the items
kept, then `find` comes to the first of them, or else to null, `some` tells whether there are
any, `every` whether they are as many as the items of the collection, and `countIf` how many
there are.  If `filter` fails because the lambda fails on an item, then `find` and `some` end at
an item accepted before it or else fail in the same way, and `every` ends at an item rejected
before it or else fails in the same way. -/
theorem agrees_with_filter (q : Search σ) :
    (∀ v, q.call "filter" = .ok v → ∃ items kept, q.Collects items ∧ v = .array kept ∧
      q.call "find" = .ok (kept.head?.getD .null) ∧
      q.call "some" = .ok (.boolean !kept.isEmpty) ∧
      q.call "every" = .ok (.boolean (kept.length == items.length)) ∧
      q.call "countIf" = .ok (.count kept.length)) ∧
    ∀ items i reason, q.Collects items → q.FailsAt items i reason →
      q.call "filter" = .error reason ∧
      ((∃ j < i, q.Judges items j true ∧ (∀ k < j, q.Judges items k false) ∧
          (∃ item, items[j]? = some item ∧ q.call "find" = .ok item) ∧
          q.call "some" = .ok (.boolean true)) ∨
        (∀ j < i, q.Judges items j false) ∧ q.call "find" = .error reason ∧
          q.call "some" = .error reason) ∧
      ((∃ j < i, q.Judges items j false ∧ (∀ k < j, q.Judges items k true) ∧
          q.call "every" = .ok (.boolean false)) ∨
        (∀ j < i, q.Judges items j true) ∧ q.call "every" = .error reason) := by
  refine ⟨fun v h => ?_, fun items i reason hitems h =>
    ⟨h.filter hitems, h.find_some hitems, h.every hitems⟩⟩
  obtain ⟨items, visits, hitems, hverdicts, rfl⟩ := exists_visits_of_filter h
  have hlength : items.length = visits.length := by
    rw [← length_verdicts (q := q), hverdicts, List.length_map]
  refine ⟨items, kept visits, hitems, rfl, ?_, ?_, ?_, ?_⟩
  · refine (hitems.call_of_settled hverdicts visits_find).trans ?_
    rw [find?_upTo, head?_kept]
    cases visits.find? accepted <;> rfl
  · refine (hitems.call_of_settled hverdicts visits_some).trans ?_
    rw [any_upTo, any_accepted]
  · refine (hitems.call_of_settled hverdicts visits_every).trans ?_
    rw [all_upTo, all_accepted, hlength]
  · refine (hitems.call_of_settled hverdicts visits_countIf).trans ?_
    rw [upTo_of_not_any (by simp [never]), countP_accepted]

/-- The elements of `xs`, each of which is false or can be negated. -/
def denial : Search Unit where
  setting := ⟨8, ⟨0, 0⟩⟩
  depth := 0
  scope := []
  collection := .reference (.field "xs")
  params := ["x"]
  params_le := by decide
  body := .binary .or (.unary .not (.reference (.field "x"))) (.unary .neg (.reference (.field "x")))
  answer := Evaluation.steady fun _ => .ok (.array [.boolean false, .boolean true, .null])
  state := ()
  reply _ := .ok (.array [.boolean false, .boolean true, .null])
  byPath _ _ _ := rfl

/-- The second element is true and cannot be negated: only what ends at the first element comes
to a value. -/
theorem agrees_with_filter_denial :
    let items : List Value := [.boolean false, .boolean true, .null]
    let reason : Stop := .raised (.type "-" "boolean")
    denial.Collects items ∧ denial.FailsAt items 1 reason ∧
      denial.call "filter" = .error reason ∧ denial.call "find" = .ok (.boolean false) ∧
      denial.call "some" = .ok (.boolean true) ∧ denial.call "every" = .error reason := by
  intro items reason
  have hitems : denial.Collects items := .inl rfl
  have haccepts : denial.Judges items 0 true := ⟨.boolean false, .boolean true, rfl, rfl, rfl⟩
  have hfails : denial.FailsAt items 1 reason := by
    refine ⟨fun j hj => ?_, .boolean true, rfl, rfl⟩
    obtain rfl := Nat.lt_one_iff.1 hj
    exact ⟨true, haccepts⟩
  obtain ⟨hfilter, hfind, hevery⟩ := denial.agrees_with_filter.2 items 1 reason hitems hfails
  refine ⟨hitems, hfails, hfilter, ?_⟩
  rcases hfind with ⟨j, hj, -, -, ⟨item, hitem, hfind⟩, hsome⟩ | ⟨hrejects, -⟩
  · obtain rfl := Nat.lt_one_iff.1 hj
    obtain rfl := Option.some.inj hitem
    refine ⟨hfind, hsome, ?_⟩
    rcases hevery with ⟨j, hj, hrejects, -⟩ | ⟨-, hevery⟩
    · obtain rfl := Nat.lt_one_iff.1 hj
      exact absurd (haccepts.unique hrejects) nofun
    · exact hevery
  · exact absurd (haccepts.unique (hrejects 0 Nat.zero_lt_one)) nofun

end Search
end Formulary
