/-
  Arrays spliced into arrays.

  `flatMap` calls a lambda for the items of an array and splices the arrays that it comes to into
  one array; `map` keeps them as they are, and `flat` opens them afterwards.  Both calls visit the
  same items.  They differ in two ways: the call of `map` stands one level further down, and the
  two functions name themselves in the faults of their arguments.

  * `Functions.flatten_one`: to open one level is to splice;
  * `Functions.UpToNames`: evaluations that agree up to the names of two functions, with
    `Functions.upToNames_visiting`: functions that read the same off visits do;
  * `Functions.flat_apply_map`, `Expr.shortened_flat_map`: `flat` of `map` as one function of
    visits, and the level between them;
  * `Expr.flatMap_eq_flat_map`: `flatMap` is `map` and then `flat`.
-/
import Formulary.Proofs.Flattening
import Formulary.Proofs.Pathwise
import Formulary.Proofs.Searching

namespace Formulary

open Evaluation

namespace Functions

/-- To open the arrays of one level is to splice them. -/
theorem flatten_one (items : List Value) : flatten 1 items = items.flatMap spliced := by
  refine List.flatMap_congr fun v _ => ?_
  cases v <;> rfl

/-! ## Functions that name themselves in their faults -/

/-- Two evaluations ask for the same paths, and they come to the same or to the same fault of
operands, in which each of two functions names itself. -/
structure UpToNames (reply : Path → Result) (name name' : String) {α : Type} (x y : Evaluation α) :
    Prop where
  result : x.result reply = y.result reply ∨ ∃ operands,
    x.result reply = .error (.raised (.type name operands)) ∧
      y.result reply = .error (.raised (.type name' operands))
  paths : x.paths reply = y.paths reply

section

variable {α β : Type} {reply : Path → Result} {name name' : String}

theorem UpToNames.refl (x : Evaluation α) : UpToNames reply name name' x x := ⟨.inl rfl, rfl⟩

/-- One after the other they are alike, if what follows is. -/
theorem UpToNames.bind {x y : Evaluation α} {f g : α → Evaluation β}
    (h : UpToNames reply name name' x y) (hfg : ∀ a, UpToNames reply name name' (f a) (g a)) :
    UpToNames reply name name' (x >>= f) (y >>= g) := by
  rcases h.result with heq | ⟨operands, hx, hy⟩
  · constructor
    · rw [result_bind, result_bind, heq]
      cases y.result reply with
      | ok a => exact (hfg a).result
      | error reason => exact .inl rfl
    · rw [paths_bind, paths_bind, heq, h.paths]
      cases y.result reply with
      | ok a => exact congrArg (_ ++ ·) (hfg a).paths
      | error reason => rfl
  · constructor
    · rw [result_bind, result_bind, hx, hy]
      exact .inr ⟨operands, rfl, rfl⟩
    · rw [paths_bind, paths_bind, hx, hy, h.paths]

/-- The fault of a function that refuses its operands. -/
theorem upToNames_raise (operands : String) :
    UpToNames reply name name' (raise (.type name operands) : Evaluation α)
      (raise (.type name' operands)) :=
  ⟨.inr ⟨operands, rfl, rfl⟩, rfl⟩

theorem upToNames_collection (a : Argument) :
    UpToNames reply name name' (a.collection name) (a.collection name') := by
  refine (UpToNames.refl a.value).bind fun v => ?_
  cases v with
  | array items => exact .refl _
  | null => exact .refl _
  | _ => exact upToNames_raise _

theorem upToNames_asLambda (available : Nat) (a : Argument) :
    UpToNames reply name name' (a.asLambda name available) (a.asLambda name' available) := by
  unfold Argument.asLambda
  cases a.lambda? with
  | none => exact upToNames_raise _
  | some f =>
    dsimp only
    split
    · exact upToNames_raise _
    · exact .refl _

/-- Functions are alike that visit an array in the same way and read the same off the visits. -/
theorem upToNames_visiting (settles : Value → Bool) (read : List (Value × Value) → Value)
    (a b : Argument) :
    UpToNames reply name name' (visiting name settles read a b) (visiting name' settles read a b) :=
  (upToNames_collection a).bind fun _ => (upToNames_asLambda 2 b).bind fun _ => .refl _

end

/-! ## The array of all that is spliced -/

/-- The results of visits spliced into one array. -/
def splice (visits : List (Value × Value)) : Value :=
  .array (visits.flatMap fun visit => spliced visit.2)

theorem visits_flatMap : Visits flatMapFunction never splice where
  listed := by simp [collections]
  visiting _ _ _ := rfl

/-- `flat` of what `map` comes to visits the items as `map` does, and splices the results. -/
theorem flat_apply_map (a b : Argument) :
    flatFunction.apply [⟨mapFunction.apply [a, b], none⟩] = visiting "map" never splice a b := by
  change Argument.collection "flat" ⟨visiting "map" never _ a b, none⟩ >>=
    (fun items => pure (Value.array (flatten 1 items))) = _
  simp only [Argument.collection, visiting, bind_assoc, pure_bind, flatten_one, List.flatMap_map]
  rfl

/-- What comes to a value has read it off visits. -/
theorem exists_of_run_visiting {σ : Type} {answer : Path → Nat → σ → Result × σ} {s : σ}
    {name : String} {settles : Value → Bool} {read : List (Value × Value) → Value} {a b : Argument}
    {v : Value} (h : ((visiting name settles read a b).run answer s).1 = .ok v) :
    ∃ visits, v = read visits := by
  obtain ⟨t, ht⟩ : ∃ t, (visiting name settles read a b).run answer s = (.ok v, t) :=
    ⟨_, Prod.ext h rfl⟩
  obtain ⟨items, s₁, -, ht⟩ := run_bind_eq_ok.1 ht
  obtain ⟨f, s₂, -, ht⟩ := run_bind_eq_ok.1 ht
  obtain ⟨visits, s₃, -, ht⟩ := run_bind_eq_ok.1 ht
  exact ⟨visits, (Except.ok.inj (congrArg Prod.fst ht)).symm⟩

end Functions

open Functions

namespace Search

variable {σ : Type} {q : Search σ} {items : List Value}

/-- Functions that visit the items of a search do not even differ in their names. -/
theorem Collects.agree_visiting (h : q.Collects items) {name name' : String}
    (x : Evaluation Value) (settles : Value → Bool) (read : List (Value × Value) → Value) :
    Agree q.reply (visiting name settles read q.argument ⟨x, some q.lambda⟩)
      (visiting name' settles read q.argument ⟨x, some q.lambda⟩) := by
  have hitems (function : String) := (collects_iff function).2 h
  have hlambda (function : String) :
      Argument.asLambda function 2 ⟨x, some q.lambda⟩ = pure q.lambda :=
    if_neg (Nat.not_lt.2 q.params_le)
  have hcollection : Agree q.reply (q.argument.collection name) (q.argument.collection name') :=
    ⟨(hitems name).trans (hitems name').symm, (upToNames_collection _).paths⟩
  refine hcollection.bind fun items _ => ?_
  rw [hlambda name, hlambda name']
  exact ⟨rfl, rfl⟩

/-- `flatMap` always meets a failure of its lambda. -/
theorem FailsAt.flatMap {i : Nat} {reason : Stop} (h : q.FailsAt items i reason)
    (hitems : q.Collects items) : q.call "flatMap" = .error reason := by
  obtain ⟨visits, item, rest, -, hverdicts⟩ := h.exists_visits
  refine (hitems.call_of_failing hverdicts visits_flatMap).trans (if_neg ?_)
  simp [never]

end Search

namespace Expr

variable {setting : Setting} {depth : Nat}

/-- What does not go below the limit of nesting is within it. -/
theorem depth_lt_of_run_ne {σ : Type} {answer : Path → Nat → σ → Result × σ} {s : σ}
    {scope : Scope} {e : Expr}
    (h : ((e.eval setting depth scope).run answer s).1 ≠ .error (.tooDeep setting.limit)) :
    depth < setting.limit := by
  by_contra hdepth
  rw [eval.eq_def, if_pos (Nat.le_of_not_lt hdepth)] at h
  exact h rfl

theorem eval_flatMap (h : depth < setting.limit) (scope : Scope) (c f : Expr) :
    eval setting depth scope (.call "flatMap" [c, f]) = visiting "flatMap" never splice
      ⟨eval setting (depth + 1) scope c, lambda? setting (depth + 1) scope c⟩
      ⟨eval setting (depth + 1) scope f, lambda? setting (depth + 1) scope f⟩ := by
  have hmem : flatMapFunction ∈ collections := by simp [collections]
  rw [eval_call h]
  exact call_name (mem_catalog_of_mem_collections hmem setting.clock) _

/-- `flat` of `map` goes on as if `map` stood where `flat` stands, up to the limit of nesting. -/
theorem shortened_flat_map (h : depth < setting.limit) (scope : Scope) (c f : Expr) :
    Shortened setting.limit (eval setting depth scope (.call "flat" [.call "map" [c, f]]))
      (visiting "map" never splice
        ⟨eval setting (depth + 1) scope c, lambda? setting (depth + 1) scope c⟩
        ⟨eval setting (depth + 1) scope f, lambda? setting (depth + 1) scope f⟩) := by
  have hflat : flatFunction ∈ collections := by simp [collections]
  have hmap : mapFunction ∈ collections := by simp [collections]
  have hvalue : eval setting depth scope (.call "map" [c, f]) = mapFunction.apply
      (arguments setting (depth + 1) scope [c, f]) := by
    rw [eval_call h]
    exact call_name (mem_catalog_of_mem_collections hmap setting.clock) _
  have hcall : Functions.call setting.clock "flat" (arguments setting (depth + 1) scope
      [.call "map" [c, f]]) = flatFunction.apply _ :=
    call_name (mem_catalog_of_mem_collections hflat setting.clock) _
  rw [eval_call h, hcall, ← flat_apply_map]
  change Shortened _ _ (flatFunction.apply [⟨mapFunction.apply (arguments _ _ _ [c, f]), none⟩])
  rw [← hvalue]
  have hbelow : setting.limit + depth ≤ setting.limit + (depth + 1) := by omega
  exact Congruence.flat (R := shortening setting.limit) _ _
    (.cons ⟨eval_shortened hbelow setting.clock scope _, .none⟩ .nil)

/-- **Main result.** `flatMap` is `map` and then `flat`.  In any scope, for any source of answers
that replies by path and any lambda, the two look up the same paths in the same order, unless
`flat` of `map` goes below the limit of nesting.  They come to a value together, and then to the
same array.  If the lambda fails on an item then both fail as it does.  In any case they fail in
the same way, but that each of `flatMap` and `map` names itself when it refuses its arguments. -/
theorem flatMap_eq_flat_map (setting : Setting) (depth : Nat) (scope : Scope) (c : Expr)
    (params : List String) (body : Expr) {σ : Type} {answer : Path → Nat → σ → Result × σ}
    {reply : Path → Result} (hanswer : ∀ path depth s, (answer path depth s).1 = reply path)
    (s : σ) :
    let x := (Expr.call "flatMap" [c, .lambda params body]).eval setting depth scope
    let y := (Expr.call "flat" [.call "map" [c, .lambda params body]]).eval setting depth scope
    (∀ limit, (y.run answer s).1 ≠ .error (.tooDeep limit)) →
      (x.lookups answer s).map Prod.fst = (y.lookups answer s).map Prod.fst ∧
      (∀ v, (x.run answer s).1 = .ok v ↔ (y.run answer s).1 = .ok v) ∧
      (∀ v, (x.run answer s).1 = .ok v → ∃ items, v = .array items) ∧
      (∀ (hparams : params.length ≤ 2) items i reason,
        let q : Search σ :=
          ⟨setting, depth, scope, c, params, hparams, body, answer, s, reply, hanswer⟩
        q.Collects items → q.FailsAt items i reason →
          (x.run answer s).1 = .error reason ∧ (y.run answer s).1 = .error reason) ∧
      ((x.run answer s).1 = (y.run answer s).1 ∨ ∃ operands,
        (x.run answer s).1 = .error (.raised (.type "flatMap" operands)) ∧
          (y.run answer s).1 = .error (.raised (.type "map" operands))) := by
  intro x y hwithin
  have hdepth : depth < setting.limit := depth_lt_of_run_ne (hwithin _)
  rw [fst_run_eq_result hanswer] at hwithin
  let a : Argument := ⟨eval setting (depth + 1) scope c, lambda? setting (depth + 1) scope c⟩
  let b : Argument := ⟨eval setting (depth + 1) scope (.lambda params body),
    lambda? setting (depth + 1) scope (.lambda params body)⟩
  have hx : x = visiting "flatMap" never splice a b := eval_flatMap hdepth scope c _
  have hy : Agree reply y (visiting "map" never splice a b) :=
    (shortened_flat_map hdepth scope c _).agree (hwithin _)
  have halike : UpToNames reply "flatMap" "map" x (visiting "map" never splice a b) := by
    rw [hx]
    exact upToNames_visiting never splice a b
  have hnamed := halike.result
  rw [← hy.result] at hnamed
  simp -zeta only [map_fst_lookups hanswer, fst_run_eq_result hanswer]
  refine ⟨halike.paths.trans hy.paths.symm, fun v => ?_, fun v hv => ?_, ?_, hnamed⟩
  · rcases hnamed with heq | ⟨operands, hx, hy⟩
    · rw [heq]
    · rw [hx, hy]
      exact ⟨nofun, nofun⟩
  · rw [← fst_run_eq_result hanswer x s, hx] at hv
    obtain ⟨visits, rfl⟩ := exists_of_run_visiting hv
    exact ⟨_, rfl⟩
  · intro hparams items i reason q hitems hfails
    have hflatMap : x.result reply = .error reason :=
      (fst_run_eq_result hanswer x s) ▸ hfails.flatMap hitems
    have hagree : Agree reply x (visiting "map" never splice a b) := by
      rw [hx]
      exact hitems.agree_visiting _ never splice
    exact ⟨hflatMap, by rw [hy.result, ← hagree.result, hflatMap]⟩

/-- Items that are arrays with and without items of their own, and one that is none. -/
def groups (path : Path) : Result :=
  if path.root = "xs" then .ok (.array [.array [.boolean true, .null], .array [], .boolean false])
  else .error (.reference path.root)

def answerGroups : Path → Nat → Unit → Result × Unit := steady groups

/-- What a call comes to whose collection are the groups. -/
def grouped (call : Expr → Expr) : Except Stop Value :=
  (((call (.reference (.field "xs"))).eval ⟨5, ⟨0, 0⟩⟩ 0 []).run answerGroups ()).1

/-- What is nested is spliced, and the one array that cannot be negated makes both fail. -/
theorem flatMap_eq_flat_map_groups :
    let item := Expr.reference (.field "x")
    let denied := Expr.binary .or item (.unary .neg item)
    let items : Value := .array [.boolean true, .null, .boolean false]
    let reason : Stop := .raised (.type "-" "array")
    (∀ path depth s, (answerGroups path depth s).1 = groups path) ∧
      grouped (fun c => .call "flat" [.call "map" [c, .lambda ["x"] item]]) = .ok items ∧
      grouped (fun c => .call "flatMap" [c, .lambda ["x"] item]) = .ok items ∧
      grouped (fun c => .call "flat" [.call "map" [c, .lambda ["x"] denied]]) = .error reason ∧
      grouped (fun c => .call "flatMap" [c, .lambda ["x"] denied]) = .error reason := by
  intro item denied items reason
  have hanswer : ∀ path depth s, (answerGroups path depth s).1 = groups path := fun _ _ _ => rfl
  have hmapped : grouped (fun c => .call "flat" [.call "map" [c, .lambda ["x"] item]]) =
      .ok items := by rfl
  have hfault : grouped (fun c => .call "flat" [.call "map" [c, .lambda ["x"] denied]]) =
      .error reason := by rfl
  obtain ⟨-, hvalues, -⟩ := flatMap_eq_flat_map ⟨5, ⟨0, 0⟩⟩ 0 [] _ ["x"] item hanswer ()
    fun limit h => absurd (hmapped.symm.trans h) nofun
  obtain ⟨-, -, -, hfails, -⟩ := flatMap_eq_flat_map ⟨5, ⟨0, 0⟩⟩ 0 [] _ ["x"] denied hanswer ()
    fun limit h => Stop.noConfusion (Except.error.inj (hfault.symm.trans h))
  obtain ⟨hleft, hright⟩ := hfails (by decide) _ 1 reason (.inl rfl) <| by
    refine ⟨fun j hj => ?_, .array [], rfl, rfl⟩
    obtain rfl := Nat.lt_one_iff.1 hj
    exact ⟨true, _, .boolean true, rfl, rfl, rfl⟩
  exact ⟨hanswer, hmapped, (hvalues items).2 hmapped, hright, hleft⟩

end Expr

end Formulary
