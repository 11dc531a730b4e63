/-
  The circles that readings tell of.

  A result that lists fields in a circle has the list from a value that was stored, or it
  lists fields below the field that it is a result of.  Evaluations hand on what they are
  told, and references lead upwards, so a reading keeps to this from whatever it finds
  remembered.

  * `Provenance.telling`, `Sourced`: results whose circles are of some sort;
  * `Session.AllSourced`: a session that remembers only such results, each for its field;
  * `Session.sourced_readField`, `Session.sourced_answer`: readings of fields and answers to
    what expressions ask.
-/
import Formulary.Proofs.Constants
import Formulary.Proofs.Listings
import Formulary.Proofs.Nested

namespace Formulary

/-- Circles inside values are given, and those raised are given or told; other faults may
stand and be raised anywhere. -/
def Provenance.telling (given told : List String → Prop) : Provenance where
  inside fault := ∀ fields, fault = .cycle fields → given fields
  raised fault := ∀ fields, fault = .cycle fields → given fields ∨ told fields
  of_inside h fields hfault := .inl (h fields hfault)
  of_plain := by
    rintro _ hplain fields rfl
    exact hplain.elim

/-- Whatever lists fields in a circle inside a value is given. -/
def Value.Given (given : List String → Prop) (v : Value) : Prop :=
  v.Only fun fault => ∀ fields, fault = .cycle fields → given fields

/-- Whatever lists fields in a circle inside the value of a result is given, and a fault
lists what is given or told. -/
def Sourced (given told : List String → Prop) (r : Result) : Prop :=
  (Provenance.telling given told).Comes (Value.Given given) r

namespace Sourced

variable {given told told' : List String → Prop} {r : Result} {v : Value}

theorem mono (h : Sourced given told r) (htold : ∀ fields, told fields → told' fields) :
    Sourced given told' r := by
  cases h with
  | ok h => exact .ok h
  | error h => exact .error fun fields hfault => (h fields hfault).imp_right (htold fields)

theorem plain {fault : Fault} (h : fault.Plain) : Sourced given told (.error fault) :=
  Provenance.Comes.plain h

theorem cycle {fields : List String} (h : told fields) :
    Sourced given told (.error (.cycle fields)) := by
  refine .error fun fields' hfault => .inr ?_
  obtain rfl := Fault.cycle.inj hfault
  exact h

theorem cycle_iff {fields : List String} :
    Sourced given told (.error (.cycle fields)) ↔ given fields ∨ told fields := by
  refine ⟨fun h => ?_, ?_⟩
  · cases h with
    | error h => exact h fields rfl
  · rintro (h | h)
    · refine .error fun fields' hfault => .inl ?_
      obtain rfl := Fault.cycle.inj hfault
      exact h
    · exact cycle h

theorem toResult (h : v.Given given) : Sourced given told v.toResult :=
  Provenance.Comes.toResult (P := .telling given told) h

theorem select (path : Path) (columns : List Column) (h : v.Given given) :
    Sourced given told (path.select columns v) :=
  Provenance.select path columns (toResult h)

/-- A run of an expression comes to what its answers come to. -/
theorem run {σ : Type} {limit : Nat} {text : String} {e : Expr}
    (he : Expr.ofText limit text = .ok e) (setting : Setting) (depth : Nat)
    {answer : Path → Nat → σ → Result × σ} (kept : σ → Prop)
    (hanswer : ∀ path depth s, path.root ∈ e.references → kept s →
      Sourced given told (answer path depth s).1 ∧ kept (answer path depth s).2) {s : σ}
    (hs : kept s) :
    Sourced given told (Stop.settle ((e.eval setting depth []).run answer s).1) ∧
      kept ((e.eval setting depth []).run answer s).2 := by
  refine Provenance.Yields.run (P := .telling given told)
    (Provenance.eval e (fun _ h => absurd h List.not_mem_nil) fun v hv => ?_)
    (Expr.eval_asks setting depth e) kept hanswer hs
  exact (Expr.ofText_written he v hv).mono fun _ h => h.elim

end Sourced

namespace Session

variable {δ : Type} [Host δ] {host : δ} {config : Config} {clock : Instant}
  {given : List String → Prop}

/-- What is remembered of a field lists what is given, or fields below the field. -/
structure AllSourced (host : δ) (config : Config) (given : List String → Prop) (s : Session) :
    Prop where
  formulas : s.formulas.Faithful config.maxDepth
  known : ∀ f r, s.memo.results.find? f = some r →
    Sourced given (ListedBelow (Host.Refers config.maxDepth host) f) r

theorem AllSourced.of_results {s t : Session} (h : AllSourced host config given s)
    (hresults : t.memo.results = s.memo.results) (hformulas : t.formulas.Faithful config.maxDepth) :
    AllSourced host config given t where
  formulas := hformulas
  known f r hr := h.known f r (hresults ▸ hr)

theorem AllSourced.remember {field : String} {r : Result × Session}
    (h : AllSourced host config given r.2)
    (hr : Sourced given (ListedBelow (Host.Refers config.maxDepth host) field) r.1)
    (s : Session) : AllSourced host config given (remember field s r) := by
  refine ⟨h.formulas, fun f r' hf => ?_⟩
  rw [find?_remember] at hf
  split at hf
  next hstored =>
    obtain rfl := Option.some.inj hf
    exact hstored.2 ▸ hr
  next => exact h.known f r' hf

section

variable (hstored : ∀ f v, Host.value? host f = some v → v.Given given)

include hstored

theorem sourced_answerWith {told : List String → Prop}
    {read : String → Nat → Session → Result × Session} {path : Path} {depth : Nat} {s : Session}
    (hs : AllSourced host config given s)
    (hread : Sourced given told (read path.root depth s).1 ∧
      AllSourced host config given (read path.root depth s).2) :
    Sourced given told (answerWith host read path depth s).1 ∧
      AllSourced host config given (answerWith host read path depth s).2 := by
  unfold answerWith
  cases Host.formula? host path.root with
  | some text =>
    refine ⟨Provenance.Comes.bind hread.1 fun v hv => ?_, hread.2⟩
    exact Sourced.select path _ hv
  | none =>
    cases hvalue : Host.value? host path.root with
    | some v => exact ⟨Sourced.select path _ (hstored _ v hvalue), hs⟩
    | none => exact ⟨.plain trivial, hs⟩

omit hstored in
/-- A formula comes to what the fields that it refers to come to. -/
theorem sourced_outcome {told : List String → Prop} {text : String}
    {answer : Path → Nat → Session → Result × Session}
    (hanswer : ∀ path depth s, path.root ∈ references config.maxDepth text →
      AllSourced host config given s → Sourced given told (answer path depth s).1 ∧
        AllSourced host config given (answer path depth s).2)
    (clock : Instant) (depth : Nat) {s : Session} (hs : AllSourced host config given s) :
    let step := outcome config clock answer depth (Expr.ofText config.maxDepth text) s
    Sourced given told step.1 ∧ AllSourced host config given step.2 := by
  unfold outcome
  cases he : Expr.ofText config.maxDepth text with
  | error failure => exact ⟨.plain trivial, hs⟩
  | ok e =>
    have hrun := Sourced.run he (setting config clock) depth (AllSourced host config given)
      (fun path depth s hpath => hanswer path depth s ((mem_references he).2 hpath)) hs
    dsimp only
    generalize (e.eval (setting config clock) depth []).run answer s = step at hrun ⊢
    obtain ⟨r, t⟩ := step
    cases r with
    | ok v => exact hrun
    | error reason => exact ⟨hrun.1, hrun.2.formulas, hrun.2.known⟩

/-- Inside a chain of fields that refer to each other, reading a field tells of circles
that are given or below the field, and so does all that is remembered afterwards. -/
theorem sourced_readField (room : Nat) {chain : List String} {field : String} (depth : Nat)
    {s : Session} (hchain : (chain ++ [field]).IsChain (Host.Refers config.maxDepth host))
    (hs : AllSourced host config given s) :
    let step := readField host config clock room chain field depth s
    Sourced given (ListedBelow (Host.Refers config.maxDepth host) field) step.1 ∧
      AllSourced host config given step.2 := by
  refine readField_induct (motive := fun _ chain field _ s step =>
      (chain ++ [field]).IsChain (Host.Refers config.maxDepth host) →
      AllSourced host config given s →
      Sourced given (ListedBelow (Host.Refers config.maxDepth host) field) step.1 ∧
        AllSourced host config given step.2)
    ?clean ?circle ?tooLong ?unknown ?computed room chain field depth s hchain hs
  case clean =>
    intro _ _ field _ s memo result hmemo hfound _ hs
    exact ⟨hs.known field result hfound, hs.of_results hmemo hs.formulas⟩
  case circle =>
    intro _ chain field _ s memo hmemo _ hfield hchain hs
    exact ⟨.cycle (.circle hchain hfield), hs.of_results hmemo hs.formulas⟩
  case tooLong =>
    intro _ _ _ s memo hmemo _ _ _ hs
    exact ⟨.plain trivial, hs.of_results hmemo hs.formulas⟩
  case unknown =>
    intro _ _ _ _ s memo hmemo _ _ _ _ hs
    exact ⟨.plain trivial, hs.of_results hmemo hs.formulas⟩
  case computed =>
    intro room chain field depth s memo text hmemo _ _ htext ih hchain hs
    obtain ⟨hparsed, hformulas⟩ := hs.formulas.parse field text
    rw [compute_eq, hparsed]
    generalize (Formulas.parse _ field text config.maxDepth).2 = formulas at hformulas ⊢
    have hinner : AllSourced host config given ⟨memo, formulas, false⟩ :=
      hs.of_results hmemo hformulas
    have hanswer : ∀ (path : Path) d t, path.root ∈ references config.maxDepth text →
        AllSourced host config given t →
        let next := answerWith host (readField host config clock room (chain ++ [field])) path d t
        Sourced given (ListedBelow (Host.Refers config.maxDepth host) field) next.1 ∧
          AllSourced host config given next.2 := by
      intro path d t hpath ht
      have hstep : Host.Refers config.maxDepth host field path.root := ⟨text, htext, hpath⟩
      have hchain' : (chain ++ [field] ++ [path.root]).IsChain
          (Host.Refers config.maxDepth host) := by
        rw [List.append_assoc]
        exact List.isChain_append_cons_cons.2 ⟨hchain, hstep, .singleton _⟩
      obtain ⟨hnext, ht'⟩ := ih path.root d t hchain' ht
      exact sourced_answerWith hstored ht ⟨hnext.mono fun _ h => h.head hstep, ht'⟩
    obtain ⟨hout, hkept⟩ := sourced_outcome hanswer clock depth hinner
    exact ⟨hout, hkept.remember hout _⟩

theorem sourced_answer (clock : Instant) (path : Path) (depth : Nat) {s : Session}
    (hs : AllSourced host config given s) :
    let step := answer host config clock path depth s
    Sourced given (ListedBelow (Host.Refers config.maxDepth host) path.root) step.1 ∧
      AllSourced host config given step.2 :=
  sourced_answerWith hstored hs
    (sourced_readField hstored config.maxReferenceDepth depth (.singleton path.root) hs)

end

end Session

end Formulary
