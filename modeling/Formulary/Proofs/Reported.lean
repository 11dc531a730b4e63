/-
  The circles that engines report.

  A list of fields in a fault that an engine returns was in a value that the host held or
  that was written, or it lists a circle of references, or else a group of three fields or
  more by name, which need not refer to each other in this order.

  * `Host.Holds`, `Action.Brings`: the faults that come from outside;
  * `Engine.AllSourced`: an engine that tells of no other lists;
  * `Engine.AllSourced.recompute`, `Engine.AllSourced.forget`: computations and changes
    keep this;
  * `Engine.sourced_perform`, `Engine.sourced_run`: so do actions, and runs of them;
  * `Engine.listed_of_returns`: what a returned fault lists;
  * `Engine.value_of_circle`: what a new engine lists for a field on a circle;
  * `Engine.cycle_of_returns`: both of these.
-/
import Formulary.Proofs.Run
import Formulary.Proofs.Told
import Mathlib

namespace Formulary

open Relation

namespace Engine

section

variable {δ : Type} [Host δ]

/-- The formula of a field refers to another field. -/
def refers (engine : Engine δ) : String → String → Prop :=
  Host.Refers engine.config.maxDepth engine.host

/-- An engine in step whose values and results list fields in a circle only where the list
is given or names fields below. -/
structure AllSourced (given : List String → Prop) (engine : Engine δ) : Prop where
  inStep : engine.InStep
  stored : ∀ f v, Host.value? engine.host f = some v → v.Given given
  known : ∀ f r, engine.known f = some r → Sourced given (ListedBelow engine.refers f) r

end

variable {δ : Type} [Owner δ] {engine engine' : Engine δ} {given : List String → Prop}
  {field : String}

theorem Follows.refers_eq (h : Follows engine engine') : engine'.refers = engine.refers := by
  funext u v
  simp only [refers, Host.Refers, h.config, h.formula]

namespace AllSourced

variable (h : engine.AllSourced given)

include h

/-! ## Readings -/

theorem session : engine.session.AllSourced engine.host engine.config given :=
  ⟨h.inStep.formulas, h.known⟩

theorem resume {s : Session} (hs : s.AllSourced engine.host engine.config given) :
    (engine.resume s).AllSourced given :=
  ⟨⟨h.inStep.mirrored, h.inStep.precedents, hs.formulas⟩, h.stored, hs.known⟩

theorem read (field : String) :
    Sourced given (ListedBelow engine.refers field) (engine.read field).1 ∧
      (engine.read field).2.AllSourced given :=
  have hread := Session.sourced_readField h.stored engine.config.maxReferenceDepth 0
    (.singleton field) h.session
  ⟨hread.1, h.resume hread.2⟩

theorem evaluate (text : String) :
    Sourced given (IsListing engine.refers) (engine.evaluate text).1 ∧
      (engine.evaluate text).2.AllSourced given := by
  unfold Engine.evaluate
  cases he : Expr.ofText engine.config.maxDepth text with
  | error failure => exact ⟨.plain trivial, h⟩
  | ok e =>
    have hrun := Sourced.run he (Session.setting engine.config engine.clock) 0
      (Session.AllSourced engine.host engine.config given)
      (fun path depth s _ hs =>
        (Session.sourced_answer h.stored engine.clock path depth hs).imp_left fun hr =>
          hr.mono fun _ hlisted => hlisted.listing) h.session
    exact ⟨hrun.1, h.resume hrun.2⟩

/-! ## Computing in order -/

theorem computeField {fault? : Option Fault}
    (hfault : ∀ fault, fault? = some fault →
      Sourced given (ListedBelow engine.refers field) (.error fault)) :
    Sourced given (ListedBelow engine.refers field) (engine.computeField fault? field).1 ∧
      (engine.computeField fault? field).2.AllSourced given := by
  cases fault? with
  | none => exact h.read field
  | some fault =>
    have hr := hfault fault rfl
    refine ⟨hr, h.inStep.with_memo _, h.stored, fun f r hf => ?_⟩
    replace hf := (Memo.find?_store ..).symm.trans hf
    split at hf
    next heq =>
      obtain rfl := Option.some.inj hf
      exact heq ▸ hr
    next => exact h.known f r hf

end AllSourced

/-- What a computation in order has come to: results that list fields in a circle only
where they may. -/
structure SourcedProgress (given : List String → Prop) (engine : Engine δ) (targets : NameSet)
    (p : Progress δ) : Prop where
  sourced : p.engine.AllSourced given
  graph : p.engine.graph = engine.graph
  refers : p.engine.refers = engine.refers
  results : ∀ f r, p.results.find? f = some r → Sourced given (IsListing engine.refers) r
  fresh : ∀ f ∈ p.fresh, f ∈ targets

namespace SourcedProgress

variable {targets : NameSet} {p : Progress δ}

theorem advance (hp : SourcedProgress given engine targets p) {fault? : Option Fault}
    (hfault : ∀ fault, fault? = some fault →
      Sourced given (ListedBelow engine.refers field) (.error fault)) :
    SourcedProgress given engine targets (advance targets fault? p field) := by
  have hcompute := hp.sourced.computeField (hp.refers.symm ▸ hfault)
  have hgraph : (p.engine.computeField fault? field).2.graph = p.engine.graph := by
    cases fault? <;> rfl
  have hrefers : (p.engine.computeField fault? field).2.refers = p.engine.refers := by
    cases fault? <;> rfl
  rw [advance_eq (show p.engine.computeField fault? field = (_, _) from rfl)]
  refine ⟨hcompute.2, hgraph.trans hp.graph, hrefers.trans hp.refers, fun f r hr => ?_,
    fun f hf => ?_⟩
  · dsimp only at hr
    split at hr
    · rw [NameMap.find?_insert] at hr
      split at hr
      · obtain rfl := Option.some.inj hr
        exact hcompute.1.mono fun _ hlisted => hp.refers ▸ hlisted.listing
      · exact hp.results f r hr
    · exact hp.results f r hr
  · dsimp only at hf
    split at hf
    next ht =>
      rcases List.mem_append.1 hf with hf | hf
      · exact hp.fresh f hf
      · exact List.mem_singleton.1 hf ▸ ht.1
    next => exact hp.fresh f hf

end SourcedProgress

theorem AllSourced.computeInOrder (h : engine.AllSourced given) (targets : NameSet) :
    SourcedProgress given engine targets (engine.computeInOrder targets) := by
  obtain ⟨-, -, hp⟩ := computeInOrder_induct engine targets
    (motive := fun _ p => SourcedProgress given engine targets p)
    ⟨h, rfl, rfl, fun f r hr => by simp at hr, fun f hf => absurd hf List.not_mem_nil⟩
    fun _ p fault? field hturn hp => hp.advance fun fault hfault => by
      -- a fault that a field is given is that of a group of fields on circles
      cases hturn with
      | read => simp at hfault
      | circle hgroup hcyclic hmem =>
        obtain rfl := Option.some.inj hfault
        have hlisted := ListedBelow.group hgroup hcyclic hmem
        rw [h.inStep.reads_eq] at hlisted
        exact .cycle hlisted
  exact hp

namespace AllSourced

variable (h : engine.AllSourced given)

include h

/-! ## Pushing -/

theorem push {results : Results}
    (hresults : ∀ f r, results.find? f = some r → Sourced given (IsListing engine.refers) r)
    (hformula : (Host.formula? engine.host field).isSome) :
    (Engine.push results engine field).AllSourced given := by
  have hfollows := Follows.push h.inStep results field
  have hrefers := hfollows.refers_eq
  unfold Engine.push at hfollows hrefers ⊢
  cases hr : results.find? field with
  | none => exact h
  | some r =>
    rw [hr] at hfollows hrefers
    refine ⟨hfollows.inStep, fun f v hv => ?_, fun f r' hr' => hrefers ▸ h.known f r' hr'⟩
    dsimp only at hv
    rw [Owner.value?_push _ _ _ _ hformula] at hv
    split at hv
    · obtain rfl := Option.some.inj hv
      refine Value.Only.shown (fun v hok => ?_) _
      subst hok
      cases hresults field _ hr with
      | ok hv => exact hv
    · exact h.stored f v hv

theorem foldl_push {results : Results} {fresh : List String}
    (hresults : ∀ f r, results.find? f = some r → Sourced given (IsListing engine.refers) r)
    (hformula : ∀ f ∈ fresh, (Host.formula? engine.host f).isSome) :
    (fresh.foldl (Engine.push results) engine).AllSourced given ∧
      (fresh.foldl (Engine.push results) engine).refers = engine.refers := by
  induction fresh generalizing engine with
  | nil => exact ⟨h, rfl⟩
  | cons f rest ih =>
    have hfollows := Follows.push h.inStep results f
    have hrefers := hfollows.refers_eq
    obtain ⟨hall, heq⟩ := ih (h.push hresults (hformula f List.mem_cons_self))
      (hrefers ▸ hresults) fun g hg => hfollows.formula g ▸ hformula g (List.mem_cons_of_mem _ hg)
    exact ⟨hall, heq.trans hrefers⟩

/-! ## Operations -/

theorem recompute (fields : NameSet) :
    (engine.recompute fields).2.AllSourced given ∧
      (engine.recompute fields).2.refers = engine.refers ∧
      ∀ f r, (engine.recompute fields).1.find? f = some r →
        Sourced given (IsListing engine.refers) r := by
  have hp := h.computeInOrder (engine.targetsOf fields)
  have hfollows := Follows.computeInOrder h.inStep (engine.targetsOf fields)
  obtain ⟨hall, hrefers⟩ := hp.sourced.foldl_push (hp.refers.symm ▸ hp.results) fun f hf =>
    hfollows.formula f ▸ (mem_targetsOf.1 (hp.fresh f hf)).2
  exact ⟨hall, hrefers.trans hp.refers, hp.results⟩

theorem value (field : String) :
    (engine.value field).2.AllSourced given ∧ (engine.value field).2.refers = engine.refers ∧
      Sourced given (IsListing engine.refers) (engine.value field).1 := by
  unfold Engine.value
  cases Host.formula? engine.host field with
  | none =>
    cases hvalue : Host.value? engine.host field with
    | some v => exact ⟨h, rfl, .toResult (h.stored field v hvalue)⟩
    | none => exact ⟨h, rfl, .plain trivial⟩
  | some text =>
    have hp := h.computeInOrder (NameSet.ofList [field])
    dsimp only
    cases hr : (engine.computeInOrder (NameSet.ofList [field])).results.find? field with
    | some r => exact ⟨hp.sourced, hp.refers, hp.results field r hr⟩
    | none =>
      obtain ⟨hread, hall⟩ := hp.sourced.read field
      exact ⟨hall, hp.refers, hread.mono fun _ hlisted => hp.refers ▸ hlisted.listing⟩

theorem clear : AllSourced given { engine with memo := engine.memo.clear } :=
  ⟨h.inStep.with_memo _, h.stored, fun f r hr =>
    absurd (show (none : Option Result) = some r from hr) (by simp)⟩

/-- After a change of a field, what is remembered of fields that do not lead to it still
lists only what is given or below. -/
theorem forget (hchanged : Changed [field] engine engine')
    (hvalue : ∀ v, Host.value? engine'.host field = some v → v.Given given) :
    (engine'.invalidate [field]).2.AllSourced given := by
  obtain ⟨memo, heq, hmemo⟩ := invalidate_eq engine' [field]
  have hforgot := hchanged.forgotten hmemo
  have hinStep' : InStep { engine' with memo } := hchanged.inStep.with_memo memo
  rw [heq]
  refine ⟨hinStep', fun f v hv => ?_, fun f r hr => ?_⟩
  · by_cases hf : f = field
    · exact hvalue v (hf ▸ hv)
    · exact h.stored f v ((hchanged.stored f (by simpa using hf)).trans hv)
  · have hsome : (Engine.known { engine' with memo } f).isSome := by rw [hr]; rfl
    have hold := h.known f r ((hforgot.known_eq hsome).symm.trans hr)
    rw [refers, ← h.inStep.reads_eq] at hold
    rw [refers, ← hinStep'.reads_eq]
    have hagree : ∀ u, u ∉ [field] → ∀ v, engine.graph.Reads u v → engine'.graph.Reads u v :=
      fun u hu v huv => (hforgot.reads_iff h.inStep hinStep' hu).1 huv
    have hfar : ∀ x ∈ [field], ¬ ReflTransGen engine'.graph.Reads f x :=
      fun x hx hfx => hforgot.not_changed hinStep' hsome hfx hx
    exact hold.mono fun _ hlisted => hlisted.congr fun u hfu v huv =>
      hagree u (fun hu => hfar u hu (Graph.reads_of_agree hagree hfar hfu)) v huv

theorem react (hchanged : Changed [field] engine engine')
    (hvalue : ∀ v, Host.value? engine'.host field = some v → v.Given given) :
    (engine'.react field).2.AllSourced given ∧ (engine'.react field).2.refers = engine'.refers ∧
      ∀ f r, (engine'.react field).1.find? f = some r →
        Sourced given (IsListing engine'.refers) r := by
  have hforget := h.forget hchanged hvalue
  rw [react_eq]
  cases engine'.config.policy with
  | eager => exact hforget.recompute _
  | whenRead => exact ⟨hforget, rfl, fun f r hr => by simp at hr⟩

end AllSourced

end Engine

/-! ## Runs -/

/-- A fault stands inside a value that a host holds. -/
def Host.Holds {δ : Type} [Host δ] (host : δ) (fault : Fault) : Prop :=
  ∃ f v, Host.value? host f = some v ∧ v.Holds fault

/-- A fault stands inside a value that an action writes. -/
def Action.Brings (fault : Fault) : Action → Prop
  | update _ v => v.Holds fault
  | _ => False

/-- An answer holds a result. -/
def Answer.Returns (r : Result) : Answer → Prop
  | results found => ∃ f, found.find? f = some r
  | value _ result => result = r
  | expression result => result = r
  | names _ => False
  | nothing => False

namespace Engine

section

variable {engine : Engine Document} {given : List String → Prop} {action : Action}

/-- An action keeps to this if what it writes does, and what it returns lists fields in a
circle only where the list is given or a listing. -/
theorem sourced_perform (h : engine.AllSourced given)
    (hbrings : ∀ fields, action.Brings (.cycle fields) → given fields) :
    (engine.perform action).2.AllSourced given ∧ ∀ r, (engine.perform action).1.Returns r →
      Sourced given (IsListing (engine.perform action).2.refers) r := by
  cases action with
  | update field v =>
    obtain ⟨hall, hrefers, hresults⟩ := h.react (inStep_write h.inStep field v) fun w hw => by
      rw [Document.value?_write_self] at hw
      obtain rfl := Option.some.inj hw
      rintro _ hfault fields rfl
      exact hbrings fields hfault
    exact ⟨hall, fun r ⟨f, hr⟩ => hrefers ▸ hresults f r hr⟩
  | invalidate fields =>
    obtain ⟨memo, heq, hmemo⟩ := invalidate_eq engine fields
    refine ⟨?_, fun r hr => hr.elim⟩
    show (engine.invalidate fields).2.AllSourced given
    rw [heq]
    refine ⟨h.inStep.with_memo memo, h.stored, fun f r hr => ?_⟩
    replace hr := (hmemo f).symm.trans hr
    split at hr
    · simp at hr
    · exact h.known f r hr
  | recompute fields =>
    obtain ⟨hall, hrefers, hresults⟩ := h.recompute fields
    exact ⟨hall, fun r ⟨f, hr⟩ => hrefers ▸ hresults f r hr⟩
  | value field =>
    obtain ⟨hall, hrefers, hresult⟩ := h.value field
    exact ⟨hall, fun r hr => hrefers ▸ (hr : _ = r) ▸ hresult⟩
  | evaluateAll =>
    obtain ⟨hall, hrefers, hresults⟩ := h.clear.recompute engine.graph.fields
    exact ⟨hall, fun r ⟨f, hr⟩ => hrefers ▸ hresults f r hr⟩
  | evaluate text =>
    obtain ⟨hresult, hall⟩ := h.evaluate text
    have hrefers := (Follows.evaluate h.inStep text).refers_eq
    exact ⟨hall, fun r hr => hrefers ▸ (hr : _ = r) ▸ hresult⟩
  | edit e =>
    obtain ⟨hall, hrefers, hresults⟩ := h.react (changed_edited h.inStep e) fun v hv => by
      rw [host_edited] at hv
      rcases Document.value?_edit_self hv with hv | ⟨spec, hv⟩
      · exact h.stored _ v hv
      · exact Document.gives_initialValue spec v hv
    rw [← report_eq] at hall hrefers hresults
    exact ⟨hall, fun r ⟨f, hr⟩ => hrefers ▸ hresults f r hr⟩
  | tick clock =>
    exact ⟨⟨h.inStep.with_clock clock, h.stored, h.known⟩, fun r hr => hr.elim⟩

theorem sourced_run (h : engine.AllSourced given) {actions : List Action}
    (hbrings : ∀ action ∈ actions, ∀ fields, action.Brings (.cycle fields) → given fields) :
    (engine.performAll actions).AllSourced given := by
  induction actions generalizing engine with
  | nil => exact h
  | cons action rest ih =>
    exact ih (sourced_perform h (hbrings action List.mem_cons_self)).1 fun a ha =>
      hbrings a (List.mem_cons_of_mem _ ha)

theorem sourced_build (config : Config) (clock : Instant) {doc : Document}
    (hholds : ∀ fields, Host.Holds doc (.cycle fields) → given fields) :
    (build config clock doc).AllSourced given := by
  have hinStep := inStep_build config clock doc
  obtain ⟨graph, formulas, heq, -⟩ := build_eq config clock doc
  rw [heq] at hinStep ⊢
  refine ⟨hinStep, fun f v hv => ?_, fun f r hr => ?_⟩
  · rintro _ hfault fields rfl
    exact hholds fields ⟨f, v, hv, hfault⟩
  · exact absurd (show (none : Option Result) = some r from hr) (by simp)

end

/-- What the fault lists that an action of a run returns. -/
theorem listed_of_returns (config : Config) (clock : Instant) (doc : Document)
    (run : List Action) (action : Action) {fields : List String} :
    let step := ((build config clock doc).performAll run).perform action
    step.1.Returns (.error (.cycle fields)) →
      IsCircle (Host.Refers config.maxDepth step.2.host) fields ∨
      IsGroupByName (Host.Refers config.maxDepth step.2.host) fields ∨
      Host.Holds doc (.cycle fields) ∨ ∃ a ∈ run ++ [action], a.Brings (.cycle fields) := by
  intro step hreturns
  let given (fields : List String) : Prop :=
    Host.Holds doc (.cycle fields) ∨ ∃ a ∈ run ++ [action], a.Brings (.cycle fields)
  have hbuild : (build config clock doc).AllSourced given :=
    sourced_build config clock fun _ => .inl
  have hrun := sourced_run hbuild fun a ha fields h =>
    (.inr ⟨a, List.mem_append_left _ ha, h⟩ : given fields)
  obtain ⟨hall, hresults⟩ := sourced_perform hrun fun fields h =>
    (.inr ⟨action, by simp, h⟩ : given fields)
  have hconfig : step.2.config = config :=
    (inStep_perform hrun.inStep action).2.1.trans
      ((inStep_run hbuild.inStep run).2.trans (config_build config clock doc))
  have hsourced := hresults _ hreturns
  rw [refers, show (perform _ action).2.config = config from hconfig] at hsourced
  rcases Sourced.cycle_iff.1 hsourced with hgiven | hcircle | hgroup
  · exact .inr (.inr hgiven)
  · exact .inl hcircle
  · exact .inr (.inl hgroup)

/-! ## New engines -/

section

variable {δ : Type} [Owner δ] {engine : Engine δ} {field : String}

/-- Where nothing is remembered, a way between fields of a circle lies in what is computed
for one of them. -/
theorem within_of_leads (hinStep : engine.InStep) (hempty : ∀ f, engine.known f = none)
    {targets : NameSet} {u v : String} (hu : u ∈ engine.withStalePrecedents targets)
    (hfield : field ∈ engine.withStalePrecedents targets)
    (huv : ReflTransGen engine.graph.Reads u v) (hv : ReflTransGen engine.graph.Reads v field) :
    ReflTransGen (engine.graph.ReadsWithin (engine.withStalePrecedents targets)) u v := by
  induction huv with
  | refl => exact .refl
  | @tail w v _ hwv ih =>
    have hway := ih (.head hwv hv)
    have hw := Graph.mem_within_of_reads hu hway
    refine hway.tail ⟨hw, ?_, hwv⟩
    rcases ReflTransGen.cases_head hv with rfl | ⟨x, hvx, -⟩
    · exact hfield
    · exact mem_within_of_stale hw hwv (isStale_iff.2 ⟨hempty v, hinStep.formula_of_reads hvx⟩)

/-- A new engine reports of a field on a circle all fields that lead to it and to which it
leads, by name. -/
theorem value_of_circle (config : Config) (clock : Instant) (host : δ)
    (hroom : 1 ≤ config.maxReferenceDepth)
    (hcircle : TransGen (Host.Refers config.maxDepth host) field field) :
    ∃ group : NameSet,
      (∀ f, f ∈ group ↔ ReflTransGen (Host.Refers config.maxDepth host) field f ∧
        ReflTransGen (Host.Refers config.maxDepth host) f field) ∧
      ((build config clock host).value field).1 =
        .error (.cycle (group.names ++ group.names.take 1)) := by
  have hinStep := inStep_build config clock host
  have hempty := known_build config clock host
  have hreads := hinStep.reads_eq
  rw [config_build, host_build] at hreads
  rw [← config_build config clock host] at hroom
  rw [← hreads] at hcircle ⊢
  generalize build config clock host = engine at hinStep hempty hroom hcircle ⊢
  obtain ⟨next, hnext, -⟩ := TransGen.head'_iff.1 hcircle
  obtain ⟨p, r, heq, hr, -, hp⟩ := value_eq hinStep hroom (hinStep.formula_of_reads hnext)
  have hmem : field ∈ engine.withStalePrecedents (NameSet.ofList [field]) :=
    target_mem_within (by simp)
  obtain ⟨group, hgroup, hin, hfind⟩ := hp.knotted field hmem
    ((held_of_empty hempty).knot_of_circle hinStep hmem (hempty field) hcircle)
  obtain rfl := Option.some.inj (hr.symm.trans hfind)
  obtain ⟨done, hknot⟩ := (Graph.ordered_components _ _).nextGroup hgroup
  refine ⟨⟨group, Graph.sorted_of_mem_components hgroup⟩, fun f => ?_, by rw [heq]; rfl⟩
  refine (hknot.knot field hin f).trans ⟨fun h => ?_, fun h => ?_⟩
  · exact ⟨ReflTransGen.mono (fun _ _ h => h.2.2) _ _ h.1,
      ReflTransGen.mono (fun _ _ h => h.2.2) _ _ h.2⟩
  · have hway := within_of_leads hinStep hempty hmem hmem h.1 h.2
    have hfmem := Graph.mem_within_of_reads hmem hway
    exact ⟨hway, within_of_leads hinStep hempty hfmem hmem h.2 .refl⟩

end

/-! ## What is reported -/

/-- **Main result.** Whatever the limits are: a list of fields in a fault that any action of
any run returns is a walk of references from a field back to itself, or lists a group of
three fields or more that lead to each other by name, or it stood inside a value of the
document or one that was written.  A new engine lists for every field on a circle its whole
group, by name. -/
theorem cycle_of_returns (config : Config) (clock : Instant) (doc : Document) :
    (∀ run action fields,
      let step := ((build config clock doc).performAll run).perform action
      step.1.Returns (.error (.cycle fields)) →
        IsCircle (Host.Refers config.maxDepth step.2.host) fields ∨
        IsGroupByName (Host.Refers config.maxDepth step.2.host) fields ∨
        Host.Holds doc (.cycle fields) ∨ ∃ a ∈ run ++ [action], a.Brings (.cycle fields)) ∧
    (1 ≤ config.maxReferenceDepth → ∀ field,
      TransGen (Host.Refers config.maxDepth doc) field field →
        ∃ group : NameSet,
          (∀ f, f ∈ group ↔ ReflTransGen (Host.Refers config.maxDepth doc) field f ∧
            ReflTransGen (Host.Refers config.maxDepth doc) f field) ∧
          ((build config clock doc).value field).1 =
            .error (.cycle (group.names ++ group.names.take 1))) :=
  ⟨fun run action _ => listed_of_returns config clock doc run action,
    fun hroom _ hcircle => value_of_circle config clock doc hroom hcircle⟩

/-- Three fields of which each refers to the one before it, and the first to the last. -/
def ring : Document where
  fields := [⟨"a", .other, .null, some "{c}", []⟩, ⟨"b", .other, .null, some "{a}", []⟩,
    ⟨"c", .other, .null, some "{b}", []⟩]
  distinct := by decide

/-- The formula of a field that names one other field. -/
theorem refers_ring {f g : String} (text : String) (htext : Host.formula? ring f = some text)
    (hnames : (references 64 text).names = [g]) (h : String) :
    Host.Refers 64 ring f h ↔ h = g := by
  constructor
  · rintro ⟨text', htext', hmem⟩
    obtain rfl := Option.some.inj (htext.symm.trans htext')
    rwa [← NameSet.mem_names, hnames, List.mem_singleton] at hmem
  · rintro rfl
    exact ⟨text, htext, by rw [← NameSet.mem_names, hnames, List.mem_singleton]⟩

set_option maxRecDepth 8192 in
/-- The list starts with a field that does not refer to the next one. -/
theorem value_ring_unreal : ((build .standard ⟨0, 0⟩ ring).perform (.value "a")).1.Returns
      (.error (.cycle ["a", "b", "c", "a"])) ∧ ¬ Host.Refers 64 ring "a" "b" := by
  refine ⟨by show ((build .standard ⟨0, 0⟩ ring).value "a").1 = _; cbv, ?_⟩
  have hnames : (references 64 "{c}").names = ["c"] := by cbv
  rw [refers_ring "{c}" (by cbv) hnames]
  decide

set_option maxRecDepth 8192 in
/-- It is no circle, and nothing came from outside, so it is a group by name: that of all
fields on the circle. -/
theorem cycle_of_returns_ring :
    let step := ((build .standard ⟨0, 0⟩ ring).performAll []).perform (.value "a")
    step.1.Returns (.error (.cycle ["a", "b", "c", "a"])) ∧
      IsGroupByName (Host.Refers 64 step.2.host) ["a", "b", "c", "a"] ∧
      ∃ group : NameSet, (∀ f, f ∈ group ↔ ReflTransGen (Host.Refers 64 ring) "a" f ∧
          ReflTransGen (Host.Refers 64 ring) f "a") ∧
        group.names ++ group.names.take 1 = ["a", "b", "c", "a"] := by
  intro step
  obtain ⟨hlisted, hnew⟩ := cycle_of_returns .standard ⟨0, 0⟩ ring
  have hvalue : ((build .standard ⟨0, 0⟩ ring).value "a").1 =
      .error (.cycle ["a", "b", "c", "a"]) := by cbv
  refine ⟨hvalue, ?_, ?_⟩
  · rcases hlisted [] (.value "a") _ hvalue with h | h | h | h
    · obtain ⟨text, htext, hb⟩ := (List.isChain_cons_cons.1 h.steps).1
      obtain rfl : text = "{c}" := Option.some.inj (htext.symm.trans (by cbv))
      have hnames : (references 64 "{c}").names = ["c"] := by cbv
      rw [show Config.standard.maxDepth = 64 from rfl, ← NameSet.mem_names, hnames] at hb
      exact absurd hb (by decide)
    · exact h
    · obtain ⟨f, v, hv, hholds⟩ := h
      obtain ⟨field, hfield, rfl⟩ := Option.map_eq_some_iff.1 hv
      have hmem : field ∈ ring.fields := Document.mem_of_field? hfield
      have hnull : ∀ field ∈ ring.fields, field.value = .null := by simp [ring]
      rw [hnull field hmem] at hholds
      cases hholds
    · obtain ⟨a, ha, hbrings⟩ := h
      obtain rfl : a = .value "a" := by simpa using ha
      exact hbrings.elim
  · have hac : Host.Refers 64 ring "a" "c" :=
      (refers_ring "{c}" (by cbv) (by cbv) _).2 rfl
    have hcb : Host.Refers 64 ring "c" "b" :=
      (refers_ring "{b}" (by cbv) (by cbv) _).2 rfl
    have hba : Host.Refers 64 ring "b" "a" :=
      (refers_ring "{a}" (by cbv) (by cbv) _).2 rfl
    obtain ⟨group, hgroup, hreported⟩ :=
      hnew (by decide) "a" (.tail (.tail (.single hac) hcb) hba)
    rw [hvalue] at hreported
    exact ⟨group, hgroup, (Fault.cycle.inj (Except.error.inj hreported)).symm⟩

end Engine

end Formulary
