/-
  The evaluation of a document after assignments.

  Whatever the policy is, and in whatever order the assignments came, every formula field is
  read in the end, from an engine that is determined by what formulas look at.  What is
  reported of it thus depends on the document that the assignments make, up to the circle
  that a fault lists.

  * `Command.Covers`: an evaluation so far, and the document that it is about;
  * `Command.Covers.updated`, `Command.Covers.refresh`: assignments and reads keep it;
  * `Command.Covers.refreshed`: once all formula fields are read, there are the results of
    that document;
  * `Command.evaluated_eq`: an evaluation ends so;
  * `Result.relist`, `Results.relisted`: results that list other circles;
  * `Command.report_congr`: a report depends on results and plain fields;
  * `Command.Covers.report_relisted`: reports on evaluations of one document;
  * `Request.answer_reordered`: what two requests print.
-/
import Formulary.Command
import Formulary.Proofs.Assigned
import Formulary.Proofs.Determined

namespace Formulary

namespace Command

open Engine

variable {config : Config} {clock : Instant} {doc : Document} {s : Evaluated} {field : String}

/-! ## Evaluations -/

/-- An evaluation is about a document at some time: its engine is determined, its host agrees
with the document, and its results are of formula fields. -/
structure Covers (config : Config) (clock : Instant) (doc : Document) (s : Evaluated) :
    Prop where
  determined : s.engine.Determined
  config : s.engine.config = config
  clock : s.engine.clock = clock
  agree : s.engine.host.Agree doc
  keys : ∀ f, (s.results.find? f).isSome → (Host.formula? doc f).isSome

/-- An evaluation after one more assignment. -/
def Evaluated.updated (s : Evaluated) (a : Assignment) : Evaluated :=
  ⟨(s.engine.update a.field a.value).2, s.results.union (s.engine.update a.field a.value).1⟩

theorem covers_evaluateAll (config : Config) (clock : Instant) (doc : Document) :
    Covers config clock doc ⟨(build config clock doc).evaluateAll.2,
      (build config clock doc).evaluateAll.1⟩ := by
  have hbuild := determined_build config clock doc
  have hhost := host_build config clock doc
  have hconfig := config_build config clock doc
  have hclock := clock_build config clock doc
  generalize build config clock doc = engine at hbuild hhost hconfig hclock ⊢
  subst hhost
  refine ⟨hbuild.evaluateAll, ?_, ?_, ?_, fun f hf => ?_⟩
  · exact (Follows.evaluateAll hbuild.inStep).config.trans hconfig
  · exact (clock_recompute _ _).trans hclock
  · refine recompute_induct (motive := fun e : Engine Document => e.host.Agree engine.host) _ _ ?_
      fun e f v hf he => he.push (mem_targetsOf.1 hf).2 v
    rw [(frame_computeInOrder _ _).1]
    exact .refl engine.host
  · exact (mem_targetsOf.1 (target_of_results hf)).2

namespace Covers

variable (h : Covers config clock doc s)

include h

/-- An assignment to a field of the document succeeds. -/
theorem assign_eq {a : Assignment} (ha : a.field ∈ doc.ids) : assign s a = .ok (s.updated a) := by
  rw [assign, if_pos (Document.has_iff.2 (h.agree.ids ▸ ha))]
  rfl

/-- The document takes the value of an assignment. -/
theorem updated {a : Assignment} (ha : a.field ∈ doc.ids) :
    Covers config clock (Host.write doc a.field a.value) (s.updated a) := by
  have hformula (f : String) : Host.formula? (Host.write doc a.field a.value) f =
      Host.formula? s.engine.host f :=
    (Owner.declared_write doc a.field a.value f).formula.trans (h.agree.declared f).formula.symm
  refine ⟨h.determined.update a.field a.value, ?_, ?_, ?_, fun f hf => ?_⟩
  · have hwritten := inStep_write h.determined.inStep a.field a.value
    exact (Follows.react hwritten.inStep a.field).config.trans h.config
  · exact (clock_update h.determined.inStep a.field a.value).trans h.clock
  · exact update_host_induct
      (motive := fun host : Document => host.Agree (Host.write doc a.field a.value)) s.engine
      a.field a.value (h.agree.write ha a.value) fun _ f v hf he => he.push (hformula f ▸ hf) v
  · rw [hformula]
    rcases NameMap.isSome_find?_union.1 hf with hf | hf
    · exact (h.agree.declared f).formula ▸ h.keys f hf
    · exact formula_of_update hf

/-- Assignments to fields of the document succeed, one after the other. -/
theorem assignAll {as : List Assignment} (has : ∀ a ∈ as, a.field ∈ doc.ids) :
    as.foldlM Command.assign s = .ok (as.foldl Evaluated.updated s) ∧
      Covers config clock (doc.assigned as) (as.foldl Evaluated.updated s) := by
  induction as generalizing doc s with
  | nil => exact ⟨rfl, h⟩
  | cons a rest ih =>
    obtain ⟨ha, hrest⟩ := List.forall_mem_cons.1 has
    obtain ⟨heq, hcovers⟩ := ih (h.updated ha) fun b hb => Document.ids_write ha ▸ hrest b hb
    exact ⟨by rw [List.foldlM_cons, h.assign_eq ha]; exact heq, hcovers⟩

theorem mem_formulaFields (f : String) :
    f ∈ Host.formulaFields s.engine.host ↔ (Host.formula? doc f).isSome := by
  rw [Document.mem_formulaFields, (h.agree.declared f).formula]

/-- To read a formula field leaves the document as it is. -/
theorem refresh (hformula : (Host.formula? doc field).isSome) :
    Covers config clock doc (refresh s field) := by
  obtain ⟨hhost, hconfig, hclock⟩ := host_value s.engine field
  refine ⟨h.determined.value field, hconfig.trans h.config, hclock.trans h.clock, ?_,
    fun f hf => ?_⟩
  · exact (show (s.engine.value field).2.host.Agree doc from hhost ▸ h.agree)
  · have hkeys : ((s.results.insert field (s.engine.value field).1).find? f).isSome := hf
    rw [NameMap.find?_insert] at hkeys
    split at hkeys
    next heq => exact heq ▸ hformula
    next => exact h.keys f hkeys

/-- What is read of a formula field is what a new engine over the document returns for it, at
the same time or where no formula calls `now`. -/
theorem alike_value {config₀ : Config} {clock₀ : Instant}
    (hdepth : config.maxDepth = config₀.maxDepth)
    (hroom : config.maxReferenceDepth = config₀.maxReferenceDepth)
    (htime : clock = clock₀ ∨ Timeless config.maxDepth doc) (hformula : (Host.formula? doc field).isSome) :
    Alike (s.engine.value field).1 ((build config₀ clock₀ doc).value field).1 := by
  have hagree : s.engine.host.Agree (build config₀ clock₀ doc).host := by
    rw [host_build]
    exact h.agree
  have hconfig := config_build config₀ clock₀ doc
  have hview : s.engine.SameView (build config₀ clock₀ doc) :=
    ⟨by rw [h.config, hconfig, hdepth], hagree.declared, hagree.stored⟩
  refine h.determined.alike_value (determined_build config₀ clock₀ doc) hview ?_ ?_ ?_
  · rw [h.config, hconfig, hroom]
  · rw [h.clock, clock_build, h.config]
    exact htime.imp_right fun htimeless f text e hf =>
      htimeless f text e ((h.agree.declared f).formula ▸ hf)
  · rwa [(h.agree.declared field).formula]

theorem find?_eq_none (hplain : Host.formula? doc field = none) :
    s.results.find? field = none := by
  rw [← Option.not_isSome_iff_eq_none]
  intro hsome
  simpa [hplain] using h.keys field hsome

/-- Once they are read, formula fields have results that are alike to those that each read
returns. -/
theorem refreshAll {result : String → Result} {fields : List String}
    (hresult : ∀ s, Covers config clock doc s → ∀ f, (Host.formula? doc f).isSome →
      Alike (s.engine.value f).1 (result f))
    (hfields : ∀ f ∈ fields, (Host.formula? doc f).isSome) :
    Covers config clock doc (fields.foldl Command.refresh s) ∧
      ∀ f, (f ∈ fields ∨ ∃ r, s.results.find? f = some r ∧ Alike r (result f)) →
        ∃ r, (fields.foldl Command.refresh s).results.find? f = some r ∧ Alike r (result f) := by
  induction fields generalizing s with
  | nil => exact ⟨h, fun f hf => hf.resolve_left List.not_mem_nil⟩
  | cons first rest ih =>
    obtain ⟨hfirst, hrest⟩ := List.forall_mem_cons.1 hfields
    obtain ⟨hcovers, hread⟩ := ih (h.refresh hfirst) hrest
    refine ⟨hcovers, fun f hf => hread f ?_⟩
    have hfind := NameMap.find?_insert s.results first f (s.engine.value first).1
    by_cases heq : first = f
    · subst heq
      rw [if_pos rfl] at hfind
      exact .inr ⟨_, hfind, hresult s h first hfirst⟩
    · rw [if_neg heq] at hfind
      refine hf.imp (fun hmem => ?_) fun ⟨r, hr, halike⟩ => ⟨r, hfind.trans hr, halike⟩
      exact (List.mem_cons.1 hmem).resolve_left (Ne.symm heq)

/-- Once all formula fields are read, there are the results that a new engine over the document
returns. -/
theorem refreshed (config₀ : Config) (clock₀ : Instant)
    (hdepth : config.maxDepth = config₀.maxDepth)
    (hroom : config.maxReferenceDepth = config₀.maxReferenceDepth)
    (htime : clock = clock₀ ∨ Timeless config.maxDepth doc) :
    Covers config clock doc ((Host.formulaFields s.engine.host).foldl Command.refresh s) ∧
      ∀ f, (Host.formula? doc f).isSome → ∃ r,
        ((Host.formulaFields s.engine.host).foldl Command.refresh s).results.find? f = some r ∧
          Alike r ((build config₀ clock₀ doc).value f).1 := by
  obtain ⟨hcovers, hread⟩ := h.refreshAll (fun _ hs _ => hs.alike_value hdepth hroom htime)
    fun f => (h.mem_formulaFields f).1
  exact ⟨hcovers, fun f hf => hread f (.inl ((h.mem_formulaFields f).2 hf))⟩

end Covers

/-- After the assignments all formula fields are read. -/
theorem evaluated_of_assigned {as : List Assignment}
    (hs : as.foldlM assign ⟨(build config clock doc).evaluateAll.2,
      (build config clock doc).evaluateAll.1⟩ = .ok s) :
    evaluated config clock doc as = .ok ((Host.formulaFields s.engine.host).foldl refresh s) := by
  unfold evaluated
  dsimp only
  rw [hs]
  rfl

/-- Whatever the policy is, and whenever the document is evaluated: the evaluation ends with
the results that a new engine over the assigned document returns. -/
theorem evaluated_eq (config config₀ : Config) (clock clock₀ : Instant) {as : List Assignment}
    (hdepth : config.maxDepth = config₀.maxDepth)
    (hroom : config.maxReferenceDepth = config₀.maxReferenceDepth)
    (htimeless : Timeless config.maxDepth doc) (has : ∀ a ∈ as, a.field ∈ doc.ids) :
    ∃ s, evaluated config clock doc as = .ok s ∧ Covers config clock (doc.assigned as) s ∧
      ∀ f, (Host.formula? (doc.assigned as) f).isSome → ∃ r, s.results.find? f = some r ∧
        Alike r ((build config₀ clock₀ (doc.assigned as)).value f).1 := by
  obtain ⟨hs, hcovers⟩ := (covers_evaluateAll config clock doc).assignAll has
  have hdeclared := Document.declared_assigned doc as
  have htimeless' : Timeless config.maxDepth (doc.assigned as) := fun f text e hf =>
    htimeless f text e ((hdeclared f).formula ▸ hf)
  obtain ⟨hcovers', hread⟩ := hcovers.refreshed config₀ clock₀ hdepth hroom (.inr htimeless')
  exact ⟨_, evaluated_of_assigned hs, hcovers', hread⟩

end Command

/-! ## Other circles -/

/-- A result that lists other fields if it is the fault of a circle. -/
def Result.relist (fields : List String) : Result → Result
  | .error (.cycle _) => .error (.cycle fields)
  | r => r

theorem Alike.exists_relist {r s : Result} (h : Alike r s) :
    ∃ fields, s = Result.relist fields r := by
  rcases h with rfl | ⟨_, fields, rfl, rfl⟩
  · cases r with
    | ok v => exact ⟨[], rfl⟩
    | error fault =>
      cases fault with
      | cycle fields => exact ⟨fields, rfl⟩
      | _ => exact ⟨[], rfl⟩
  · exact ⟨fields, rfl⟩

/-- Results that list other fields where they are faults of circles. -/
def Results.relisted (lists : String → List String) (results : Results) : Results :=
  NameMap.map (fun field => Result.relist (lists field)) results

/-- A result that is alike to another one is there. -/
theorem isSome_of_alike {found : Option Result} {result : Result}
    (h : ∃ r, found = some r ∧ Alike r result) : found.isSome :=
  Option.isSome_iff_exists.2 (h.imp fun _ => And.left)

/-- Results of the same fields that are alike list other fields at most. -/
theorem Results.exists_relisted {results results' : Results}
    (h : ∀ f, (results.find? f = none ∧ results'.find? f = none) ∨
      ∃ r r', results.find? f = some r ∧ results'.find? f = some r' ∧ Alike r r') :
    ∃ lists, results' = results.relisted lists := by
  have hlist (f : String) : ∃ fields,
      results'.find? f = (results.find? f).map (Result.relist fields) := by
    rcases h f with ⟨hnone, hnone'⟩ | ⟨r, r', hr, hr', halike⟩
    · exact ⟨[], by rw [hnone, hnone']; rfl⟩
    · obtain ⟨fields, heq⟩ := halike.exists_relist
      exact ⟨fields, by rw [hr, hr', heq]; rfl⟩
  choose lists hlists using hlist
  refine ⟨lists, NameMap.ext_find? fun f => ?_⟩
  rw [hlists f, relisted, NameMap.find?_map]

/-! ## Reports -/

namespace Report

variable {results : Results} {field field' : Field}

theorem shown_congr (hid : field.id = field'.id) (hkind : field.kind = field'.kind)
    (hvalue : results.find? field.id = none → field.value = field'.value) :
    shown results field = shown results field' := by
  unfold shown
  rw [← hid, ← hkind]
  cases hr : results.find? field.id with
  | some r => rfl
  | none => exact hvalue hr

theorem fieldLine_congr (hid : field.id = field'.id)
    (hshown : shown results field = shown results field') :
    fieldLine results field = fieldLine results field' := by
  unfold fieldLine
  rw [hid, hshown]

end Report

namespace Command

open Engine

/-- A report depends on the results and on the plain fields, if there is a result of every
formula field. -/
theorem report_congr {engine engine' : Engine Document} {results : Results}
    (hagree : engine.host.Agree engine'.host)
    (hresults : ∀ f, (Host.formula? engine.host f).isSome → (results.find? f).isSome)
    (format : Format) (file : String) :
    report format file ⟨engine, results⟩ = report format file ⟨engine', results⟩ := by
  have hfield (field field' : Field) (hfield : engine.host.field? field.id = some field)
      (hfield' : engine'.host.field? field.id = some field') : field.id = field'.id ∧
        Report.shown results field = Report.shown results field' := by
    have hid : field.id = field'.id := (Document.id_of_field? hfield').symm
    refine ⟨hid, Report.shown_congr hid ?_ fun hnone => ?_⟩
    · have hkind : (engine.host.field? field.id).elim FieldKind.other Field.kind =
          (engine'.host.field? field.id).elim FieldKind.other Field.kind :=
        (hagree.declared field.id).kind
      rwa [hfield, hfield'] at hkind
    · have hplain : Host.formula? engine.host field.id = none := by
        rw [← Option.not_isSome_iff_eq_none]
        intro hsome
        simpa [hnone] using hresults field.id hsome
      have hvalue : (engine.host.field? field.id).map Field.value =
          (engine'.host.field? field.id).map Field.value := hagree.stored field.id hplain
      rw [hfield, hfield'] at hvalue
      exact Option.some.inj hvalue
  cases format with
  | text =>
    have hlines : engine.host.fields.map (Report.fieldLine results) =
        engine'.host.fields.map (Report.fieldLine results) :=
      Document.map_fields_congr hagree.ids fun field field' hf hf' =>
        Report.fieldLine_congr (hfield field field' hf hf').1 (hfield field field' hf hf').2
    unfold report Report.values
    rw [hlines]
  | json =>
    have hvalues : engine.host.fields.map (fun f => (f.id, (Report.shown results f).toJson)) =
        engine'.host.fields.map fun f => (f.id, (Report.shown results f).toJson) :=
      Document.map_fields_congr hagree.ids fun field field' hf hf' => by
        rw [(hfield field field' hf hf').1, (hfield field field' hf hf').2]
    unfold report Report.valuesJson
    rw [hvalues]

section

variable {config config' : Config} {clock clock' : Instant} {doc : Document} {s s' : Evaluated}
  (h : Covers config clock doc s) (h' : Covers config' clock' doc s')

include h h'

/-- Evaluations of one document are reported by their results. -/
theorem Covers.report_eq
    (hall : ∀ f, (Host.formula? doc f).isSome → (s'.results.find? f).isSome) (format : Format)
    (file : String) : report format file s' = report format file { s with results := s'.results } :=
  report_congr (h'.agree.trans h.agree.symm)
    (fun f hf => hall f ((h'.agree.declared f).formula ▸ hf)) format file

/-- If the results are alike to the same ones, they are reported alike, but that each fault of a
circle may list another one. -/
theorem Covers.report_relisted {result : String → Result}
    (hs : ∀ f, (Host.formula? doc f).isSome → ∃ r, s.results.find? f = some r ∧ Alike r (result f))
    (hs' : ∀ f, (Host.formula? doc f).isSome →
      ∃ r, s'.results.find? f = some r ∧ Alike r (result f)) :
    ∃ lists, ∀ format file,
      report format file s' = report format file { s with results := s.results.relisted lists } := by
  obtain ⟨lists, hlists⟩ : ∃ lists, s'.results = s.results.relisted lists := by
    refine Results.exists_relisted fun f => ?_
    cases hf : Host.formula? doc f with
    | none => exact .inl ⟨h.find?_eq_none hf, h'.find?_eq_none hf⟩
    | some text =>
      obtain ⟨r, hr, halike⟩ := hs f (by rw [hf]; rfl)
      obtain ⟨r', hr', halike'⟩ := hs' f (by rw [hf]; rfl)
      exact .inr ⟨r, r', hr, hr', halike.trans halike'.symm⟩
  refine ⟨lists, fun format file => ?_⟩
  rw [← hlists]
  exact h.report_eq h' (fun f hf => isSome_of_alike (hs' f hf)) format file

end

end Command

namespace Request

variable {files : Files} {file : String} {config? : Option String} {config : Config}
  {doc : Document} {texts : List String} {as : List Assignment}

theorem answer_evaluate {s : Command.Evaluated} (clock : Instant) (format : Format)
    (hconfig : Command.loadConfig files config? = .ok config)
    (hdoc : (Command.load files file).bind Document.ofText = .ok doc)
    (htexts : texts.mapM Assignment.ofText = .ok as)
    (hs : Command.evaluated config clock doc as = .ok s) :
    answer files clock ⟨file, config?, .evaluate texts format⟩ =
      .ok (Command.report format file s) := by
  unfold answer
  dsimp only
  rw [hconfig, hdoc, htexts]
  show ((Command.evaluated config clock doc as).mapError DocumentFault.invalid).bind _ = _
  rw [hs]
  rfl

/-- **Main result.** Under any policy, at any time and with the assignments in any order that
keeps those to one field in order, what is printed of a document is the report on the same
results, but that each fault of a circle may list another one. -/
theorem answer_reordered {config?' : Option String} {policy : Policy} {texts' : List String}
    {as' : List Assignment} (clock clock' : Instant) (format : Format)
    (hconfig : Command.loadConfig files config? = .ok config)
    (hconfig' : Command.loadConfig files config?' = .ok { config with policy })
    (hdoc : (Command.load files file).bind Document.ofText = .ok doc)
    (htimeless : Engine.Timeless config.maxDepth doc)
    (htexts : texts.mapM Assignment.ofText = .ok as)
    (htexts' : texts'.mapM Assignment.ofText = .ok as')
    (hexist : ∀ a ∈ as, Host.has doc a.field = true)
    (hreordering : Assignment.Reordering as as') :
    ∃ s lists, Command.evaluated config clock doc as = .ok s ∧
      answer files clock ⟨file, config?, .evaluate texts format⟩ =
        .ok (Command.report format file s) ∧
      answer files clock' ⟨file, config?', .evaluate texts' format⟩ =
        .ok (Command.report format file { s with results := s.results.relisted lists }) := by
  have has : ∀ a ∈ as, a.field ∈ doc.ids := fun a ha => Document.has_iff.1 (hexist a ha)
  have has' : ∀ a ∈ as', a.field ∈ doc.ids := fun a ha => has a (hreordering.perm.mem_iff.2 ha)
  obtain ⟨s, hs, hcovers, hresults⟩ :=
    Command.evaluated_eq config config clock clock rfl rfl htimeless has
  obtain ⟨s', hs', hcovers', hresults'⟩ :=
    Command.evaluated_eq { config with policy } config clock' clock rfl rfl htimeless has'
  rw [← Document.assigned_reordering hreordering has] at hcovers' hresults'
  obtain ⟨lists, hreport⟩ := hcovers.report_relisted hcovers' hresults hresults'
  refine ⟨s, lists, hs, answer_evaluate clock format hconfig hdoc htexts hs, ?_⟩
  rw [answer_evaluate clock' format hconfig' hdoc htexts' hs', hreport]

/-- The configuration of a file that asks for nothing but the lazy policy. -/
theorem loadConfig_lazy {path : String} (h : files path = some "recompute: lazy") :
    Command.loadConfig files (some path) = .ok { Config.standard with policy := .whenRead } := by
  have hconfig : Config.ofText "recompute: lazy" =
      .ok { Config.standard with policy := .whenRead } := by cbv
  rw [Command.loadConfig, Command.load, h]
  exact hconfig

/-- Two fields and a formula that adds them up, and a configuration. -/
def tally : Files
  | "tally" => some "fields:\n- id: x\n- id: y\n- id: sum\n  formula: '{x} + {y}'\n"
  | "lazy" => some "recompute: lazy"
  | _ => none

def tallyDoc : Document where
  fields := [⟨"x", .text, .null, none, []⟩, ⟨"y", .text, .null, none, []⟩,
    ⟨"sum", .text, .null, some "{x} + {y}", []⟩]
  distinct := by decide

set_option maxRecDepth 65536 in
theorem load_tally : (Command.load tally "tally").bind Document.ofText = .ok tallyDoc := by
  cbv

theorem timeless_tally : Engine.Timeless 64 tallyDoc := by
  refine Engine.timeless_document fun field hfield text e htext he => ?_
  have hfields : field ∈ [⟨"x", .text, .null, none, []⟩, ⟨"y", .text, .null, none, []⟩,
      (⟨"sum", .text, .null, some "{x} + {y}", []⟩ : Field)] := hfield
  simp only [List.mem_cons, List.not_mem_nil, or_false] at hfields
  rcases hfields with rfl | rfl | rfl
  · simp at htext
  · simp at htext
  · obtain rfl := Option.some.inj htext
    rw [show Expr.ofText 64 "{x} + {y}" =
      .ok (.binary .add (.reference ⟨"x", []⟩) (.reference ⟨"y", []⟩)) by cbv] at he
    obtain rfl := Except.ok.inj he
    rfl

theorem ofText_first : Assignment.ofText "x='a'" = .ok ⟨"x", .text "a"⟩ := by cbv

theorem ofText_other : Assignment.ofText "y='b'" = .ok ⟨"y", .text "b"⟩ := by cbv

theorem ofText_last : Assignment.ofText "x=true" = .ok ⟨"x", .boolean true⟩ := by cbv

/-- Two assignments to one field stay in order when one to another field comes before them. -/
theorem reordering_tally : Assignment.Reordering
    [⟨"x", .text "a"⟩, ⟨"y", .text "b"⟩, ⟨"x", .boolean true⟩]
    [⟨"y", .text "b"⟩, ⟨"x", .text "a"⟩, ⟨"x", .boolean true⟩] where
  perm := .swap _ _ _
  kept id := by
    by_cases hx : "x" = id
    · subst hx
      rfl
    · simp [List.filter_cons, hx]

/-- Whether the sum is computed after each assignment or when it is read, and whichever of
two fields is assigned first, what is printed is the same but for circles. -/
theorem answer_reordered_tally :
    ∃ s lists, Command.evaluated .standard ⟨0, 0⟩ tallyDoc
        [⟨"x", .text "a"⟩, ⟨"y", .text "b"⟩, ⟨"x", .boolean true⟩] = .ok s ∧
      answer tally ⟨0, 0⟩ ⟨"tally", none, .evaluate ["x='a'", "y='b'", "x=true"] .text⟩ =
        .ok (Command.report .text "tally" s) ∧
      answer tally ⟨1, 0⟩ ⟨"tally", some "lazy", .evaluate ["y='b'", "x='a'", "x=true"] .text⟩ =
        .ok (Command.report .text "tally" { s with results := s.results.relisted lists }) := by
  refine answer_reordered ⟨0, 0⟩ ⟨1, 0⟩ .text rfl (loadConfig_lazy rfl) load_tally timeless_tally
    ?_ ?_ (fun a ha => ?_) reordering_tally
  · rw [List.mapM_cons, List.mapM_cons, List.mapM_cons, ofText_first, ofText_other, ofText_last]
    rfl
  · rw [List.mapM_cons, List.mapM_cons, List.mapM_cons, ofText_first, ofText_other, ofText_last]
    rfl
  · simp only [List.mem_cons, List.not_mem_nil, or_false] at ha
    rcases ha with rfl | rfl | rfl <;> rfl

end Request
end Formulary
