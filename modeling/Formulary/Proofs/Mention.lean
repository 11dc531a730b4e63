/-
  Fields between braces.

  * `Document.valid_of_isId`, `Document.braceless_of_isId`: an id is the root of paths that can
    stand between braces;
  * `Expr.mention`: the expression that only mentions a field, with `Expr.ofText_mention` and
    `Expr.ofText_mention_zero` for what it denotes;
  * `Engine.evaluate_reference`, `Engine.evaluate_plain`: what a reference and the mention of a
    plain field come to;
  * `Document.braced_of_add`: every id that a document accepts can be referred to.
-/
import Formulary.Engine
import Formulary.Proofs.Braced
import Formulary.Proofs.Owner

namespace Formulary

/-! ## Ids -/

namespace Document

variable {id : String} {segments : List Segment}

theorem isId_iff : isId id = true ↔ id.toList ≠ [] ∧ id.toList.all Char.isDigit = false ∧
    ∀ c ∈ id.toList, Text.isBlank c = false ∧ c ∉ reserved := by
  simp only [isId, Bool.and_eq_true, Bool.not_eq_true', List.isEmpty_eq_false_iff,
    List.any_eq_false, Bool.or_eq_true, not_or, List.contains_iff_mem, and_assoc,
    Bool.not_eq_true]

theorem valid_of_isId (hid : isId id = true) (h : ∀ segment ∈ segments, segment.Valid) :
    Path.Valid ⟨id, segments⟩ := by
  obtain ⟨hne, hnamed, hchars⟩ := isId_iff.1 hid
  refine ⟨⟨hne, ⟨fun c hc => ?_, fun c hc => ?_⟩, fun hdot => ?_⟩, hnamed, h⟩
  · exact (hchars c (List.mem_of_mem_head? hc)).1
  · exact (hchars c (List.mem_of_getLast? hc)).1
  · exact (hchars '.' hdot).2 (by decide)

theorem braceless_of_isId (hid : isId id = true)
    (h : ∀ segment ∈ segments, ∀ c ∈ segment.text.toList, Token.isPlain c = true) :
    Path.Braceless ⟨id, segments⟩ := by
  obtain ⟨-, -, hchars⟩ := isId_iff.1 hid
  refine Path.braceless_of (fun c hc => ?_) h
  have hreserved := (hchars c hc).2
  simp only [reserved, List.mem_cons, not_or] at hreserved
  simp [Token.isPlain, hreserved]

end Document

/-! ## Mentions -/

namespace Expr

/-- The text that refers to a field and does nothing else. -/
def mention (id : String) : String := "\x7b" ++ id ++ "\x7d"

variable {id : String}

theorem mention_eq (id : String) : mention id = (Path.field id).braced := by
  simp [mention, Path.braced, Path.text, Path.field]

/-- A field is a path without segments. -/
theorem valid_field (hid : Document.isId id = true) :
    (Path.field id).Valid ∧ (Path.field id).Braceless :=
  ⟨Document.valid_of_isId hid fun _ h => absurd h List.not_mem_nil,
    Document.braceless_of_isId hid fun _ h => absurd h List.not_mem_nil⟩

/-- Where anything may be nested, the text denotes the reference to the field. -/
theorem ofText_mention (hid : Document.isId id = true) {limit : Nat} (hlimit : 0 < limit) :
    ofText limit (mention id) = .ok (.reference (.field id)) := by
  obtain ⟨hvalid, hbraceless⟩ := valid_field hid
  rw [mention_eq]
  exact ofText_braced hvalid hbraceless hlimit

/-- Where nothing may be nested, it is no formula. -/
theorem ofText_mention_zero (hid : Document.isId id = true) :
    ofText 0 (mention id) = .error ⟨0, .tooDeep 0⟩ := by
  obtain ⟨hvalid, hbraceless⟩ := valid_field hid
  rw [mention_eq]
  exact ofText_braced_zero hvalid hbraceless

end Expr

/-! ## Values -/

namespace Engine

variable {δ : Type} [Host δ] {engine : Engine δ}

/-- A reference comes to what it is answered; a fault in the place of a value is raised. -/
theorem evaluate_reference {text : String} {path : Path} {r : Result} {s : Session}
    (hdepth : 0 < engine.config.maxDepth)
    (htext : Expr.ofText engine.config.maxDepth text = .ok (.reference path))
    (hanswer : Session.answer engine.host engine.config engine.clock path 1 engine.session =
      (r, s)) :
    engine.evaluate text = (r.bind Value.toResult, engine.resume s) := by
  have heval : Expr.eval (Session.setting engine.config engine.clock) 0 [] (.reference path) =
      .field path 1 := by
    rw [Expr.eval]
    exact if_neg (Nat.not_le_of_lt hdepth)
  unfold evaluate
  rw [htext]
  dsimp only
  rw [heval, Evaluation.field, Evaluation.run, hanswer]
  cases r with
  | error fault => rfl
  | ok v => cases v <;> rfl

/-- The mention of a plain field comes to its stored value. -/
theorem evaluate_plain {id : String} {v : Value} (hid : Document.isId id = true)
    (hdepth : 0 < engine.config.maxDepth) (hformula : Host.formula? engine.host id = none)
    (hvalue : Host.value? engine.host id = some v) :
    engine.evaluate (Expr.mention id) = (v.toResult, engine) := by
  have hanswer : Session.answer engine.host engine.config engine.clock (.field id) 1
      engine.session = (v.toResult, engine.session) := by
    unfold Session.answer Session.answerWith
    simp only [show (Path.field id).root = id from rfl, hformula, hvalue]
    cases v <;> rfl
  rw [evaluate_reference hdepth (Expr.ofText_mention hid hdepth) hanswer]
  cases v <;> rfl

end Engine

/-- **Main result.** An id that a document accepts, with segments of any path that a text denotes
and in which no brace stands, can be put between braces: the text denotes the reference to this
very path, which refers to the field of the id and no other.  Without segments it comes to the
stored value of a plain field, or to the fault that is stored in its place. -/
theorem Document.braced_of_add {doc doc' : Document} {spec : FieldSpec}
    (hadd : doc.add spec = .ok doc') {text : String} {other : Path}
    (htext : Path.ofText text = .ok other)
    (hplain : ∀ segment ∈ other.segments, ∀ c ∈ segment.text.toList, Token.isPlain c = true)
    {limit : Nat} (hlimit : 0 < limit) :
    let path : Path := ⟨spec.id, other.segments⟩
    Expr.ofText limit path.braced = .ok (.reference path) ∧
      (Expr.reference path).references.names = [spec.id] ∧
      ∀ (engine : Engine Document) (field : Field), 0 < engine.config.maxDepth →
        engine.host.field? spec.id = some field → field.formula? = none →
          (engine.evaluate (Path.field spec.id).braced).1 = field.value.toResult := by
  intro path
  obtain ⟨hid, -⟩ := add_eq_ok hadd
  refine ⟨?_, rfl, fun engine field hdepth hfield hformula => ?_⟩
  · exact Expr.ofText_braced (valid_of_isId hid (Path.valid_of_ofText htext).segments)
      (braceless_of_isId hid hplain) hlimit
  · have hstored : Host.value? engine.host spec.id = some field.value :=
      congrArg (Option.map Field.value) hfield
    have hnone : Host.formula? engine.host spec.id = none := by
      rw [formula?_eq, hfield]
      exact hformula
    rw [← Expr.mention_eq, Engine.evaluate_plain hid hdepth hnone hstored]

set_option maxRecDepth 4096 in
/-- An id that would be five tokens outside of braces, with an index and a key with a blank. -/
theorem Document.braced_of_add_brackets :
    ∃ doc, Document.empty.add ⟨"a\u2192[b]", .other, some (.text "here"), none, []⟩ = .ok doc ∧
      Path.ofText "x.07.c d" = .ok ⟨"x", [.index 7, .key "c d"]⟩ ∧ 0 < 1 ∧
      Expr.ofText 1 "\x7ba\u2192[b].7.c d\x7d" =
        .ok (.reference ⟨"a\u2192[b]", [.index 7, .key "c d"]⟩) ∧
      ((Engine.build .standard ⟨0, 0⟩ doc).evaluate "\x7ba\u2192[b]\x7d").1 =
        .ok (.text "here") := by
  have hpath : Path.ofText "x.07.c d" = .ok ⟨"x", [.index 7, .key "c d"]⟩ := by cbv
  have hadd : Document.empty.add ⟨"a\u2192[b]", .other, some (.text "here"), none, []⟩ =
      .ok (Document.empty.append ⟨"a\u2192[b]", .other, .text "here", none, []⟩ rfl) :=
    Document.add_of_isId (by decide) rfl rfl
  have hplain : ∀ segment ∈ [Segment.index 7, .key "c d"], ∀ c ∈ segment.text.toList,
      Token.isPlain c = true := by
    have hall : ([Segment.index 7, .key "c d"].all fun segment =>
        segment.text.toList.all Token.isPlain) = true := by cbv
    exact fun segment hsegment => List.all_eq_true.1 (List.all_eq_true.1 hall segment hsegment)
  obtain ⟨htext, -, hvalue⟩ := Document.braced_of_add hadd hpath hplain Nat.one_pos
  refine ⟨_, hadd, hpath, Nat.one_pos, ?_, ?_⟩
  · have hbraced : Path.braced ⟨"a\u2192[b]", [.index 7, .key "c d"]⟩ =
        "\x7ba\u2192[b].7.c d\x7d" := by decide
    rw [← hbraced]
    exact htext
  · have hbraced : (Path.field "a\u2192[b]").braced = "\x7ba\u2192[b]\x7d" := by decide
    rw [← hbraced]
    exact hvalue _ ⟨"a\u2192[b]", .other, .text "here", none, []⟩ (by decide) rfl rfl

end Formulary
