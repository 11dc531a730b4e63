/-
  The commands: what they read, and what they answer.

  * `Assignment.ofText`: a field and the value that it is given, written as `id=value`;
  * `Command`: evaluate all fields of a document, show the graph of its formulas,
    or evaluate an expression over it;
  * `Command.evaluated`: the fields of a document after some assignments;
  * `Request.answer`: the text that a command prints, or why it cannot be carried
    out.
-/
import Formulary.Document.Reading
import Formulary.Report

namespace Formulary

/-! ## Requests -/

/-- A field and its new value. -/
structure Assignment where
  field : String
  value : Value
  deriving Repr

/-- What stands before and after the first equals sign does not count its blanks.
A value is written as in a document. -/
def Assignment.ofText (text : String) : Except Invalid Assignment :=
  match text.toList.dropWhile (· != '=') with
  | [] => .error (.noAssignment text)
  | _ :: value =>
    let field := Text.trim (text.toList.takeWhile (· != '='))
    if field.isEmpty then .error (.noTarget text)
    else .ok ⟨String.ofList field, Value.ofYamlText (String.ofList (Text.trim value))⟩

/-- For whom an answer is written. -/
inductive Format where
  /-- For readers. -/
  | text
  /-- For programs. -/
  | json
  deriving DecidableEq, Repr

/-- What to do with a document. -/
inductive Command where
  | evaluate (assignments : List String) (format : Format)
  | graph
  | eval (expression : String) (format : Format)
  deriving Repr

/-- A command, the document that it is about, and a configuration. -/
structure Request where
  file : String
  config? : Option String
  command : Command
  deriving Repr

/-- The texts of files by path. -/
abbrev Files := String → Option String

namespace Command

/-- The text of a file. -/
def load (files : Files) (path : String) : Except DocumentFault String :=
  match files path with
  | some text => .ok text
  | none => .error .file

/-- The configuration of a file, or the standard one. -/
def loadConfig (files : Files) (config? : Option String) : Except DocumentFault Config :=
  match config? with
  | some path => (load files path).bind Config.ofText
  | none => .ok .standard

/-! ## Evaluating fields -/

/-- An engine and the latest results of its formula fields. -/
structure Evaluated where
  engine : Engine Document
  results : Results

/-- Gives a field of the document its new value. -/
def assign (s : Evaluated) (assignment : Assignment) : Except Invalid Evaluated :=
  if Host.has s.engine.host assignment.field then
    let (results, engine) := s.engine.update assignment.field assignment.value
    .ok ⟨engine, s.results.union results⟩
  else .error (.unknownField assignment.field)

/-- Reads a formula field, which computes it if it is not up to date. -/
def refresh (s : Evaluated) (field : String) : Evaluated :=
  let (result, engine) := s.engine.value field
  ⟨engine, s.results.insert field result⟩

/-- A document after some assignments, with all of its formula fields up to date. -/
def evaluated (config : Config) (clock : Instant) (doc : Document)
    (assignments : List Assignment) : Except Invalid Evaluated := do
  let (results, engine) := (Engine.build config clock doc).evaluateAll
  let s ← assignments.foldlM assign ⟨engine, results⟩
  return (Host.formulaFields s.engine.host).foldl refresh s

/-- The report on a document after some assignments. -/
def report (format : Format) (file : String) (s : Evaluated) : String :=
  match format with
  | .text => Report.values file s.engine.host s.results
  | .json => Report.valuesJson s.engine.host s.results

/-- The report on one value. -/
def valueReport : Format → Value → String
  | .text => Report.value
  | .json => Report.valueJson

end Command

/-- The text that a request prints. -/
def Request.answer (files : Files) (clock : Instant) (request : Request) :
    Except DocumentFault String := do
  let config ← Command.loadConfig files request.config?
  let document : Except DocumentFault Document :=
    (Command.load files request.file).bind Document.ofText
  match request.command with
  | .evaluate texts format =>
    let assignments ← (texts.mapM Assignment.ofText).mapError .invalid
    let s ← (Command.evaluated config clock (← document) assignments).mapError .invalid
    return Command.report format request.file s
  | .graph => return Report.graph request.file (Engine.build config clock (← document)).graph
  | .eval expression format =>
    let (result, _) := (Engine.build config clock (← document)).evaluate expression
    return Command.valueReport format (← result.mapError .formula)

end Formulary
