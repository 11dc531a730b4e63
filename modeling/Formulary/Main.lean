/-
  The command line.

      evaluate FILE [--set ID=VALUE]... [--config FILE] [--format text|json]
      graph FILE [--config FILE]
      eval FILE EXPRESSION [--config FILE] [--format text|json]

  * `Arguments.request`: the request that arguments denote;
  * `main`: reads the files of a request and prints its answer.
-/
import Formulary.Command
import Std.Time.DateTime.Timestamp

namespace Formulary

/-- Arguments sorted by what they are for. -/
structure Arguments where
  operands : List String
  sets : List String
  config? : Option String
  format : Format

namespace Arguments

/-- Why arguments denote no request. -/
def usage : String :=
  "usage: evaluate FILE [--set ID=VALUE]... [--config FILE] [--format text|json]\n"
    ++ "       graph FILE [--config FILE]\n"
    ++ "       eval FILE EXPRESSION [--config FILE] [--format text|json]"

/-- Sorts arguments; of options that are given twice the first one counts, but each
assignment does. -/
def ofList : List String → Option Arguments
  | [] => some ⟨[], [], none, .text⟩
  | "--set" :: text :: rest | "-s" :: text :: rest =>
    (ofList rest).map fun found => { found with sets := text :: found.sets }
  | "--config" :: path :: rest | "-c" :: path :: rest =>
    (ofList rest).map fun found => { found with config? := some path }
  | "--format" :: name :: rest | "-f" :: name :: rest =>
    match name with
    | "text" => (ofList rest).map fun found => { found with format := .text }
    | "json" => (ofList rest).map fun found => { found with format := .json }
    | _ => none
  | operand :: rest =>
    if operand.startsWith "-" then none
    else (ofList rest).map fun found => { found with operands := operand :: found.operands }

/-- The request that arguments denote. -/
def request (arguments : Arguments) : Option Request :=
  match arguments.operands with
  | ["evaluate", file] =>
    some ⟨file, arguments.config?, .evaluate arguments.sets arguments.format⟩
  | ["graph", file] => some ⟨file, arguments.config?, .graph⟩
  | ["eval", file, expression] =>
    some ⟨file, arguments.config?, .eval expression arguments.format⟩
  | _ => none

end Arguments

/-- What is printed about a request that cannot be carried out. -/
def DocumentFault.line (fault : DocumentFault) : String :=
  "Error: " ++ match fault with
    | .yaml => "YAML parsing error"
    | .file => "IO error"
    | fault => fault.message?.getD ""

/-- The time that the clock of the machine shows. -/
def currentInstant : IO Instant := do
  let now ← Std.Time.Timestamp.now
  return ⟨now.val.second.val, now.val.nano.val.toNat⟩

/-- The text of a file, if it can be read. -/
def readText? (path : String) : IO (Option String) := do
  try return some (← IO.FS.readFile path)
  catch _ => return none

end Formulary

open Formulary in
def main (args : List String) : IO UInt32 := do
  match (Arguments.ofList args).bind Arguments.request with
  | none =>
    IO.eprintln Arguments.usage
    return 2
  | some request =>
    let texts ← (request.file :: request.config?.toList).mapM fun path =>
      return (path, ← readText? path)
    let files (path : String) : Option String := (texts.lookup path).join
    match request.answer files (← currentInstant) with
    | .ok text =>
      IO.print text
      return 0
    | .error fault =>
      IO.eprintln fault.line
      return 1
