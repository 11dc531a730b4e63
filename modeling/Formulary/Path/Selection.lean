/-
  Following a path into a value.

  An index leads to an element of an array, and a key to an entry of an object;
  on an array of rows a key leads to its column, with null where a row lacks it.
  Null has null under every key.  Where the rows of a table have declared
  columns, the first key must name one of them, by id or by title.

  * `Path.select`: the value at the end of a path.
-/
import Formulary.Path
import Formulary.Value

namespace Formulary.Path

/-- The path leads nowhere. -/
def dangling (path : Path) : Fault := .reference path.text

/-- The id of the column that a key names: the column with that id, or else the
first whose id or title is the key up to the case of letters. -/
def columnId? (columns : List Column) (key : String) : Option String :=
  if columns.isEmpty then some key
  else ((columns.find? fun column => column.id == key).or
    (columns.find? fun column =>
      Text.sameLetters column.id key || Text.sameLetters column.title key)).map Column.id

/-- The entry of a name, or else the first of the same name up to the case of
letters, or else null. -/
def cell (key : String) (entries : List (String × Value)) : Value :=
  match Entries.find? key entries with
  | some v => v
  | none => match entries.find? fun entry => Text.sameLetters entry.1 key with
    | some entry => entry.2
    | none => .null

/-- The cell of a row; what is no object has no cells. -/
def cellOf (key : String) : Value → Value
  | .object entries => cell key entries
  | _ => .null

/-- One step into a value. -/
def step (path : Path) (columns : List Column) : Segment → Value → Except Fault Value
  | .index n, .array items => match items[n]? with
    | some v => .ok v
    | none => .error path.dangling
  | .index _, _ => .error path.dangling
  | .key key, .array rows => match columnId? columns key with
    | some id => .ok (.array (rows.map (cellOf id)))
    | none => .error path.dangling
  | .key key, .object entries => match columnId? columns key with
    | some id => .ok (cell id entries)
    | none => .error path.dangling
  | .key _, .null => .ok .null
  | .key _, _ => .error path.dangling

/-- The columns that are left to match after a step: the first key uses them up. -/
def columnsAfter (columns : List Column) : Segment → List Column
  | .index _ => columns
  | .key _ => []

/-- The steps of a path one after the other. -/
def follow (path : Path) (columns : List Column) : List Segment → Value → Except Fault Value
  | [], v => .ok v
  | segment :: rest, v =>
    (step path columns segment v).bind (follow path (columnsAfter columns segment) rest)

/-- The value that a path leads to inside the value of its field; a fault in the
place of that value is raised. -/
def select (path : Path) (columns : List Column) (v : Value) : Except Fault Value :=
  v.toResult.bind (path.follow columns path.segments)

end Formulary.Path
