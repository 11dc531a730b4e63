/-
  Columns of a table, and the cells in them.

  A key leads from an array of rows to a column, and from a row to a cell.  Which
  way round a path goes makes no difference: the column of a key has the cell of
  every row in its place.

  * `Path.Knows`: the keys that are known where columns are declared;
  * `Path.step_key_array`, `Path.step_key_row`: a known key on rows and on a row;
  * `Path.select_column`: a column is the list of its cells.
-/
import Formulary.Path.Selection
import Mathlib

namespace Formulary

/-- A row of a table: an object, or nothing yet. -/
def Value.IsRow : Value → Prop
  | .object _ | .null => True
  | _ => False

namespace Path

/-- A key is known: no columns are declared, or it is the id or the title of one
of them up to the case of letters. -/
def Knows (columns : List Column) (key : String) : Prop :=
  columns = [] ∨ ∃ column ∈ columns,
    Text.sameLetters column.id key ∨ Text.sameLetters column.title key

variable {columns : List Column} {key : String}

theorem sameLetters_self (s : String) : Text.sameLetters s s = true := by
  simp [Text.sameLetters]

/-- A key has a column id exactly where it is known. -/
theorem isSome_columnId?_iff : (columnId? columns key).isSome ↔ Knows columns key := by
  have hid {column : Column} (h : column.id = key) : Text.sameLetters column.id key := by
    rw [h]
    exact sameLetters_self key
  cases columns with
  | nil => simp [columnId?, Knows]
  | cons first rest =>
    simp only [columnId?, Knows, List.isEmpty_cons, Bool.false_eq_true, if_false, Option.isSome_map,
      Option.isSome_or, Bool.or_eq_true, List.find?_isSome, beq_iff_eq, reduceCtorEq, false_or]
    constructor
    · rintro (⟨column, hmem, heq⟩ | hletters)
      · exact ⟨column, hmem, .inl (hid heq)⟩
      · exact hletters
    · exact .inr

/-! ## Steps by a known key -/

variable {path : Path} {rows : List Value} {row : Value} {id : String}

/-- On rows a known key leads to its column. -/
theorem step_key_array (hid : columnId? columns key = some id) :
    path.step columns (.key key) (.array rows) = .ok (.array (rows.map (cellOf id))) := by
  simp only [step, hid]

/-- On a row a known key leads to its cell; no row has no cells, as a column has it. -/
theorem step_key_row (hid : columnId? columns key = some id) (hrow : row.IsRow) :
    path.step columns (.key key) row = .ok (cellOf id row) := by
  cases row with
  | object entries => simp only [step, hid, cellOf]
  | null => rfl
  | _ => exact absurd hrow not_false

/-- An index leads from an array to the element there, if there is one. -/
theorem step_index_array (i : Nat) :
    path.step columns (.index i) (.array rows) =
      rows[i]?.elim (.error path.dangling) .ok := by
  cases hi : rows[i]? <;> simp only [step, hi, Option.elim_none, Option.elim_some]

/-! ## Columns and cells -/

/-- First the column, then the row: the cell of that row. -/
theorem follow_key_index (hid : columnId? columns key = some id) (i : Nat) :
    path.follow columns [.key key, .index i] (.array rows) =
      rows[i]?.elim (.error path.dangling) fun row => .ok (cellOf id row) := by
  simp only [follow]
  rw [step_key_array hid]
  simp only [Except.bind, step_index_array, List.getElem?_map]
  cases rows[i]? <;> rfl

/-- First the row, then the column: the cell of that row. -/
theorem follow_index_key (hid : columnId? columns key = some id) (hrows : ∀ row ∈ rows, row.IsRow)
    (i : Nat) :
    path.follow columns [.index i, .key key] (.array rows) =
      rows[i]?.elim (.error path.dangling) fun row => .ok (cellOf id row) := by
  simp only [follow, step_index_array, columnsAfter]
  cases hi : rows[i]? with
  | none => rfl
  | some row =>
    have hrow : row.IsRow := hrows row (List.mem_of_getElem? hi)
    simp only [Option.elim_some, Except.bind, step_key_row hid hrow]

/-- **Main result.** A column is the list of its cells.  On an array of rows, a known
key leads to as many values as there are rows, each the cell that the path over its
row leads to.  The row may be named before or after the key: the paths lead to the
same cell, and nowhere from where there is no row. -/
theorem select_column (root : String) (hrows : ∀ row ∈ rows, row.IsRow) (hkey : Knows columns key) :
    ∃ cells : List Value,
      select ⟨root, [.key key]⟩ columns (.array rows) = .ok (.array cells) ∧
      cells.length = rows.length ∧
      (∀ (i : Nat) (h : i < cells.length),
        select ⟨root, [.index i, .key key]⟩ columns (.array rows) = .ok cells[i]) ∧
      (∀ i < rows.length, select ⟨root, [.key key, .index i]⟩ columns (.array rows) =
        select ⟨root, [.index i, .key key]⟩ columns (.array rows)) ∧
      ∀ i, rows.length ≤ i →
        select ⟨root, [.key key, .index i]⟩ columns (.array rows) =
          .error (.reference (Path.text ⟨root, [.key key, .index i]⟩)) ∧
        select ⟨root, [.index i, .key key]⟩ columns (.array rows) =
          .error (.reference (Path.text ⟨root, [.index i, .key key]⟩)) := by
  obtain ⟨id, hid⟩ := Option.isSome_iff_exists.1 (isSome_columnId?_iff.2 hkey)
  have hselect (segments : List Segment) : select ⟨root, segments⟩ columns (.array rows) =
      follow ⟨root, segments⟩ columns segments (.array rows) := rfl
  refine ⟨rows.map (cellOf id), ?_, List.length_map _, fun i h => ?_, fun i h => ?_, fun i h => ?_⟩
  · rw [hselect, follow, step_key_array hid]
    rfl
  · have hi : i < rows.length := List.length_map (cellOf id) ▸ h
    simp only [hselect, follow_index_key hid hrows, List.getElem?_eq_getElem hi, List.getElem_map,
      Option.elim_some]
  · simp only [hselect, follow_key_index hid, follow_index_key hid hrows,
      List.getElem?_eq_getElem h, Option.elim_some]
  · simp only [hselect, follow_key_index hid, follow_index_key hid hrows,
      List.getElem?_eq_none h, Option.elim_none, dangling, and_self]

/-- Pens and inks, with a row that is not there and a row without a quantity. -/
def stock : List Value :=
  [.object [("c1", .text "Pen"), ("c2", .boolean true)], .null, .object [("c1", .text "Ink")]]

def stockColumns : List Column := [⟨"c1", "Item"⟩, ⟨"c2", "Qty"⟩]

/-- The key is a title in other letters.  Where there is no quantity, the cell is null. -/
theorem select_column_quantities :
    (∀ row ∈ stock, row.IsRow) ∧ Knows stockColumns "qty" ∧
      select ⟨"t", [.key "qty"]⟩ stockColumns (.array stock) =
        .ok (.array [.boolean true, .null, .null]) ∧
      select ⟨"t", [.index 0, .key "qty"]⟩ stockColumns (.array stock) = .ok (.boolean true) ∧
      select ⟨"t", [.index 1, .key "qty"]⟩ stockColumns (.array stock) = .ok .null ∧
      select ⟨"t", [.index 2, .key "qty"]⟩ stockColumns (.array stock) = .ok .null ∧
      ∀ i < 3, select ⟨"t", [.key "qty", .index i]⟩ stockColumns (.array stock) =
        select ⟨"t", [.index i, .key "qty"]⟩ stockColumns (.array stock) := by
  have hrows : ∀ row ∈ stock, row.IsRow := by simp [stock, Value.IsRow]
  have hkey : Knows stockColumns "qty" :=
    .inr ⟨⟨"c2", "Qty"⟩, by simp [stockColumns], .inr (by decide +kernel)⟩
  obtain ⟨cells, hcolumn, -, hcell, hboth, -⟩ := select_column "t" hrows hkey
  have hcells : select ⟨"t", [.key "qty"]⟩ stockColumns (.array stock) =
      .ok (.array [.boolean true, .null, .null]) := by cbv
  obtain rfl := Value.array.inj (Except.ok.inj (hcolumn.symm.trans hcells))
  exact ⟨hrows, hkey, hcells, hcell 0 (by decide), hcell 1 (by decide), hcell 2 (by decide), hboth⟩

/-- Without rows between them the two ways differ: a column skips what is no row. -/
example : select ⟨"t", [.key "a", .index 0]⟩ [] (.array [.boolean true]) = .ok .null ∧
    select ⟨"t", [.index 0, .key "a"]⟩ [] (.array [.boolean true]) =
      .error (.reference "t.0.a") := by
  cbv

end Path
end Formulary
