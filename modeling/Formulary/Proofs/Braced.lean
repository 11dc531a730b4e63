/-
  Paths between braces.

  * `Path.braced`: the text of a path between braces;
  * `Path.Braceless`: no brace stands in the text of a path;
  * `Expr.ofText_braced`: the reference to a valid path without braces is what its text between
    braces denotes;
  * `Expr.ofText_braced_zero`: unless nothing may be nested, not even an expression that stands
    alone.
-/
import Formulary.Proofs.Accepted
import Formulary.Proofs.PathText
import Formulary.Proofs.Spelling

namespace Formulary

/-! ## The characters of a path -/

namespace Path

/-- The text that refers to a path and does nothing else. -/
def braced (path : Path) : String := "\x7b" ++ path.text ++ "\x7d"

/-- No brace stands in the text of a path. -/
def Braceless (path : Path) : Prop := ∀ c ∈ path.text.toList, Token.isPlain c = true

theorem toList_text (path : Path) :
    path.text.toList = ['.'].intercalate
      (path.root.toList :: path.segments.map fun segment => segment.text.toList) := by
  simp [text, String.toList_intercalate, Function.comp_def]

theorem braceless_of {path : Path} (hroot : ∀ c ∈ path.root.toList, Token.isPlain c = true)
    (hsegments : ∀ segment ∈ path.segments, ∀ c ∈ segment.text.toList, Token.isPlain c = true) :
    path.Braceless := by
  have hpieces (pieces : List (List Char))
      (h : ∀ piece ∈ pieces, ∀ c ∈ piece, Token.isPlain c = true) :
      ∀ c ∈ ['.'].intercalate pieces, Token.isPlain c = true := by
    induction pieces with
    | nil => exact nofun
    | cons piece pieces ih =>
      obtain ⟨hpiece, hpieces⟩ := List.forall_mem_cons.1 h
      cases pieces with
      | nil => simpa using hpiece
      | cons next pieces =>
        rw [List.intercalate_cons_cons]
        simp only [List.forall_mem_append]
        exact ⟨⟨hpiece, List.forall_mem_singleton.2 (by decide)⟩, ih hpieces⟩
  rw [Braceless, toList_text]
  exact hpieces _ (List.forall_mem_cons.2 ⟨hroot, List.forall_mem_map.2 hsegments⟩)

/-- Parts with dots between them start and end as parts do. -/
theorem trimmed_intercalate {pieces : List (List Char)} (hne : pieces ≠ [])
    (h : ∀ piece ∈ pieces, IsPart piece) :
    ['.'].intercalate pieces ≠ [] ∧ Text.Trimmed (['.'].intercalate pieces) := by
  induction pieces with
  | nil => exact absurd rfl hne
  | cons piece pieces ih =>
    obtain ⟨hpiece, hpieces⟩ := List.forall_mem_cons.1 h
    cases pieces with
    | nil => simpa using ⟨hpiece.nonempty, hpiece.trimmed⟩
    | cons next pieces =>
      obtain ⟨hne', hstart, hend⟩ := ih (List.cons_ne_nil _ _) hpieces
      rw [List.intercalate_cons_cons, List.append_assoc]
      obtain ⟨first, front, rfl⟩ := List.exists_cons_of_ne_nil hpiece.nonempty
      refine ⟨List.cons_ne_nil _ _, hpiece.trimmed.1, fun c hc => hend c ?_⟩
      rwa [List.getLast?_append_of_ne_nil _ (List.append_ne_nil_of_right_ne_nil _ hne'),
        List.getLast?_append_of_ne_nil _ hne'] at hc

end Path

namespace Expr

variable {path : Path}

theorem tokenize_braced (h : path.Valid) (hplain : path.Braceless) :
    tokenize path.braced = .ok [⟨.reference path.text, 0⟩] := by
  have hpieces : ∀ piece ∈ path.root.toList :: path.segments.map fun segment => segment.text.toList,
      Path.IsPart piece :=
    List.forall_mem_cons.2 ⟨h.root, List.forall_mem_map.2 fun segment hsegment =>
      Segment.isPart_text (h.segments segment hsegment)⟩
  obtain ⟨hne, htrimmed⟩ := Path.trimmed_intercalate (List.cons_ne_nil _ _) hpieces
  rw [← Path.toList_text] at hne htrimmed
  have hspelling := @Token.Spelling.reference [] path.text.toList [] nofun nofun hne htrimmed hplain
  have htext : path.braced.toList = '\x7b' :: (path.text.toList ++ ['\x7d']) := by
    simp [Path.braced]
  rw [String.ofList_toList] at hspelling
  rw [tokenize, htext]
  exact hspelling.tokensFrom_alone 0

/-- Where anything may be nested, the text denotes the reference to the path. -/
theorem ofText_braced (h : path.Valid) (hplain : path.Braceless) {limit : Nat}
    (hlimit : 0 < limit) : ofText limit path.braced = .ok (.reference path) := by
  have hderives : Derives 1 (.level 0) [.reference path.text] (.reference path) :=
    Derives.looser (.operand (.element (.primary (.reference 0 (Path.ofText_text h)))))
      (Nat.zero_le 6)
  have hok : ofTokens limit path.braced.length [⟨.reference path.text, 0⟩] =
      .ok (.reference path) := ofTokens_eq_ok.2 (hderives.mono hlimit)
  rw [ofText, tokenize_braced h hplain]
  exact hok

/-- Where nothing may be nested, it is no formula. -/
theorem ofText_braced_zero (h : path.Valid) (hplain : path.Braceless) :
    ofText 0 path.braced = .error ⟨0, .tooDeep 0⟩ := by
  rw [ofText, tokenize_braced h hplain]
  rfl

end Expr
end Formulary
