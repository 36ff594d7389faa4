import EdmCommands.Emission.Page
import Mathlib.Data.List.Basic

/-!
# EdmCommands.Proofs.Rows

The characters of the documentation: what stands in a cell, in a table row and in the lines of a
page.

* `toList_cell`, `mem_cell_iff`: a cell has the characters of its text, but for bars and line feeds.
* `toList_row`, `mem_row_iff`: a row has those of its cells, between bars.
* `toList_lines`: lines are ended by line feeds.
-/

namespace EdmCommands
namespace Emission

variable {s : String} {cells : List String} {x : Char}

/-- The characters that stand for one of the text in a cell. -/
def cellChars (c : Char) : List Char :=
  if c == '|' then ['\\', '|'] else if c == '\n' then [' '] else [c]

theorem cellChars_of_ne {c : Char} (hbar : c ≠ '|') (hfeed : c ≠ '\n') : cellChars c = [c] := by
  simp [cellChars, hbar, hfeed]

theorem toList_cell (s : String) : (cell s).toList = s.toList.flatMap cellChars :=
  String.toList_ofList

/-- Characters that escaping neither adds nor takes away. -/
theorem mem_cell_iff (hx : x ∉ ['|', '\\', '\n', ' ']) : x ∈ (cell s).toList ↔ x ∈ s.toList := by
  have hchars : ∀ c, x ∈ cellChars c ↔ x = c := by
    intro c
    simp only [List.mem_cons, List.not_mem_nil, or_false, not_or] at hx
    by_cases hbar : c = '|'
    · subst hbar
      simp [cellChars, hx.1, hx.2.1]
    · by_cases hfeed : c = '\n'
      · subst hfeed
        simp [cellChars, hx.2.2.1, hx.2.2.2]
      · rw [cellChars_of_ne hbar hfeed, List.mem_singleton]
  rw [toList_cell, List.mem_flatMap]
  simp [hchars]

theorem lineFeed_not_mem_cell (s : String) : '\n' ∉ (cell s).toList := by
  rw [toList_cell, List.mem_flatMap]
  rintro ⟨c, -, hc⟩
  by_cases hbar : c = '|'
  · simp [cellChars, hbar] at hc
  · by_cases hfeed : c = '\n'
    · simp [cellChars, hfeed] at hc
    · rw [cellChars_of_ne hbar hfeed, List.mem_singleton] at hc
      exact hfeed hc.symm

theorem toList_row (cells : List String) :
    (row cells).toList = '|' :: ' ' :: ((" | ".intercalate cells).toList ++ [' ', '|']) := by
  unfold row
  rw [String.toList_append, String.toList_append]
  rfl

theorem mem_intercalate_iff {separator : String} (hx : x ∉ separator.toList) :
    x ∈ (separator.intercalate cells).toList ↔ ∃ s ∈ cells, x ∈ s.toList := by
  induction cells with
  | nil => simp
  | cons s rest ih =>
    cases rest with
    | nil => simp
    | cons t rest =>
      rw [String.intercalate_cons_cons, String.toList_append, String.toList_append,
        List.mem_append, List.mem_append, ih]
      simp [hx]

theorem mem_row_iff (hx : x ∉ ['|', ' ']) :
    x ∈ (row cells).toList ↔ ∃ s ∈ cells, x ∈ s.toList := by
  simp only [List.mem_cons, List.not_mem_nil, or_false, not_or] at hx
  have hseparator : x ∉ " | ".toList := by simp [hx]
  rw [toList_row, ← mem_intercalate_iff hseparator]
  simp [hx]

theorem toList_lines (ls : List String) :
    (lines ls).toList = ls.flatMap fun l => l.toList ++ ['\n'] := by
  unfold lines
  rw [String.toList_join, List.flatMap_map]
  simp only [String.toList_append]
  rfl

end Emission
end EdmCommands
