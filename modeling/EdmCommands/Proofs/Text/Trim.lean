import EdmCommands.Text.Trim
import Mathlib.Data.List.DropRight

/-!
# EdmCommands.Proofs.Text.Trim

What is left of a text without its start or its end is what makes the text together with it.

* `stripStart?_eq_some_iff`, `stripEnd?_eq_some_iff`: the rest of a text with a known end.
* `isInfix_trimWhile`, `head?_trimWhile_ne`, `getLast?_trimWhile_ne`: a text with trimmed ends.
* `trimWhile_eq_self`: a text with nothing to trim.
-/

namespace EdmCommands
namespace Text

variable {head tail s t : String}

theorem isPrefixOf?_eq_some_iff {α : Type} [BEq α] [LawfulBEq α] {l₁ l₂ t : List α} :
    l₁.isPrefixOf? l₂ = some t ↔ l₂ = l₁ ++ t := by
  induction l₁ generalizing l₂ with
  | nil => exact Option.some_inj
  | cons a rest ih =>
    cases l₂ with
    | nil =>
      change none = some t ↔ _
      simp
    | cons b l₂ =>
      change (if a == b then rest.isPrefixOf? l₂ else none) = some t ↔ _
      by_cases hab : a = b
      · simp [hab, ih]
      · simp [hab, Ne.symm hab]

theorem stripStart?_eq_some_iff : stripStart? head s = some t ↔ s = head ++ t := by
  rw [stripStart?, Option.map_eq_some_iff]
  constructor
  · rintro ⟨rest, hrest, rfl⟩
    rw [isPrefixOf?_eq_some_iff] at hrest
    rw [← String.toList_inj, String.toList_append, String.toList_ofList, hrest]
  · rintro rfl
    exact ⟨t.toList, isPrefixOf?_eq_some_iff.2 String.toList_append, String.ofList_toList⟩

theorem stripEnd?_eq_some_iff : stripEnd? tail s = some t ↔ s = t ++ tail := by
  rw [stripEnd?, Option.map_eq_some_iff]
  change (∃ rest, (tail.toList.reverse.isPrefixOf? s.toList.reverse).map List.reverse = some rest ∧
    _) ↔ _
  simp only [Option.map_eq_some_iff, isPrefixOf?_eq_some_iff]
  constructor
  · rintro ⟨_, ⟨rest, hrest, rfl⟩, rfl⟩
    rw [← String.toList_inj, String.toList_append, String.toList_ofList]
    have := congrArg List.reverse hrest
    simpa using this
  · rintro rfl
    exact ⟨t.toList, ⟨t.toList.reverse, by simp, List.reverse_reverse _⟩, String.ofList_toList⟩

/-! ## Trimmed ends -/

section Trimmed

variable {p : Char → Bool} {c : Char}

theorem toList_trimWhile (p : Char → Bool) (s : String) :
    (trimWhile p s).toList = (s.toList.dropWhile p).rdropWhile p :=
  String.toList_ofList

theorem isInfix_trimWhile (p : Char → Bool) (s : String) :
    (trimWhile p s).toList <:+: s.toList := by
  rw [toList_trimWhile]
  have hend := List.rdropWhile_prefix p (s.toList.dropWhile p)
  have hstart : s.toList.dropWhile p <:+ s.toList := List.dropWhile_suffix p
  exact hend.isInfix.trans hstart.isInfix

theorem head?_trimWhile_ne (hc : p c = true) : (trimWhile p s).toList.head? ≠ some c := by
  intro hhead
  rw [toList_trimWhile] at hhead
  obtain ⟨back, hback⟩ := List.rdropWhile_prefix p (s.toList.dropWhile p)
  have hstart := List.head?_dropWhile_not p s.toList
  rw [← hback, List.head?_append, hhead] at hstart
  exact Bool.false_ne_true (hstart.symm.trans hc)

theorem getLast?_trimWhile_ne (hc : p c = true) : (trimWhile p s).toList.getLast? ≠ some c := by
  intro hlast
  rw [toList_trimWhile] at hlast
  have hne : (s.toList.dropWhile p).rdropWhile p ≠ [] := by
    intro hnil
    rw [hnil] at hlast
    cases hlast
  have hend := List.rdropWhile_last_not p _ hne
  rw [(List.getLast_eq_iff_getLast?_eq_some hne).2 hlast] at hend
  exact hend hc

/-- A text with no end that satisfies `p` has nothing to trim. -/
theorem trimWhile_eq_self (hstart : ∀ c, s.toList.head? = some c → p c = false)
    (hend : ∀ c, s.toList.getLast? = some c → p c = false) : trimWhile p s = s := by
  have hfront : s.toList.dropWhile p = s.toList := by
    cases hs : s.toList with
    | nil => rfl
    | cons c rest =>
      have hc := hstart c (by rw [hs, List.head?_cons])
      exact List.dropWhile_cons_of_neg (by simp [hc])
  rw [← String.toList_inj, toList_trimWhile, hfront, List.rdropWhile_eq_self_iff]
  intro hne
  simp [hend _ (List.getLast?_eq_some_getLast hne)]

end Trimmed

end Text
end EdmCommands
