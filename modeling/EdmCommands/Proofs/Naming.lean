import EdmCommands.Naming
import Mathlib.Data.List.DropRight
import Mathlib.Data.List.Nodup
import Mathlib.Data.List.Perm.Subperm
import Mathlib.Order.Bounds.Defs

/-!
# EdmCommands.Proofs.Naming

The choice of names that are still free.

* `candidate_injective`: the names that are tried differ from each other.
* `exists_candidate_not_mem`: so one of them is free.
* `isLeast_freshIndex`, `freshName_not_mem`: the number chosen is the least one that is free.
* `exists_freshName_of_mem`: where the name itself is taken, the one chosen has a number.
* `eq_of_freshName_eq`: the name chosen tells what it was chosen for, up to a number behind it.
* `firstRepeated_eq_none_iff`: no name is repeated when the names are distinct.
* `one_lt_count_of_firstRepeated`: a name that is found to be repeated is there twice.
-/

namespace EdmCommands
namespace Naming

theorem toString_injective {m n : Nat} (h : toString m = toString n) : m = n := by
  rw [Nat.toString_eq_repr, Nat.toString_eq_repr] at h
  have := congrArg (fun s : String => Nat.ofDigitChars 10 s.toList 0) h
  simpa only [Nat.toList_repr, Nat.ofDigitChars_ten_toDigits] using this

theorem candidate_injective {base : String} {m n : Nat} (h : candidate base m = candidate base n) :
    m = n := by
  have longer : ∀ k : Nat, base ≠ base ++ toString (k + 1) := by
    intro k heq
    have := congrArg String.length heq
    rw [String.length_append, Nat.toString_eq_repr] at this
    have := Nat.length_repr_pos (n := k + 1)
    omega
  cases m with
  | zero =>
    cases n with
    | zero => rfl
    | succ n => exact absurd h (longer n)
  | succ m =>
    cases n with
    | zero => exact absurd h.symm (longer m)
    | succ n =>
      unfold candidate at h
      have := congrArg String.toList h
      rw [String.toList_append, String.toList_append] at this
      exact toString_injective (String.toList_inj.1 (List.append_cancel_left this))

/-- Among one name more than are taken there is a free one. -/
theorem exists_candidate_not_mem (base : String) (taken : List String) :
    ∃ k ∈ List.range (taken.length + 1), candidate base k ∉ taken := by
  by_contra h
  have sub : (List.range (taken.length + 1)).map (candidate base) ⊆ taken := by
    intro name hname
    obtain ⟨k, hk, rfl⟩ := List.mem_map.1 hname
    by_contra hfree
    exact h ⟨k, hk, hfree⟩
  have nodup : ((List.range (taken.length + 1)).map (candidate base)).Nodup :=
    List.nodup_range.map fun _ _ => candidate_injective
  have := (List.Nodup.subperm nodup sub).length_le
  rw [List.length_map, List.length_range] at this
  omega

theorem isLeast_freshIndex (base : String) (taken : List String) :
    IsLeast {k | candidate base k ∉ taken} (freshIndex base taken) := by
  unfold freshIndex
  cases hfound : (List.range (taken.length + 1)).find? fun k =>
      !taken.contains (candidate base k) with
  | none =>
    obtain ⟨k, hk, hfree⟩ := exists_candidate_not_mem base taken
    have := List.find?_eq_none.1 hfound k hk
    simp [hfree] at this
  | some n =>
    obtain ⟨hfree, -, hbefore⟩ := List.find?_range_eq_some.1 hfound
    have hleast : candidate base n ∉ taken := by simpa using hfree
    refine ⟨hleast, fun k hk => ?_⟩
    by_contra hlt
    have := hbefore k (not_le.1 hlt)
    simp only [Bool.not_not, List.contains_iff_mem] at this
    exact hk this

theorem freshName_not_mem (base : String) (taken : List String) : freshName base taken ∉ taken :=
  (isLeast_freshIndex base taken).1

/-- Where the name itself is taken, the one chosen has a number. -/
theorem exists_freshName_of_mem {base : String} {taken : List String} (h : base ∈ taken) :
    ∃ k, freshName base taken = base ++ toString (k + 1) := by
  have hfree := freshName_not_mem base taken
  unfold freshName at hfree ⊢
  cases hindex : freshIndex base taken with
  | zero =>
    rw [hindex] at hfree
    exact absurd h hfree
  | succ k => exact ⟨k, rfl⟩

/-! ## The number behind a name -/

/-- The characters of a name without the number behind it. -/
def unnumbered (s : String) : List Char :=
  s.toList.rdropWhile Char.isDigit

theorem unnumbered_append_toString (s : String) (n : Nat) :
    unnumbered (s ++ toString n) = unnumbered s := by
  have digits : ∀ c ∈ (toString n).toList.reverse, c.isDigit = true := by
    intro c hc
    rw [List.mem_reverse, Nat.toString_eq_repr, Nat.toList_repr] at hc
    exact Nat.isDigit_of_mem_toDigits (by decide) (by decide) hc
  unfold unnumbered List.rdropWhile
  rw [String.toList_append, List.reverse_append, List.dropWhile_append_of_pos digits]

theorem unnumbered_freshName (base : String) (taken : List String) :
    unnumbered (freshName base taken) = unnumbered base := by
  unfold freshName
  cases freshIndex base taken with
  | zero => rfl
  | succ k => exact unnumbered_append_toString base (k + 1)

/-- Behind a suffix that is not a number itself, the number does not reach into the stem. -/
theorem unnumbered_append {suffix : String} (h : ∃ c ∈ suffix.toList, c.isDigit = false)
    (front : String) : unnumbered (front ++ suffix) = front.toList ++ unnumbered suffix := by
  obtain ⟨c, hc, hletter⟩ := h
  have hleft : (suffix.toList.reverse.dropWhile Char.isDigit).isEmpty = false := by
    rw [List.isEmpty_eq_false_iff, Ne, List.dropWhile_eq_nil_iff]
    intro hall
    rw [hall c (List.mem_reverse.2 hc)] at hletter
    cases hletter
  unfold unnumbered List.rdropWhile
  rw [String.toList_append, List.reverse_append, List.dropWhile_append, hleft]
  simp

/-- A name chosen for a stem with a suffix ends in the suffix, but for the numbers behind both. -/
theorem unnumbered_suffix_freshName (front suffix : String) (taken : List String) :
    unnumbered suffix <:+ unnumbered (freshName (front ++ suffix) taken) := by
  rw [unnumbered_freshName]
  by_cases h : ∃ c ∈ suffix.toList, c.isDigit = false
  · rw [unnumbered_append h]
    exact List.suffix_append _ _
  · have digits : ∀ c ∈ suffix.toList, c.isDigit = true := by simpa using h
    have none : unnumbered suffix = [] := List.rdropWhile_eq_nil_iff.2 digits
    rw [none]
    exact List.nil_suffix

theorem eq_of_freshName_eq {front front' suffix : String} {taken taken' : List String}
    (hsuffix : ∃ c ∈ suffix.toList, c.isDigit = false)
    (h : freshName (front ++ suffix) taken = freshName (front' ++ suffix) taken') :
    front = front' := by
  have hchars := congrArg unnumbered h
  rw [unnumbered_freshName, unnumbered_freshName, unnumbered_append hsuffix,
    unnumbered_append hsuffix] at hchars
  exact String.toList_inj.1 (List.append_cancel_right hchars)

/-! ## Repetitions -/

theorem firstRepeated_eq_none_iff {seen names : List String} :
    firstRepeated seen names = none ↔ names.Nodup ∧ ∀ name ∈ names, name ∉ seen := by
  induction names generalizing seen with
  | nil => simp [firstRepeated]
  | cons name rest ih =>
    unfold firstRepeated
    by_cases hseen : name ∈ seen
    · simp [hseen]
    · rw [if_neg (by simpa using hseen), ih, List.nodup_cons, List.forall_mem_cons]
      simp only [List.mem_cons, not_or]
      constructor
      · rintro ⟨hnodup, hfresh⟩
        exact ⟨⟨fun hname => (hfresh name hname).1 rfl, hnodup⟩, hseen,
          fun other hother => (hfresh other hother).2⟩
      · rintro ⟨⟨hname, hnodup⟩, _, hfresh⟩
        exact ⟨hnodup, fun other hother => ⟨fun heq => hname (heq ▸ hother), hfresh other hother⟩⟩

theorem one_lt_count_of_firstRepeated {seen names : List String} {name : String}
    (h : firstRepeated seen names = some name) : 1 < (seen ++ names).count name := by
  induction names generalizing seen with
  | nil => cases h
  | cons first rest ih =>
    unfold firstRepeated at h
    split at h
    · rename_i hseen
      cases h
      have hbefore : 0 < seen.count name := List.count_pos_iff.2 (by simpa using hseen)
      rw [List.count_append, List.count_cons_self]
      omega
    · have hlater := ih h
      simp only [List.count_append, List.count_cons] at hlater ⊢
      omega

end Naming
end EdmCommands
