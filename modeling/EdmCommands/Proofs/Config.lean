import EdmCommands.Config
import EdmCommands.Proofs.Fallible

/-!
# EdmCommands.Proofs.Config

What the settings satisfy once they are checked.
-/

namespace EdmCommands
namespace Config

variable {config : Config}

/-- A name of ASCII letters and digits, one at least. -/
def IsPlainName (name : String) : Prop :=
  name ≠ "" ∧ ∀ c ∈ name.toList, c.isAlphanum = true

theorem IsPlainName.append {s t : String} (hs : IsPlainName s) (ht : IsPlainName t) :
    IsPlainName (s ++ t) := by
  refine ⟨fun hempty => hs.1 ?_, fun c hc => ?_⟩
  · exact (String.append_eq_empty_iff.1 hempty).1
  · rw [String.toList_append, List.mem_append] at hc
    exact hc.elim (hs.2 c) (ht.2 c)

theorem isPlainName_toString (n : Nat) : IsPlainName (toString n) := by
  rw [Nat.toString_eq_repr]
  refine ⟨fun hempty => ?_, fun c hc => ?_⟩
  · have := Nat.length_repr_pos (n := n)
    rw [hempty] at this
    cases this
  · rw [Nat.toList_repr] at hc
    have hdigit := Nat.isDigit_of_mem_toDigits (by decide) (by decide) hc
    simp [Char.isAlphanum, hdigit]

theorem isPlainName_of_checkName {field value : String} (h : checkName field value = .ok ()) :
    IsPlainName value := by
  unfold checkName at h
  split at h
  · cases h
  rename_i hblank
  split at h
  · rename_i hall
    refine ⟨?_, by simpa using hall⟩
    rintro rfl
    exact hblank (by decide)
  · cases h

theorem of_validate (h : config.validate = .ok ()) :
    IsPlainName config.idSuffix ∧ IsPlainName config.typecastSuffix ∧
      IsPlainName config.referenceUrl ∧ config.idSuffix ≠ config.typecastSuffix ∧
      config.maxRouteDepth ≠ some 0 := by
  rw [validate, Fallible.mapError_eq_ok_iff] at h
  unfold check at h
  obtain ⟨_, hid, h⟩ := Fallible.bind_eq_ok_iff.1 h
  obtain ⟨_, htypecast, h⟩ := Fallible.bind_eq_ok_iff.1 h
  obtain ⟨_, hreference, h⟩ := Fallible.bind_eq_ok_iff.1 h
  have hsuffix : config.idSuffix ≠ config.typecastSuffix := by
    intro heq
    rw [if_pos heq] at h
    cases h
  rw [if_neg hsuffix] at h
  have hdepth : config.maxRouteDepth ≠ some 0 := by
    intro heq
    rw [if_pos heq] at h
    cases h
  exact ⟨isPlainName_of_checkName hid, isPlainName_of_checkName htypecast,
    isPlainName_of_checkName hreference, hsuffix, hdepth⟩

end Config
end EdmCommands
