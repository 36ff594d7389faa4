import EdmCommands.Proofs.Synthesis.Body
import EdmCommands.Synthesis.Methods

/-!
# EdmCommands.Proofs.Synthesis.Methods

Putting overloads together keeps the rules of the command model.

* `mergeArgument_grows`, `mergeOverloads_grows`: one argument; all overloads.
* `addMissingOptions_grows`: the query options of functions that yield collections.
-/

namespace EdmCommands
namespace Synthesis

open Schema

variable {g : Graph} {c c' : Command} {set : String} {location : ParameterLocation}

theorem shareArgument_eq (mandatory : Bool) (type : ParameterType) (p : Parameter) :
    shareArgument set mandatory type p =
      { p.joinSet set mandatory with
        type := (shareArgument set mandatory type p).type } := rfl

section ShareArgument

variable {mandatory : Bool} {type : ParameterType} {p : Parameter}

@[simp] theorem shareArgument_name :
    (shareArgument set mandatory type p).name = p.name := by
  rw [shareArgument_eq, Parameter.joinSet_eq]

@[simp] theorem shareArgument_location :
    (shareArgument set mandatory type p).location = p.location := by
  rw [shareArgument_eq, Parameter.joinSet_eq]

@[simp] theorem shareArgument_effectiveWireName :
    (shareArgument set mandatory type p).effectiveWireName = p.effectiveWireName := by
  rw [shareArgument_eq, Parameter.joinSet_eq]
  rfl

@[simp] theorem shareArgument_membership :
    (shareArgument set mandatory type p).membership = p.membership.insert set := by
  rw [shareArgument_eq, Parameter.joinSet_eq]

/-- A shared argument is checked as it was before. -/
theorem shareArgument_checks :
    (shareArgument set mandatory type p).validateNotNull = p.validateNotNull ∧
      (shareArgument set mandatory type p).validateNotNullOrEmpty = p.validateNotNullOrEmpty := by
  rw [shareArgument_eq, Parameter.joinSet_eq]
  exact ⟨rfl, rfl⟩

theorem isIn_shareArgument {other : String} :
    (shareArgument set mandatory type p).isIn other = true ↔
      other = set ∨ p.isIn other = true := by
  simp [Parameter.isIn]

theorem isMandatoryIn_shareArgument {other : String} :
    (shareArgument set mandatory type p).isMandatoryIn other =
      (p.joinSet set mandatory).isMandatoryIn other := rfl

theorem shareArgument_type :
    (shareArgument set mandatory type p).type = if p.type = type then p.type else .object := by
  have kept : (p.joinSet set mandatory).type = p.type := by
    rw [Parameter.joinSet_eq]
  rw [shareArgument, kept]

end ShareArgument

theorem shareArgument_fits {p : Parameter} {sets : List String} {mandatory : Bool}
    {type : ParameterType} (h : p.FitsIn sets) (declared : set ∈ sets) :
    (shareArgument set mandatory type p).FitsIn sets := by
  refine ⟨?_, ?_, ?_⟩
  · intro members hm
    rw [shareArgument_membership] at hm
    cases hp : p.membership with
    | all => rw [hp] at hm; cases hm
    | only old =>
      rw [hp] at hm
      cases hm
      exact ⟨set, NameSet.mem_insert.2 (.inl rfl)⟩
  · intro members hm s hs
    rw [shareArgument_membership] at hm
    cases hp : p.membership with
    | all => rw [hp] at hm; cases hm
    | only old =>
      rw [hp] at hm
      cases hm
      rcases NameSet.mem_insert.1 hs with rfl | hs
      · exact declared
      · exact h.declared old hp s hs
  · exact fun s hs => Parameter.isIn_of_mem_mandatoryIn_joinSet p h.mandatory hs

theorem mergeArgument_grows {wire : String} {type : ParameterType} {mandatory : Bool}
    (outside : location ≠ .path) (declared : set ∈ c.setNames)
    (h : mergeArgument c set location wire type mandatory = .ok c') :
    Grows c c' ∧ c'.sets = c.sets := by
  unfold mergeArgument at h
  split at h
  · cases h
    refine ⟨⟨.modifyFirst c ?_ ?_ ?_, fun hc => hc.modifyFirst ?_ ?_⟩, rfl⟩
    · intro p hp
      simp only [isArgument, Bool.and_eq_true, beq_iff_eq] at hp
      rw [hp.1]
      exact outside
    · exact fun _ => shareArgument_name
    · exact fun _ => shareArgument_location
    · exact fun _ => shareArgument_name
    · exact fun p hp => shareArgument_fits (hc.fits p hp) declared
  · dsimp only at h
    obtain ⟨hfresh, rfl⟩ := Command.addParameter_eq_ok h
    refine ⟨⟨.addParameter c ?_, fun hc => hc.addParameter hfresh ?_⟩, rfl⟩
    · split <;> simpa [Parameter.inSets] using outside
    · have nonempty : [set] ≠ [] := by simp
      refine .of_only ?_ ?_ nonempty (by simpa using declared)
      · split <;> simp [Parameter.inSets]
      · split <;> simp [Parameter.inSets]

theorem mergeArguments_grows {ps : List MethodParameter} (outside : location ≠ .path)
    (declared : set ∈ c.setNames) (h : mergeArguments g set location c ps = .ok c') :
    Grows c c' ∧ c'.sets = c.sets := by
  induction ps generalizing c with
  | nil =>
    cases h
    exact ⟨.refl _, rfl⟩
  | cons p rest ih =>
    unfold mergeArguments at h
    split at h
    · cases h
    split at h
    · cases h
    rename_i merged hmerged
    obtain ⟨hgrows, hsets⟩ := mergeArgument_grows outside declared hmerged
    have declared : set ∈ merged.setNames := by
      rwa [Command.setNames, hsets]
    obtain ⟨hrest, hsame⟩ := ih declared h
    exact ⟨hgrows.trans hrest, hsame.trans hsets⟩

theorem mergeOverloads_grows {several : Bool} {methods : List Method}
    {candidates : List Selection.Candidate} (outside : location ≠ .path)
    (h : mergeOverloads g several location c methods = .ok (c', candidates)) :
    Grows c c' ∧ (∀ candidate ∈ candidates, candidate.name ∈ c'.setNames) ∧
      candidates.length = methods.length := by
  induction methods generalizing c candidates with
  | nil =>
    cases h
    exact ⟨.refl _, by simp, rfl⟩
  | cons m rest ih =>
    unfold mergeOverloads at h
    dsimp only at h
    obtain ⟨c₁, hset, h⟩ := Fallible.bind_eq_ok_iff.1 h
    obtain ⟨c₂, harguments, h⟩ := Fallible.bind_eq_ok_iff.1 h
    obtain ⟨⟨c₃, others⟩, hrest, h⟩ := Fallible.bind_eq_ok_iff.1 h
    cases h
    obtain ⟨hfresh, rfl⟩ := Command.addSet_eq_ok hset
    obtain ⟨hmerged, hsets⟩ := mergeArguments_grows outside (by simp [Command.setNames]) harguments
    obtain ⟨hgrows, hnames, hlength⟩ := ih hrest
    have first : Grows c { c with sets := c.sets ++ [{ name := overloadSet c several m }] } :=
      ⟨.addSet c _, fun hc => hc.addSet hfresh⟩
    refine ⟨(first.trans hmerged).trans hgrows, ?_, by simp [hlength]⟩
    rw [List.forall_mem_cons]
    refine ⟨hgrows.extended.sets.subset ?_, hnames⟩
    rw [Command.setNames, hsets]
    simp

theorem addMissingOptions_grows {options : List Parameter}
    (outside : ∀ p ∈ options, p.location ≠ .path) (everywhere : ∀ p ∈ options, p.membership = .all)
    (h : addMissingOptions c options = .ok c') : Grows c c' ∧ c'.sets = c.sets := by
  induction options generalizing c with
  | nil =>
    cases h
    exact ⟨.refl _, rfl⟩
  | cons p rest ih =>
    rw [List.forall_mem_cons] at outside everywhere
    unfold addMissingOptions at h
    split at h
    · exact ih outside.2 everywhere.2 h
    split at h
    · cases h
    rename_i added hadded
    obtain ⟨hfresh, rfl⟩ := Command.addParameter_eq_ok hadded
    obtain ⟨hrest, hsame⟩ := ih outside.2 everywhere.2 h
    have first : Grows c { c with parameters := c.parameters ++ [p] } :=
      ⟨.addParameter c outside.1, fun hc => hc.addParameter hfresh (.of_all everywhere.1)⟩
    exact ⟨first.trans hrest, hsame⟩

end Synthesis
end EdmCommands
