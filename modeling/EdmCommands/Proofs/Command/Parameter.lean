import EdmCommands.Command.Basic

/-!
# EdmCommands.Proofs.Command.Parameter

What the ways to make a parameter leave as it is.
-/

namespace EdmCommands
namespace Parameter

variable (p : Parameter)

section AsMandatory

/-- A mandatory parameter differs from the one it was made of in nothing but the checks. -/
theorem asMandatory_eq : p.asMandatory =
    { p with
      mandatory := true
      validateNotNull := p.asMandatory.validateNotNull
      validateNotNullOrEmpty := p.asMandatory.validateNotNullOrEmpty } := by
  unfold asMandatory
  split
  · rfl
  · split <;> rfl

@[simp] theorem asMandatory_name : p.asMandatory.name = p.name := by rw [asMandatory_eq]

@[simp] theorem asMandatory_wireName : p.asMandatory.wireName = p.wireName := by
  rw [asMandatory_eq]

@[simp] theorem asMandatory_type : p.asMandatory.type = p.type := by rw [asMandatory_eq]

@[simp] theorem asMandatory_location : p.asMandatory.location = p.location := by
  rw [asMandatory_eq]

@[simp] theorem asMandatory_mandatory : p.asMandatory.mandatory = true := by rw [asMandatory_eq]

@[simp] theorem asMandatory_mandatoryIn : p.asMandatory.mandatoryIn = p.mandatoryIn := by
  rw [asMandatory_eq]

@[simp] theorem asMandatory_membership : p.asMandatory.membership = p.membership := by
  rw [asMandatory_eq]

@[simp] theorem asMandatory_discriminator : p.asMandatory.discriminator = p.discriminator := by
  rw [asMandatory_eq]

/-- The checks that a mandatory parameter has by its type: texts are checked for being empty too,
and a flag that is given has no value to check. -/
theorem asMandatory_checks :
    p.asMandatory.validateNotNullOrEmpty = (p.validateNotNullOrEmpty || p.type.isTextual) ∧
      p.asMandatory.validateNotNull =
        (p.validateNotNull || (!p.type.isTextual && p.type != .switch)) := by
  unfold asMandatory
  by_cases htext : p.type.isTextual = true
  · simp [htext]
  · by_cases hswitch : p.type = .switch
    · simp [hswitch, ParameterType.isTextual]
    · simp [htext, hswitch]

end AsMandatory

section WithWireName

variable (wire : String)

/-- A parameter with a name in the request differs in nothing else. -/
theorem withWireName_eq : p.withWireName wire =
    { p with wireName := (p.withWireName wire).wireName } := by
  unfold withWireName
  split <;> rfl

@[simp] theorem withWireName_name : (p.withWireName wire).name = p.name := by rw [withWireName_eq]

@[simp] theorem withWireName_type : (p.withWireName wire).type = p.type := by rw [withWireName_eq]

@[simp] theorem withWireName_location : (p.withWireName wire).location = p.location := by
  rw [withWireName_eq]

@[simp] theorem withWireName_mandatory : (p.withWireName wire).mandatory = p.mandatory := by
  rw [withWireName_eq]

@[simp] theorem withWireName_mandatoryIn : (p.withWireName wire).mandatoryIn = p.mandatoryIn := by
  rw [withWireName_eq]

@[simp] theorem withWireName_validateNotNull :
    (p.withWireName wire).validateNotNull = p.validateNotNull := by
  rw [withWireName_eq]

@[simp] theorem withWireName_validateNotNullOrEmpty :
    (p.withWireName wire).validateNotNullOrEmpty = p.validateNotNullOrEmpty := by
  rw [withWireName_eq]

@[simp] theorem withWireName_membership : (p.withWireName wire).membership = p.membership := by
  rw [withWireName_eq]

theorem effectiveWireName_withWireName (h : p.wireName = none) :
    (p.withWireName wire).effectiveWireName = wire := by
  unfold withWireName effectiveWireName
  split
  · rename_i heq
    rw [h, heq]
    rfl
  · rfl

end WithWireName

/-- A parameter with one more set keeps all that is not about sets. -/
theorem joinSet_eq (set : String) (mandatory : Bool) : p.joinSet set mandatory =
    { p with
      mandatory := (p.joinSet set mandatory).mandatory
      mandatoryIn := (p.joinSet set mandatory).mandatoryIn
      membership := p.membership.insert set } := by
  unfold joinSet
  split
  · split <;> rfl
  · split <;> rfl

/-- Where a parameter is mandatory only in sets it belongs to, it stays so with one more set. -/
theorem isIn_of_mem_mandatoryIn_joinSet {set other : String} {mandatory : Bool}
    (kept : ∀ s ∈ p.mandatoryIn, p.isIn s = true)
    (h : other ∈ (p.joinSet set mandatory).mandatoryIn) :
    (p.joinSet set mandatory).isIn other = true := by
  rw [isIn_joinSet]
  unfold joinSet at h
  simp only at h
  split at h
  · split at h
    · rename_i sets hsets
      right
      simpa [isIn, hsets, SetMembership.contains] using h
    · exact .inr (kept other h)
  · split at h
    · rcases NameSet.mem_insert.1 h with rfl | h
      · exact .inl rfl
      · exact .inr (kept other h)
    · exact .inr (kept other h)

/-- With one more set, a parameter is mandatory where it was and, if so asked, in that set. A
parameter that is mandatory in all sets has no list of them to be optional in one. -/
theorem isMandatoryIn_joinSet_iff {set other : String} {mandatory : Bool}
    (kept : ∀ s ∈ p.mandatoryIn, p.isIn s = true)
    (listed : p.membership = .all → p.mandatory = true → mandatory = true)
    (h : (p.joinSet set mandatory).isIn other = true) :
    (p.joinSet set mandatory).isMandatoryIn other = true ↔
      p.isIn other = true ∧ p.isMandatoryIn other = true ∨ other = set ∧ mandatory = true := by
  rw [isIn_joinSet] at h
  cases hp : p.mandatory with
  | false =>
    have before : p.isMandatoryIn other = true ↔ other ∈ p.mandatoryIn := by
      simp [isMandatoryIn, hp]
    have within : p.isIn other = true ∧ p.isMandatoryIn other = true ↔ other ∈ p.mandatoryIn := by
      rw [before]
      exact and_iff_right_of_imp (kept other)
    rw [within]
    cases mandatory with
    | false => simp [joinSet, isMandatoryIn, hp]
    | true =>
      simp only [joinSet, isMandatoryIn, hp]
      simp [or_comm]
  | true =>
    have before : p.isMandatoryIn other = true := by simp [isMandatoryIn, hp]
    cases mandatory with
    | true =>
      have after : (p.joinSet set true).isMandatoryIn other = true := by
        simp [joinSet, isMandatoryIn, hp]
      simp only [after, before, and_true, true_iff]
      exact h.symm
    | false =>
      cases hmembership : p.membership with
      | all => exact absurd (listed hmembership hp) Bool.false_ne_true
      | only sets => simp [joinSet, isMandatoryIn, isIn, hp, hmembership, SetMembership.contains]

/-- With one more set, a parameter is as mandatory there as asked, and in its other sets as
mandatory as before. -/
theorem isMandatoryIn_joinSet {sets : NameSet} {set other : String} {mandatory : Bool}
    (only : p.membership = .only sets) (fresh : set ∉ sets) (kept : ∀ s ∈ p.mandatoryIn, s ∈ sets)
    (h : other = set ∨ other ∈ sets) :
    (p.joinSet set mandatory).isMandatoryIn other =
      if other = set then mandatory else p.isMandatoryIn other := by
  have isIn_iff : ∀ s, p.isIn s = true ↔ s ∈ sets := by
    intro s
    rw [isIn, only]
    exact NameSet.contains_iff
  have hin : (p.joinSet set mandatory).isIn other = true := by rwa [isIn_joinSet, isIn_iff]
  have listed : p.membership = .all → p.mandatory = true → mandatory = true := by simp [only]
  rw [Bool.eq_iff_iff, isMandatoryIn_joinSet_iff p (fun s hs => (isIn_iff s).2 (kept s hs)) listed
    hin, isIn_iff]
  by_cases hother : other = set
  · simp [hother, fresh]
  · simp [hother, h.resolve_left hother]

end Parameter
end EdmCommands
