import EdmCommands.Proofs.Command.Valid

/-!
# EdmCommands.Proofs.Command.Reported

What the check of a command reports. It stops at the first rule that is broken, so that a broken
rule may hide others; but none is hidden by rules that are kept, and none is reported that is kept.

* `Parameter.Misfits`: how a parameter breaks the rules about its sets.
* `Command.Breaks`: how a command breaks the rules of the model.
* `breaks_of_check`: what is reported is broken.
* `validate_reports`: a command is accepted just when it breaks no rule.
-/

namespace EdmCommands

/-- How a parameter fails to fit in the declared sets: it is used in none, in one that is not
declared, or mandatory in one that it is not used in. -/
def Parameter.Misfits (p : Parameter) (sets : List String) : CommandCause → Prop
  | .inNoSet name => name = p.name ∧ ∃ members, p.membership = .only members ∧ ∀ s, s ∉ members
  | .unknownSet name set =>
    name = p.name ∧ ∃ members, p.membership = .only members ∧ set ∈ members ∧ set ∉ sets
  | .strayMandatory name set => name = p.name ∧ set ∈ p.mandatoryIn ∧ p.isIn set = false
  | _ => False

theorem Parameter.FitsIn.not_misfits {p : Parameter} {sets : List String} (h : p.FitsIn sets)
    (cause : CommandCause) : ¬ p.Misfits sets cause := by
  cases cause with
  | inNoSet name =>
    rintro ⟨-, members, honly, hempty⟩
    obtain ⟨s, hs⟩ := h.inSome members honly
    exact hempty s hs
  | unknownSet name set =>
    rintro ⟨-, members, honly, hset, hunknown⟩
    exact hunknown (h.declared members honly set hset)
  | strayMandatory name set =>
    rintro ⟨-, hset, hstray⟩
    rw [h.mandatory set hset] at hstray
    cases hstray
  | _ => exact id

namespace Command

/-- How a command breaks a rule of the model, told by the cause that is reported for it. -/
def Breaks (c : Command) : CommandCause → Prop
  | .noSets => c.sets = []
  | .defaultCount count => c.sets.countP (·.isDefault) = count ∧ count ≠ 1
  | .duplicateSet name => 1 < c.setNames.count name
  | .duplicateParameter name => 1 < c.parameterNames.count name
  | .undeclaredId id => c.idParameter = some id ∧ id ∉ c.parameterNames
  | cause => ∃ p ∈ c.parameters, p.Misfits c.setNames cause

variable {c : Command} {p : Parameter} {sets seen : List String} {cause : CommandCause}

theorem breaks_of_misfits (hp : p ∈ c.parameters) (h : p.Misfits c.setNames cause) :
    c.Breaks cause := by
  cases cause with
  | inNoSet => exact ⟨p, hp, h⟩
  | unknownSet => exact ⟨p, hp, h⟩
  | strayMandatory => exact ⟨p, hp, h⟩
  | _ => exact absurd h id

theorem Valid.not_breaks (h : c.Valid) (cause : CommandCause) : ¬ c.Breaks cause := by
  have fits : ¬ ∃ p ∈ c.parameters, p.Misfits c.setNames cause := by
    rintro ⟨p, hp, hmisfits⟩
    exact (h.fits p hp).not_misfits cause hmisfits
  cases cause with
  | noSets => exact h.hasSets
  | defaultCount count =>
    rintro ⟨rfl, hcount⟩
    exact hcount h.oneDefault
  | duplicateSet name => exact (List.nodup_iff_count_le_one.1 h.sets name).not_gt
  | duplicateParameter name => exact (List.nodup_iff_count_le_one.1 h.names name).not_gt
  | undeclaredId id =>
    rintro ⟨hid, hundeclared⟩
    exact hundeclared (h.declaredId id hid)
  | _ => exact fits

/-! ## What the checks report -/

theorem misfits_of_checkMembership (h : checkMembership sets p = .error cause) :
    p.Misfits sets cause := by
  unfold checkMembership at h
  split at h
  · cases h
  · rename_i members honly
    split at h
    · rename_i hempty
      cases h
      refine ⟨rfl, members, honly, fun s hs => ?_⟩
      rw [← NameSet.mem_names, List.isEmpty_iff.1 hempty] at hs
      cases hs
    · split at h
      · rename_i unknown hfound
        cases h
        have hunknown := List.find?_some hfound
        exact ⟨rfl, members, honly, List.mem_of_find?_eq_some hfound, by simpa using hunknown⟩
      · cases h

theorem misfits_of_checkMandatory (h : checkMandatory p = .error cause) :
    p.Misfits sets cause := by
  unfold checkMandatory at h
  split at h
  · rename_i stray hfound
    cases h
    have hstray := List.find?_some hfound
    exact ⟨rfl, List.mem_of_find?_eq_some hfound, by simpa using hstray⟩
  · cases h

/-- The parameters are refused for a name that is there twice, or for one that does not fit. -/
theorem checkParameters_eq_error {ps : List Parameter}
    (h : checkParameters sets seen ps = .error cause) :
    (∃ name, cause = .duplicateParameter name ∧ 1 < (seen ++ ps.map (·.name)).count name) ∨
      ∃ p ∈ ps, p.Misfits sets cause := by
  induction ps generalizing seen with
  | nil => cases h
  | cons p rest ih =>
    unfold checkParameters at h
    split at h
    · rename_i hseen
      cases h
      have hbefore : 0 < seen.count p.name := List.count_pos_iff.2 (by simpa using hseen)
      refine .inl ⟨p.name, rfl, ?_⟩
      rw [List.map_cons, List.count_append, List.count_cons_self]
      omega
    · split at h
      · rename_i hmembership
        cases h
        exact .inr ⟨p, List.mem_cons_self, misfits_of_checkMembership hmembership⟩
      · split at h
        · rename_i hmandatory
          cases h
          exact .inr ⟨p, List.mem_cons_self, misfits_of_checkMandatory hmandatory⟩
        · rcases ih h with ⟨name, hcause, hcount⟩ | ⟨q, hq, hmisfits⟩
          · refine .inl ⟨name, hcause, ?_⟩
            simp only [List.map_cons, List.count_append, List.count_cons] at hcount ⊢
            omega
          · exact .inr ⟨q, List.mem_cons_of_mem _ hq, hmisfits⟩

theorem checkId_eq_error (h : c.checkId = .error cause) : c.Breaks cause := by
  unfold checkId at h
  split at h
  · cases h
  · rename_i id hid
    split at h
    · cases h
    · rename_i hundeclared
      cases h
      exact ⟨hid, by simpa using hundeclared⟩

/-- A rule that is reported is broken. -/
theorem breaks_of_check (h : c.check = .error cause) : c.Breaks cause := by
  unfold check at h
  split at h
  · rename_i hnone
    cases h
    exact List.isEmpty_iff.1 hnone
  dsimp only at h
  split at h
  · rename_i hdefaults
    cases h
    exact ⟨rfl, hdefaults⟩
  split at h
  · rename_i name hrepeated
    cases h
    exact Naming.one_lt_count_of_firstRepeated hrepeated
  split at h
  · rename_i hparameters
    cases h
    rcases checkParameters_eq_error hparameters with ⟨name, rfl, hcount⟩ | ⟨p, hp, hmisfits⟩
    · exact hcount
    · exact breaks_of_misfits hp hmisfits
  · exact checkId_eq_error h

/-- A command is accepted just when it obeys the rules of the model, that is when it breaks none of
them. Otherwise it is refused for a rule that it breaks. -/
theorem validate_reports (c : Command) :
    (c.validate = .ok () ↔ c.Valid) ∧ (c.Valid ↔ ∀ cause, ¬ c.Breaks cause) ∧
      ∀ f, c.validate = .error f → ∃ cause, f = c.fault cause ∧ c.Breaks cause := by
  have reported : ∀ f, c.validate = .error f → ∃ cause, f = c.fault cause ∧ c.Breaks cause := by
    intro f h
    obtain ⟨cause, hcause, rfl⟩ := Fallible.mapError_eq_error_iff.1 h
    exact ⟨cause, rfl, breaks_of_check hcause⟩
  refine ⟨validate_eq_ok_iff, ⟨fun h => h.not_breaks, fun h => ?_⟩, reported⟩
  cases hvalidate : c.validate with
  | ok => exact validate_eq_ok_iff.1 hvalidate
  | error f =>
    obtain ⟨cause, -, hbreaks⟩ := reported f hvalidate
    exact absurd hbreaks (h cause)

end Command
end EdmCommands
