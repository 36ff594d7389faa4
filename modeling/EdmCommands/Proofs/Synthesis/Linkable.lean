import EdmCommands.Proofs.Synthesis.Commands

/-!
# EdmCommands.Proofs.Synthesis.Linkable

What a command says about references when it is made: nothing is linked yet; a command that can be
referenced addresses entities of the class of its resource by an identifier, and one that adds or
removes references is for a property that is a reference.

* `SameHead`: a step that adds sets and parameters only.
* `Linkable`: what holds of each command.
* `linkable_of_commands`: the commands of a route, by the ways to make one.
-/

namespace EdmCommands

def OperationKind.OnReference (op : OperationKind) : Prop :=
  op = .postRef ∨ op = .deleteRef

namespace Synthesis

open Schema
open Route (Rendered)

variable {g : Graph} {config : Config} {t : Target} {c c' : Command} {cs : List Command}
  {op : OperationKind} {type : Option String}

/-- The commands differ in their sets and parameters only. -/
def SameHead (c c' : Command) : Prop :=
  c' = { c with sets := c'.sets, parameters := c'.parameters }

structure Unlinked (type : Option String) (op : OperationKind) (c : Command) : Prop where
  operation : c.operation = op
  resourceType : c.resourceType = type
  isReferenceable : c.isReferenceable = false
  referenceTarget : c.referenceTarget = none

/-- What a command says about references. -/
structure Linkable (t : Target) (c : Command) : Prop where
  unlinked : c.referenceTarget = none
  referenceable : c.isReferenceable = true → c.idParameter.isSome = true ∧
    ∃ id, t.property.type = .structured id ∧ t.resourceType = .ok c.resourceType
  reference : c.operation.OnReference →
    t.property.isReference = true ∧ t.resourceType = .ok c.resourceType

/-! ## Steps -/

namespace SameHead

theorem trans {c₁ c₂ c₃ : Command} (h₁ : SameHead c₁ c₂) (h₂ : SameHead c₂ c₃) :
    SameHead c₁ c₃ := by
  rw [SameHead, h₂, h₁]

theorem of_grows (h : Grows c c') : SameHead c c' :=
  h.extended.rest

theorem addParameters {ps : List Parameter} (h : c.addParameters ps = .ok c') : SameHead c c' := by
  rw [Command.addParameters_eq_ok h]
  rfl

theorem addParameter {p : Parameter} (h : c.addParameter p = .ok c') : SameHead c c' := by
  obtain ⟨_, rfl⟩ := Command.addParameter_eq_ok h
  rfl

theorem addSet {set : ParameterSet} (h : c.addSet set = .ok c') : SameHead c c' := by
  obtain ⟨_, rfl⟩ := Command.addSet_eq_ok h
  rfl

theorem withOnlySet {set : String} (h : withOnlySet c set = .ok c') : SameHead c c' :=
  .of_grows (withOnlySet_grows h).1.1

end SameHead

namespace Unlinked

theorem of_command {verb : Verb} {noun url : String} {method : HttpMethod}
    (h : t.command verb noun op method url = .ok c) :
    ∃ type, t.resourceType = .ok type ∧ Unlinked type op c := by
  obtain ⟨type, htype, rfl⟩ := Fallible.map_eq_ok_iff.1 h
  exact ⟨type, htype, rfl, rfl, rfl, rfl⟩

theorem of_sameHead (h : Unlinked type op c) (same : SameHead c c') : Unlinked type op c' := by
  rw [same]
  exact ⟨h.operation, h.resourceType, h.isReferenceable, h.referenceTarget⟩

theorem identify (h : Unlinked type op c) (id : Option String) :
    Unlinked type op { c with idParameter := id } :=
  ⟨h.operation, h.resourceType, h.isReferenceable, h.referenceTarget⟩

theorem summarize (h : Unlinked type op c) (summary : String) :
    Unlinked type op { c with summary := summary } :=
  ⟨h.operation, h.resourceType, h.isReferenceable, h.referenceTarget⟩

theorem retype (h : Unlinked type op c) (result description : Option String) :
    Unlinked result op { c with resourceType := result, description := description } :=
  ⟨h.operation, rfl, h.isReferenceable, h.referenceTarget⟩

theorem linkable (h : Unlinked type op c) (other : ¬ op.OnReference) : Linkable t c where
  unlinked := h.referenceTarget
  referenceable := by
    rw [h.isReferenceable]
    nofun
  reference href := by
    rw [h.operation] at href
    exact absurd href other

theorem linkable_of_reference (h : Unlinked type op c) (href : t.property.isReference = true)
    (htype : t.resourceType = .ok type) : Linkable t c where
  unlinked := h.referenceTarget
  referenceable := by
    rw [h.isReferenceable]
    nofun
  reference _ := ⟨href, by rw [h.resourceType, htype]⟩

end Unlinked

/-! ## Builders -/

theorem linkable_of_create {target : ClassId} (h : create t target = .ok c) : Linkable t c := by
  obtain ⟨c₁, hcommand, h⟩ := Fallible.bind_eq_ok_iff.1 h
  obtain ⟨c₂, hpath, h⟩ := Fallible.bind_eq_ok_iff.1 h
  obtain ⟨c₃, hbody, h⟩ := Fallible.bind_eq_ok_iff.1 h
  cases h
  obtain ⟨type, _, hstart⟩ := Unlinked.of_command hcommand
  have hend := (hstart.of_sameHead (.addParameters hpath)).of_sameHead
    (.of_grows (withBody_grows hbody).1)
  exact (hend.summarize _).linkable (by simp [OperationKind.OnReference])

theorem linkable_of_update {target : ClassId} (h : update t target = .ok c) : Linkable t c := by
  obtain ⟨c₁, hcommand, h⟩ := Fallible.bind_eq_ok_iff.1 h
  obtain ⟨c₂, hpath, h⟩ := Fallible.bind_eq_ok_iff.1 h
  obtain ⟨c₃, hbody, h⟩ := Fallible.bind_eq_ok_iff.1 h
  cases h
  obtain ⟨type, _, hstart⟩ := Unlinked.of_command hcommand
  have hplaced := (hstart.of_sameHead (.addParameters hpath)).identify
    (t.route.terminalId.map (·.name))
  have hend := hplaced.of_sameHead (.of_grows (withBody_grows hbody).1)
  exact (hend.summarize _).linkable (by simp [OperationKind.OnReference])

theorem linkable_of_delete (h : delete t = .ok c) : Linkable t c := by
  obtain ⟨c₁, hcommand, h⟩ := Fallible.bind_eq_ok_iff.1 h
  obtain ⟨c₂, hpath, h⟩ := Fallible.bind_eq_ok_iff.1 h
  obtain ⟨c₃, hset, h⟩ := Fallible.bind_eq_ok_iff.1 h
  cases h
  obtain ⟨type, _, hstart⟩ := Unlinked.of_command hcommand
  have hplaced := (hstart.of_sameHead (.addParameters hpath)).identify
    (t.route.terminalId.map (·.name))
  have hend := hplaced.of_sameHead (.withOnlySet hset)
  exact (hend.summarize _).linkable (by simp [OperationKind.OnReference])

theorem linkable_of_postReference (href : t.property.isReference = true)
    (h : postReference t = .ok c) : Linkable t c := by
  unfold postReference at h
  dsimp only at h
  obtain ⟨c₁, hcommand, h⟩ := Fallible.bind_eq_ok_iff.1 h
  obtain ⟨c₂, hpath, h⟩ := Fallible.bind_eq_ok_iff.1 h
  obtain ⟨c₃, hset, h⟩ := Fallible.bind_eq_ok_iff.1 h
  obtain ⟨c₄, hreference, h⟩ := Fallible.bind_eq_ok_iff.1 h
  cases h
  obtain ⟨type, htype, hstart⟩ := Unlinked.of_command hcommand
  have hplaced := (hstart.of_sameHead (.addParameters hpath)).of_sameHead (.withOnlySet hset)
  have hend := hplaced.of_sameHead (.addParameter hreference)
  exact (hend.summarize _).linkable_of_reference href htype

theorem linkable_of_deleteReference (href : t.property.isReference = true)
    (h : deleteReference t = .ok c) : Linkable t c := by
  unfold deleteReference at h
  obtain ⟨c₁, hcommand, h⟩ := Fallible.bind_eq_ok_iff.1 h
  obtain ⟨c₂, hpath, h⟩ := Fallible.bind_eq_ok_iff.1 h
  obtain ⟨c₃, hset, h⟩ := Fallible.bind_eq_ok_iff.1 h
  obtain ⟨type, htype, hstart⟩ := Unlinked.of_command hcommand
  have hplaced := (hstart.of_sameHead (.addParameters hpath)).of_sameHead (.withOnlySet hset)
  split at h
  · obtain ⟨c₄, hreference, h⟩ := Fallible.bind_eq_ok_iff.1 h
    cases h
    have hend := hplaced.of_sameHead (.addParameter hreference)
    exact (hend.summarize _).linkable_of_reference href htype
  · cases h
    exact (hplaced.summarize _).linkable_of_reference href htype

/-- What a command says about references is not changed by where its identifier comes from. -/
theorem Unlinked.identifyIf (h : Unlinked type op c) (onItem : Bool) (id : Option String) :
    Unlinked type op (if onItem then { c with idParameter := id } else c) := by
  cases onItem with
  | false => exact h
  | true => exact h.identify id

theorem linkable_of_invoke {o : Overloads} (h : invoke t o = .ok c) : Linkable t c := by
  obtain ⟨invoked, stages, rfl⟩ := stages_of_invoke h
  cases stages with
  | made _ hcommand hpath hoverloads hoptions =>
    obtain ⟨_, _, hstart⟩ := Unlinked.of_command hcommand
    have hplaced := (hstart.retype _ _).of_sameHead (.addParameters hpath)
    have hmerged := (hplaced.identifyIf _ _).of_sameHead
      (.of_grows (withOverloads_grows hoverloads).1)
    have hend := hmerged.of_sameHead (.of_grows (withResultOptions_grows hoptions).1)
    refine (hend.summarize _).linkable ?_
    cases o.first.kind <;> simp [invocation, OperationKind.OnReference]

/-- A collection of entities has the type of a class. -/
theorem structured_of_isEntityCollection (h : t.isEntityCollection = .ok true) :
    ∃ id, t.property.type = .structured id := by
  unfold Target.isEntityCollection at h
  split at h
  · cases htype : t.property.type with
    | structured id => exact ⟨id, rfl⟩
    | primitive p =>
      rw [htype] at h
      cases h
    | enum id =>
      rw [htype] at h
      cases h
  · cases h

theorem SameHead.withSearch (h : withSearch c = .ok c') : SameHead c c' := by
  obtain ⟨c₁, hset, h⟩ := Fallible.bind_eq_ok_iff.1 h
  obtain ⟨c₂, hprojection, hcollection⟩ := Fallible.bind_eq_ok_iff.1 h
  exact ((SameHead.withOnlySet hset).trans (.addParameters hprojection)).trans
    (.addParameters hcollection)

/-- The command on a collection can be referenced where it has the identifier of an entity. -/
theorem Unlinked.linkable_of_withEntity {isEntity : Bool} (h : Unlinked type op c)
    (htype : t.resourceType = .ok type) (hentity : t.isEntityCollection = .ok isEntity)
    (other : ¬ op.OnReference) (hidentified : withEntity t isEntity c = .ok c') :
    Linkable t c' := by
  rcases withEntity_eq_ok hidentified with ⟨id, c₁, c₂, rfl, _, hset, hadd, rfl⟩ | ⟨_, rfl⟩
  · have hgot := (h.of_sameHead (.addSet hset)).of_sameHead (.addParameter hadd)
    obtain ⟨target, htarget⟩ := structured_of_isEntityCollection hentity
    refine ⟨hgot.referenceTarget, fun _ => ⟨rfl, target, htarget, ?_⟩, fun href => ?_⟩
    · rw [htype]
      exact congrArg Except.ok hgot.resourceType.symm
    · exact absurd (hgot.operation ▸ href) other
  · exact h.linkable other

theorem Linkable.of_sameHead (h : Linkable t c) (same : SameHead c c') : Linkable t c' := by
  rw [same]
  exact ⟨h.unlinked, h.referenceable, h.reference⟩

theorem linkable_of_getOrSearch (h : getOrSearch t = .ok c) : Linkable t c := by
  obtain ⟨read, stages, rfl⟩ := stages_of_getOrSearch h
  suffices hread : Linkable t read from ⟨hread.unlinked, hread.referenceable, hread.reference⟩
  cases stages with
  | collection hentity hcommand hpath hidentified hsearch =>
    obtain ⟨type, htype, hstart⟩ := Unlinked.of_command hcommand
    have hplaced := hstart.of_sameHead (.addParameters hpath)
    have hentity := hplaced.linkable_of_withEntity htype hentity
      (by simp [OperationKind.OnReference]) hidentified
    exact hentity.of_sameHead (.withSearch hsearch)
  | single hcommand hpath hset _ hoptions =>
    obtain ⟨type, _, hstart⟩ := Unlinked.of_command hcommand
    have hplaced := (hstart.of_sameHead (.addParameters hpath)).of_sameHead (.withOnlySet hset)
    have hend := hplaced.of_sameHead (.addParameters hoptions)
    exact hend.linkable (by simp [OperationKind.OnReference])

/-! ## The commands of a route -/

theorem Makes.linkable (h : Makes t c) : Linkable t c := by
  cases h with
  | read h => exact linkable_of_getOrSearch h
  | create h => exact linkable_of_create h
  | update h => exact linkable_of_update h
  | delete h => exact linkable_of_delete h
  | postReference reference h => exact linkable_of_postReference reference h
  | deleteReference reference h => exact linkable_of_deleteReference reference h
  | invoke _ h => exact linkable_of_invoke h

/-- What the commands of a route say about references, in terms of the property at its end. -/
theorem linkable_of_commands {route : Rendered} {id : PropertyId}
    (h : commands g config route id = .ok cs) :
    ∃ p, g.propertyAt id = .ok p ∧ ∀ c ∈ cs, Linkable ⟨g, config, route, p⟩ c := by
  obtain ⟨p, hp, hmakes⟩ := makes_of_commands h
  exact ⟨p, hp, fun c hc => (hmakes c hc).linkable⟩

end Synthesis
end EdmCommands
