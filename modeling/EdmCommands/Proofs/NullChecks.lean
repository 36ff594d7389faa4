import EdmCommands.Proofs.Document.Construction
import EdmCommands.Proofs.Generation
import EdmCommands.Proofs.Synthesis.FieldClasses
import EdmCommands.Proofs.Synthesis.Heads
import EdmCommands.Proofs.Synthesis.Invocations

/-!
# EdmCommands.Proofs.NullChecks

The checks for null of the parameters that must be given. A parameter that is made mandatory gets
the checks that its type needs, and a parameter that is never made mandatory needs none. Only the
arguments of overloads become mandatory, or change their type, after they were made; of these the
first declaration decides.

* `NullChecked`, `Demanded`: what the checks should be, and of which parameters.
* `Checked`: the invariant of the commands that do not invoke a method.
* `FirstDecides`, `Carries.nullChecked_iff`: when an argument has the right checks.
* `nullChecked_iff_of_run`: so for all commands of a generation.
* `not_nullChecked_of_restocking`: an argument that may be null at first, and may not later.
-/

namespace EdmCommands

/-- The parameter has the checks for null that its type needs: a text is checked for being empty
too, and a flag that is given has no value to check. -/
def Parameter.NullChecked (p : Parameter) : Prop :=
  if p.type.isTextual then p.validateNotNullOrEmpty = true ∧ p.validateNotNull = false
  else if p.type = .switch then p.validateNotNullOrEmpty = false ∧ p.validateNotNull = false
  else p.validateNotNull = true ∧ p.validateNotNullOrEmpty = false

/-- The parameter is in no set mandatory. -/
def Parameter.IsOptional (p : Parameter) : Prop :=
  ∀ set, p.isMandatoryIn set = false

def OperationKind.OnMethod (op : OperationKind) : Prop :=
  op = .action ∨ op = .function

/-- The parameter must be given in some set that it can be used in. -/
def Command.Demanded (c : Command) (p : Parameter) : Prop :=
  ∃ s ∈ c.sets, p.isIn s.name = true ∧ p.isMandatoryIn s.name = true

instance (c : Command) (p : Parameter) : Decidable (c.Demanded p) :=
  inferInstanceAs (Decidable (∃ s ∈ c.sets, p.isIn s.name = true ∧ p.isMandatoryIn s.name = true))

namespace Parameter

variable {p : Parameter}

theorem nullChecked_iff : p.NullChecked ↔
    p.validateNotNullOrEmpty = p.type.isTextual ∧
      p.validateNotNull = (!p.type.isTextual && p.type != .switch) := by
  unfold NullChecked
  by_cases htext : p.type.isTextual = true
  · simp [htext]
  · by_cases hswitch : p.type = .switch
    · simp [hswitch, ParameterType.isTextual]
    · have other : (p.type != .switch) = true := bne_iff_ne.2 hswitch
      simp [htext, hswitch, other, and_comm]

instance (p : Parameter) : Decidable p.NullChecked :=
  decidable_of_iff _ nullChecked_iff.symm

theorem nullChecked_asMandatory (hempty : p.validateNotNullOrEmpty = false)
    (hnull : p.validateNotNull = false) : p.asMandatory.NullChecked := by
  rw [nullChecked_iff, p.asMandatory_checks.1, p.asMandatory_checks.2]
  simp [hempty, hnull]

theorem isOptional_of (hnever : p.mandatory = false) (hnowhere : p.mandatoryIn = .empty) :
    p.IsOptional := by
  intro set
  rw [isMandatoryIn, hnever, hnowhere]
  rfl

theorem not_demanded_of_isOptional {c : Command} (h : p.IsOptional) : ¬ c.Demanded p := by
  rintro ⟨s, _, _, hmandatory⟩
  rw [h s.name] at hmandatory
  cases hmandatory

end Parameter

namespace Synthesis

open Schema
open Route (Rendered Segment IdPlaceholder)

variable {g : Graph} {config : Config} {t : Target} {c c' : Command} {p : Parameter}

/-! ## Parameters that are made mandatory -/

theorem nullChecked_idParameter (segment : String) (id : IdPlaceholder) (sets : List String) :
    ((idParameter segment id).inSets sets).NullChecked :=
  Parameter.nullChecked_asMandatory rfl rfl

theorem nullChecked_of_mem_pathParameters {terminalId : Bool} {segments : List Segment}
    (h : p ∈ pathParameters terminalId segments) : p.NullChecked := by
  induction segments with
  | nil => cases h
  | cons s rest ih =>
    simp only [pathParameters, List.mem_append, Option.mem_toList, Option.map_eq_some_iff] at h
    rcases h with (⟨id, _, rfl⟩ | ⟨cast, _, rfl⟩) | h
    · exact Parameter.nullChecked_asMandatory rfl rfl
    · exact Parameter.nullChecked_asMandatory rfl rfl
    · exact ih h

theorem nullChecked_referenceUrl (location : ParameterLocation) (wire : String) :
    (referenceUrl config location wire).NullChecked := by
  simp [Parameter.nullChecked_iff, referenceUrl, Parameter.asMandatory_checks,
    ParameterType.isTextual]

theorem nullChecked_typeSwitch (name set qualified : String) :
    (typeSwitch name set qualified).NullChecked := by
  simp [Parameter.nullChecked_iff, typeSwitch, Parameter.inSets, Parameter.withDescription,
    Parameter.asMandatory_checks, ParameterType.isTextual]

theorem isOptional_projectionOptions : ∀ p ∈ projectionOptions, p.IsOptional := by
  intro p hp
  refine Parameter.isOptional_of ?_ ?_ <;> revert p <;> simp [projectionOptions, queryOption]

theorem isOptional_collectionOptions : ∀ p ∈ collectionOptions, p.IsOptional := by
  intro p hp
  refine Parameter.isOptional_of ?_ ?_ <;> revert p <;> simp [collectionOptions, queryOption]

/-! ## Commands on the resource -/

/-- Every parameter of the command is optional or has its checks. -/
def Checked (c : Command) : Prop :=
  ∀ p ∈ c.parameters, p.IsOptional ∨ p.NullChecked

namespace Checked

theorem of_command {verb : Verb} {noun url : String} {operation : OperationKind}
    {method : HttpMethod} (h : t.command verb noun operation method url = .ok c) : Checked c := by
  obtain ⟨_, _, rfl⟩ := Fallible.map_eq_ok_iff.1 h
  intro p hp
  cases hp

theorem addParameters {ps : List Parameter} (hc : Checked c)
    (hps : ∀ p ∈ ps, p.IsOptional ∨ p.NullChecked) (h : c.addParameters ps = .ok c') :
    Checked c' := by
  rw [Command.addParameters_eq_ok h]
  exact List.forall_mem_append.2 ⟨hc, hps⟩

theorem addParameter (hc : Checked c) (hp : p.IsOptional ∨ p.NullChecked)
    (h : c.addParameter p = .ok c') : Checked c' := by
  obtain ⟨_, rfl⟩ := Command.addParameter_eq_ok h
  refine List.forall_mem_append.2 ⟨hc, fun q hq => ?_⟩
  rwa [List.mem_singleton.1 hq]

theorem addPath {terminalId : Bool} {segments : List Segment} (hc : Checked c)
    (h : c.addParameters (pathParameters terminalId segments) = .ok c') : Checked c' :=
  hc.addParameters (fun _ hp => .inr (nullChecked_of_mem_pathParameters hp)) h

theorem addSet {set : ParameterSet} (hc : Checked c) (h : c.addSet set = .ok c') : Checked c' := by
  obtain ⟨_, rfl⟩ := Command.addSet_eq_ok h
  exact hc

theorem withOnlySet {set : String} (hc : Checked c) (h : withOnlySet c set = .ok c') :
    Checked c' := by
  obtain ⟨c₁, hadd, h⟩ := Fallible.bind_eq_ok_iff.1 h
  obtain ⟨_, rfl⟩ := Command.setDefault_eq_ok h
  have added : Checked c₁ := hc.addSet hadd
  exact added

theorem identify (hc : Checked c) (id : Option String) (referenceable : Bool) :
    Checked { c with idParameter := id, isReferenceable := referenceable } :=
  hc

theorem summarize (hc : Checked c) (summary : String) : Checked { c with summary := summary } :=
  hc

end Checked

/-- The fields of the body are optional, and so is every other parameter that has no checks. -/
def FieldsOptional (c : Command) : Prop :=
  ∀ p ∈ c.parameters, p.IsOptional ∨ p.location ≠ .body ∧ p.NullChecked

/-- A property changes an optional field or adds one. -/
theorem FieldsOptional.mergeProperty (h : FieldsOptional c) (p : Property) (type : ParameterType)
    (sets : List String) (discriminator : Option String) :
    FieldsOptional (mergeProperty c p type sets discriminator) := by
  rcases mergeProperty_cases c p type sets discriminator with
    ⟨front, q, back, heq, hbody, _, hmerged⟩ | ⟨_, hmerged⟩
  · rw [FieldsOptional, heq, List.forall_mem_append, List.forall_mem_cons] at h
    rw [FieldsOptional, hmerged, List.forall_mem_append, List.forall_mem_cons]
    refine ⟨h.1, .inl ?_, h.2.2⟩
    have optional : q.IsOptional := h.2.1.resolve_right fun hq => hq.1 hbody
    exact optional
  · rw [FieldsOptional, hmerged, List.forall_mem_append, List.forall_mem_singleton]
    exact ⟨h, .inl (Parameter.isOptional_of (by simp [newField, Parameter.inSets])
      (by simp [newField, Parameter.inSets]))⟩

theorem FieldsOptional.mergeEntries {entries : List BodyEntry} (h : FieldsOptional c)
    (hmerge : mergeEntries g c entries = (c', none)) : FieldsOptional c' := by
  induction entries generalizing c with
  | nil =>
    cases hmerge
    exact h
  | cons entry rest ih =>
    unfold Synthesis.mergeEntries at hmerge
    split at hmerge
    · cases hmerge
    rename_i merged hmerged
    refine ih ?_ hmerge
    obtain ⟨p, _, ⟨_, rfl⟩ | ⟨_, type, _, rfl⟩⟩ := mergeEntry_cases hmerged
    · exact h
    · exact h.mergeProperty p type _ _

/-- A body adds switches, which are mandatory, and fields, which are not. -/
theorem checked_of_withBody {base : ClassId} (fields : FieldsOptional c)
    (h : withBody g base c = .ok c') : Checked c' := by
  obtain ⟨_, types, _, entries, merged, _, _, _, _, _, hmerged, rfl⟩ :=
    resolve_eq_ok (resolve_of_withBody h)
  have declared : FieldsOptional (declareTypes base c types).1 := by
    intro p hp
    rcases of_mem_declareTypes hp with hp | ⟨name, set, type, rfl, _⟩
    · exact fields p hp
    · exact .inr ⟨by simp [typeSwitch, Parameter.inSets, Parameter.withDescription],
        nullChecked_typeSwitch name set type⟩
  intro p hp
  rw [(chooseDefault_rest merged _).1] at hp
  exact (declared.mergeEntries hmerged p hp).imp_right And.right

/-- The parameters of a route are no fields. -/
theorem fieldsOptional_of_command (id : Option String) {verb : Verb} {noun url : String}
    {operation : OperationKind} {method : HttpMethod} {terminalId : Bool}
    (hcommand : t.command verb noun operation method url = .ok c)
    (hpath : c.addParameters (pathParameters terminalId t.route.segments) = .ok c') :
    FieldsOptional { c' with idParameter := id } := by
  obtain ⟨_, _, rfl⟩ := Fallible.map_eq_ok_iff.1 hcommand
  obtain rfl := Command.addParameters_eq_ok hpath
  intro p hp
  refine .inr ⟨?_, nullChecked_of_mem_pathParameters hp⟩
  rw [(of_mem_pathParameters hp).1]
  exact ParameterLocation.noConfusion

theorem checked_of_create {target : ClassId} (h : create t target = .ok c) : Checked c := by
  obtain ⟨c₁, hcommand, h⟩ := Fallible.bind_eq_ok_iff.1 h
  obtain ⟨c₂, hpath, h⟩ := Fallible.bind_eq_ok_iff.1 h
  obtain ⟨c₃, hbody, h⟩ := Fallible.bind_eq_ok_iff.1 h
  cases h
  have fields := fieldsOptional_of_command c₂.idParameter hcommand hpath
  exact (checked_of_withBody fields hbody).summarize _

theorem checked_of_update {target : ClassId} (h : update t target = .ok c) : Checked c := by
  obtain ⟨c₁, hcommand, h⟩ := Fallible.bind_eq_ok_iff.1 h
  obtain ⟨c₂, hpath, h⟩ := Fallible.bind_eq_ok_iff.1 h
  obtain ⟨c₃, hbody, h⟩ := Fallible.bind_eq_ok_iff.1 h
  cases h
  exact (checked_of_withBody (fieldsOptional_of_command _ hcommand hpath) hbody).summarize _

theorem checked_of_delete (h : delete t = .ok c) : Checked c := by
  obtain ⟨c₁, hcommand, h⟩ := Fallible.bind_eq_ok_iff.1 h
  obtain ⟨c₂, hpath, h⟩ := Fallible.bind_eq_ok_iff.1 h
  obtain ⟨c₃, hset, h⟩ := Fallible.bind_eq_ok_iff.1 h
  cases h
  have hplaced := (Checked.of_command hcommand).addPath hpath
  exact ((hplaced.identify _ _).withOnlySet hset).summarize _

theorem checked_of_postReference (h : postReference t = .ok c) : Checked c := by
  unfold postReference at h
  dsimp only at h
  obtain ⟨c₁, hcommand, h⟩ := Fallible.bind_eq_ok_iff.1 h
  obtain ⟨c₂, hpath, h⟩ := Fallible.bind_eq_ok_iff.1 h
  obtain ⟨c₃, hset, h⟩ := Fallible.bind_eq_ok_iff.1 h
  obtain ⟨c₄, hreference, h⟩ := Fallible.bind_eq_ok_iff.1 h
  cases h
  have hplaced := ((Checked.of_command hcommand).addPath hpath).withOnlySet hset
  exact (hplaced.addParameter (.inr (nullChecked_referenceUrl _ _)) hreference).summarize _

theorem checked_of_deleteReference (h : deleteReference t = .ok c) : Checked c := by
  unfold deleteReference at h
  obtain ⟨c₁, hcommand, h⟩ := Fallible.bind_eq_ok_iff.1 h
  obtain ⟨c₂, hpath, h⟩ := Fallible.bind_eq_ok_iff.1 h
  obtain ⟨c₃, hset, h⟩ := Fallible.bind_eq_ok_iff.1 h
  have hplaced := ((Checked.of_command hcommand).addPath hpath).withOnlySet hset
  split at h
  · obtain ⟨c₄, hreference, h⟩ := Fallible.bind_eq_ok_iff.1 h
    cases h
    exact (hplaced.addParameter (.inr (nullChecked_referenceUrl _ _)) hreference).summarize _
  · cases h
    exact hplaced.summarize _

theorem Checked.withEntity {isEntity : Bool} (hc : Checked c)
    (h : Synthesis.withEntity t isEntity c = .ok c') : Checked c' := by
  rcases withEntity_eq_ok h with ⟨id, c₁, c₂, _, _, hset, hadd, rfl⟩ | ⟨_, rfl⟩
  · have hgot := (hc.addSet hset).addParameter (.inr (nullChecked_idParameter _ _ _)) hadd
    exact hgot.identify _ _
  · exact hc

theorem Checked.withSearch (hc : Checked c) (h : Synthesis.withSearch c = .ok c') :
    Checked c' := by
  obtain ⟨c₁, hset, h⟩ := Fallible.bind_eq_ok_iff.1 h
  obtain ⟨c₂, hprojection, hcollection⟩ := Fallible.bind_eq_ok_iff.1 h
  have hprojected := (hc.withOnlySet hset).addParameters
    (fun p hp => .inl (isOptional_projectionOptions p hp)) hprojection
  refine hprojected.addParameters (fun p hp => .inl ?_) hcollection
  obtain ⟨option, hoption, rfl⟩ := List.mem_map.1 hp
  exact isOptional_collectionOptions option hoption

theorem checked_of_getOrSearch (h : getOrSearch t = .ok c) : Checked c := by
  obtain ⟨read, stages, rfl⟩ := stages_of_getOrSearch h
  cases stages with
  | collection _ hcommand hpath hidentified hsearch =>
    have hplaced := (Checked.of_command hcommand).addPath hpath
    exact ((hplaced.withEntity hidentified).withSearch hsearch).summarize _
  | single hcommand hpath hset hsub hoptions =>
    have hplaced := ((Checked.of_command hcommand).addPath hpath).withOnlySet hset
    have hread := hplaced.addParameters
      (fun p hp => .inl (isOptional_projectionOptions p (hsub hp))) hoptions
    exact hread.summarize _

/-! ## Arguments of overloads -/

/-- The first declaration decides: its value may not be null, and if it is a text, the others are
of its type. -/
def FirstDecides (g : Graph) (declared : List MethodParameter) : Prop :=
  ∃ q rest type, declared = q :: rest ∧ q.nullable = false ∧
    g.parameterType q.type q.isCollection = .ok type ∧
    (type.isTextual = true → ∀ q' ∈ rest, g.parameterType q'.type q'.isCollection = .ok type)

/-- An argument keeps the checks that its first declaration asks for. -/
theorem Carries.nullChecked_iff {args : List Argument} (h : Carries g args p) :
    p.NullChecked ↔
      FirstDecides g (declarations p.effectiveWireName (args.map (·.declared))) := by
  obtain ⟨q, rest, heq, type, htype, hempty, hnull⟩ := h.checks
  have hcommon := h.type
  rw [heq] at hcommon ⊢
  have first : FirstDecides g (q :: rest) ↔ q.nullable = false ∧ (type.isTextual = true →
      ∀ q' ∈ rest, g.parameterType q'.type q'.isCollection = .ok type) := by
    constructor
    · rintro ⟨q, rest, type', heq, hnullable, htype', hall⟩
      obtain ⟨rfl, rfl⟩ := List.cons.inj heq
      obtain rfl := Except.ok.inj (htype.symm.trans htype')
      exact ⟨hnullable, hall⟩
    · rintro ⟨hnullable, hall⟩
      exact ⟨q, rest, type, rfl, hnullable, htype, hall⟩
  rw [first, Parameter.nullChecked_iff, hempty, hnull]
  rcases hcommon with agree | ⟨hobject, x, hx, y, hy, disagree⟩
  · have hsame : p.type = type :=
      Except.ok.inj ((agree q List.mem_cons_self).symm.trans htype)
    have value : type ≠ .switch := parameterType_ne_switch htype
    have others : ∀ q' ∈ rest, g.parameterType q'.type q'.isCollection = .ok type := by
      intro q' hq'
      rw [← hsame]
      exact agree q' (List.mem_cons_of_mem _ hq')
    rw [hsame]
    cases q.nullable <;> cases type.isTextual <;> simp [value]
    exact others
  · -- An argument that was made a text is not one any more.
    have differ : ¬ ∀ q' ∈ rest, g.parameterType q'.type q'.isCollection = .ok type := by
      intro hall
      have all : ∀ q' ∈ q :: rest, g.parameterType q'.type q'.isCollection = .ok type :=
        List.forall_mem_cons.2 ⟨htype, hall⟩
      exact disagree ((all x hx).trans (all y hy).symm)
    rw [hobject]
    cases q.nullable <;> cases type.isTextual <;> simp [differ, ParameterType.isTextual]

section Invocations

variable {location : ParameterLocation} {set : String}

/-- Parameters at another place are as they were before merging. -/
theorem mem_of_mergeArgument {wire : String} {type : ParameterType} {mandatory : Bool}
    (h : mergeArgument c set location wire type mandatory = .ok c') (hp : p ∈ c'.parameters)
    (elsewhere : p.location ≠ location) : p ∈ c.parameters := by
  unfold mergeArgument at h
  split at h
  · cases h
    rcases Command.mem_modifyFirst hp with hp | ⟨q, _, hq, rfl⟩
    · exact hp
    · exact absurd (shareArgument_location.trans (isArgument_iff.1 hq).1) elsewhere
  · obtain ⟨_, rfl⟩ := Command.addParameter_eq_ok h
    rcases List.mem_append.1 hp with hp | hp
    · exact hp
    · rw [List.mem_singleton.1 hp] at elsewhere
      exact absurd newArgument_location elsewhere

theorem mem_of_mergeArguments {ps : List MethodParameter}
    (h : mergeArguments g set location c ps = .ok c') (hp : p ∈ c'.parameters)
    (elsewhere : p.location ≠ location) : p ∈ c.parameters := by
  induction ps generalizing c with
  | nil =>
    cases h
    exact hp
  | cons q rest ih =>
    unfold mergeArguments at h
    split at h
    · cases h
    split at h
    · cases h
    rename_i merged hmerged
    exact mem_of_mergeArgument hmerged (ih h) elsewhere

theorem mem_of_mergeOverloads {several : Bool} {methods : List Method}
    {candidates : List Selection.Candidate}
    (h : mergeOverloads g several location c methods = .ok (c', candidates))
    (hp : p ∈ c'.parameters) (elsewhere : p.location ≠ location) : p ∈ c.parameters := by
  induction methods generalizing c candidates with
  | nil =>
    cases h
    exact hp
  | cons m rest ih =>
    unfold mergeOverloads at h
    dsimp only at h
    obtain ⟨c₁, hset, h⟩ := Fallible.bind_eq_ok_iff.1 h
    obtain ⟨c₂, harguments, h⟩ := Fallible.bind_eq_ok_iff.1 h
    obtain ⟨⟨c₃, others⟩, hrest, h⟩ := Fallible.bind_eq_ok_iff.1 h
    cases h
    obtain ⟨_, rfl⟩ := Command.addSet_eq_ok hset
    have old := mem_of_mergeArguments harguments (ih hrest) elsewhere
    exact old

/-- A parameter of an invocation that must be given has its checks, unless it is an argument and the
first declaration does not decide. -/
theorem nullChecked_iff_of_invoke {o : Overloads}
    (declared : ∀ m ∈ o.toList, (m.parameters.map (·.name)).Nodup) (h : invoke t o = .ok c)
    (hp : p ∈ c.parameters) (demanded : c.Demanded p) :
    p.NullChecked ↔ (p.location = (invocation o.first.kind).2.2 →
      FirstDecides t.graph
        (declarations p.effectiveWireName (o.toList.flatMap (·.parameters)))) := by
  have outside := invocation_outside o.first.kind
  obtain ⟨_, start, _, merged, candidates, best, chosen, options, _, _, hpath, hmerge, _, hdefault,
    hoptions, _, parameters⟩ := parts_of_invoke h
  obtain ⟨_, rfl⟩ := Command.setDefault_eq_ok hdefault
  rw [parameters, List.mem_append] at hp
  have hp : p ∈ merged.parameters := by
    refine hp.resolve_right fun hoption => ?_
    exact Parameter.not_demanded_of_isOptional
      (isOptional_collectionOptions p (hoptions.subset hoption)) demanded
  by_cases hlocation : p.location = (invocation o.first.kind).2.2
  · have noarguments := argumentParameters_pathParameters outside hpath
    have begun : Merged t.graph (invocation o.first.kind).2.2 [] start :=
      ⟨by simp [argumentNames, noarguments], by simp [noarguments], by simp⟩
    obtain ⟨names, length, _, _, hmerged⟩ :=
      begun.mergeOverloads outside (by simp) declared hmerge
    rw [List.nil_append] at hmerged
    have carries := hmerged.carries p (mem_argumentParameters.2 ⟨hp, hlocation⟩)
    rw [carries.nullChecked_iff, declared_argumentsOf length]
    exact ⟨fun decides _ => decides, fun decides => decides hlocation⟩
  · have hold := mem_of_mergeOverloads hmerge hp hlocation
    rw [hpath] at hold
    exact iff_of_true (nullChecked_of_mem_pathParameters hold) fun hsame => absurd hsame hlocation

/-- A method does not declare two parameters of one name. -/
theorem Target.HasOverloads.declared {o : Overloads} (hb : t.graph.Built) (h : t.HasOverloads o) :
    ∀ m ∈ o.toList, (m.parameters.map (·.name)).Nodup := by
  obtain ⟨_, ids, methods, _, _, hmethods, ho⟩ := h
  intro m hm
  obtain ⟨key, _, heq⟩ := Fallible.exists_of_mem_right (group_eq methods) ho
  rw [heq] at hm
  exact declared_of_mapM hb hmethods m (List.mem_filter.1 hm).1

end Invocations

/-- A command invokes the overloads of a method, or its parameters have their checks. -/
theorem checked_of_makes (h : Makes t c) :
    ¬ c.operation.OnMethod ∧ Checked c ∨
      c.operation.OnMethod ∧ ∃ o, t.HasOverloads o ∧ invoke t o = .ok c := by
  have made := madeBy_of_makes h
  generalize c.operation = op at made ⊢
  cases made with
  | get h => exact .inl ⟨by simp [OperationKind.OnMethod], checked_of_getOrSearch h⟩
  | search h => exact .inl ⟨by simp [OperationKind.OnMethod], checked_of_getOrSearch h⟩
  | post h => exact .inl ⟨by simp [OperationKind.OnMethod], checked_of_create h⟩
  | patch h => exact .inl ⟨by simp [OperationKind.OnMethod], checked_of_update h⟩
  | delete h => exact .inl ⟨by simp [OperationKind.OnMethod], checked_of_delete h⟩
  | postRef h => exact .inl ⟨by simp [OperationKind.OnMethod], checked_of_postReference h⟩
  | deleteRef h => exact .inl ⟨by simp [OperationKind.OnMethod], checked_of_deleteReference h⟩
  | action declared h => exact .inr ⟨.inl rfl, _, declared, h⟩
  | function declared h => exact .inr ⟨.inr rfl, _, declared, h⟩

end Synthesis

/-! ## The commands of a generation -/

namespace Generation

open Schema
open Synthesis (Overloads Target invocation declarations FirstDecides)

variable {g : Graph} {config : Config} {output : Output} {c c' : Command}

/-- The command invokes the overloads of a method, on the resource of a route of the generation. -/
def Invokes (g : Graph) (config : Config) (output : Output) (o : Overloads) (c : Command) : Prop :=
  ∃ route ∈ output.routes, ∃ property made,
    Target.HasOverloads ⟨g, config, route, property⟩ o ∧
      Synthesis.invoke ⟨g, config, route, property⟩ o = .ok made ∧ SameRequest made c

theorem SameRequest.parameters (h : SameRequest c c') : c'.parameters = c.parameters := by
  rw [h]

theorem SameRequest.demanded_iff {p : Parameter} (h : SameRequest c c') :
    c'.Demanded p ↔ c.Demanded p := by
  rw [h]
  exact Iff.rfl

/-- In a command that invokes no method, all parameters that must be given have the checks that
their type needs. In one that does, so have those that are no arguments; an argument has them just
when the first overload that declares it decides. -/
theorem nullChecked_iff_of_run (hb : g.Built) (h : run g config = .ok output) :
    ∀ c ∈ output.commands,
      (¬ c.operation.OnMethod → ∀ p ∈ c.parameters, c.Demanded p → p.NullChecked) ∧
      (c.operation.OnMethod → ∃ o, Invokes g config output o c) ∧
      ∀ o, Invokes g config output o c → ∀ p ∈ c.parameters, c.Demanded p →
        (p.NullChecked ↔ (p.location = (invocation o.first.kind).2.2 →
          FirstDecides g
            (declarations p.effectiveWireName (o.toList.flatMap (·.parameters))))) := by
  obtain ⟨_, _, hcommands⟩ := made_of_run h
  intro c hc
  obtain ⟨n, _, route, hroute, _, cs, hcs, made, hmade, hsame⟩ := hcommands c hc
  obtain ⟨property, _, hmakes⟩ := Synthesis.makes_of_commands hcs
  have hchecked := Synthesis.checked_of_makes (hmakes made hmade)
  have operation : c.operation = made.operation := by rw [hsame]
  rw [operation]
  refine ⟨fun other p hp demanded => ?_, fun hinvokes => ?_, ?_⟩
  · rcases hchecked with ⟨_, checked⟩ | ⟨hinvokes, _⟩
    · rw [hsame.parameters] at hp
      exact (checked p hp).resolve_left fun optional =>
        Parameter.not_demanded_of_isOptional optional demanded
    · exact absurd hinvokes other
  · rcases hchecked with ⟨other, _⟩ | ⟨_, o, declared, hinvoke⟩
    · exact absurd hinvokes other
    · exact ⟨o, route, hroute, property, made, declared, hinvoke, hsame⟩
  · rintro o ⟨route, _, property, made, overloads, hinvoke, hsame⟩ p hp demanded
    rw [hsame.parameters] at hp
    exact Synthesis.nullChecked_iff_of_invoke (overloads.declared hb) hinvoke hp
      (hsame.demanded_iff.1 demanded)

/-- A shop whose item is restocked somewhere, or at a place on a day. -/
def restocking : Document :=
  { namespaceName := "shop"
    container := { name := "Shop", properties := [{ name := "item", typeName := "Item" }] }
    classes := [
      { name := "Item"
        methods := [
          { name := "restock", kind := .action
            parameters := [{ name := "place", typeName := "Edm.String" }] },
          { name := "restock", kind := .action
            parameters := [
              { name := "place", typeName := "Edm.String", nullable := false },
              { name := "day", typeName := "Edm.Int32" }] }] }] }

def restockingGraph : Graph :=
  (Graph.ofDocument restocking).toOption.getD (Graph.empty "shop" "Shop")

def restockingTree : Route.Tree :=
  ⟨(Route.search restockingGraph {} 5 none [] [] 0 [⟨⟨0⟩, none⟩]).getD []⟩

theorem build_restocking : Route.Tree.build restockingGraph {} = .ok restockingTree := by
  have roots : Route.Tree.roots restockingGraph = .ok [⟨"item", ⟨⟨0⟩, none⟩⟩] := by
    decide +kernel
  have found : Route.search restockingGraph {} 5 none [] [] 0
      ((Route.byName [⟨"item", ⟨⟨0⟩, none⟩⟩]).map (·.step)) = some restockingTree.nodes := by
    decide +kernel
  exact Route.build_of_search roots found

theorem restockingGraph_built : restockingGraph.Built := by
  have drawn : Graph.ofDocument restocking = .ok restockingGraph := by decide +kernel
  exact Document.built_of_ofDocument drawn

theorem exists_run_restocking : ∃ output, run restockingGraph {} = .ok output ∧
    output.commands.length = 5 ∧
      ∃ c ∈ output.commands, ∃ p ∈ c.parameters, c.Demanded p ∧ ¬ p.NullChecked := by
  have facts : (run restockingGraph {}).map (fun output =>
      (output.commands.length, decide
        (∃ c ∈ output.commands, ∃ p ∈ c.parameters, c.Demanded p ∧ ¬ p.NullChecked))) =
      .ok (5, true) := by
    unfold run
    rw [build_restocking]
    decide +kernel
  obtain ⟨output, hrun, hfacts⟩ := Fallible.map_eq_ok_iff.1 facts
  obtain ⟨hcount, hfound⟩ := Prod.mk.inj hfacts
  exact ⟨output, hrun, hcount, of_decide_eq_true hfound⟩

theorem nullChecked_of_restocking :
    restockingGraph.Built ∧ ∃ output, run restockingGraph {} = .ok output ∧
      output.commands.length = 5 ∧ ∀ c ∈ output.commands,
        (¬ c.operation.OnMethod → ∀ p ∈ c.parameters, c.Demanded p → p.NullChecked) ∧
        (c.operation.OnMethod → ∃ o, Invokes restockingGraph {} output o c) ∧
        ∀ o, Invokes restockingGraph {} output o c → ∀ p ∈ c.parameters, c.Demanded p →
          (p.NullChecked ↔ (p.location = (invocation o.first.kind).2.2 →
            FirstDecides restockingGraph
              (declarations p.effectiveWireName (o.toList.flatMap (·.parameters))))) := by
  obtain ⟨output, hrun, hcount, _⟩ := exists_run_restocking
  exact ⟨restockingGraph_built, output, hrun, hcount,
    nullChecked_iff_of_run restockingGraph_built hrun⟩

/-- On a day the place must be given, and may be empty or null. -/
theorem not_nullChecked_of_restocking :
    ¬ ∀ (g : Graph) (config : Config) (output : Output), g.Built → run g config = .ok output →
      ∀ c ∈ output.commands, ∀ p ∈ c.parameters, c.Demanded p → p.NullChecked := by
  intro checked
  obtain ⟨output, hrun, _, c, hc, p, hp, demanded, hno⟩ := exists_run_restocking
  exact hno (checked _ _ output restockingGraph_built hrun c hc p hp demanded)

end Generation
end EdmCommands
