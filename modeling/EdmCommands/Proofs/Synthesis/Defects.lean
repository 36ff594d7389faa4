import EdmCommands.Proofs.Faults
import EdmCommands.Proofs.Synthesis.Address
import EdmCommands.Proofs.Synthesis.Hierarchy

/-!
# EdmCommands.Proofs.Synthesis.Defects

What can be wrong with a command of a route. Sets, switches, fields and arguments get names that are
free, and the placeholders of a route differ from each other. What is left are types that nothing
can be sent for, and parameters whose names are fixed: query options, and the address of what is
referred to. A placeholder may be spelled like one of those.

* `Clash`: a placeholder and another parameter of a command have the same name.
* `Defect`, `Stops`: what is wrong with a command; the faults that this makes, and those of the
  schema.
* `getOrSearch_ends` and those behind it: one way to make a command each.
* `commands_ends`: the commands of a route stop with no other faults, and where there is a defect
  they do stop.
-/

namespace EdmCommands
namespace Synthesis

open Schema
open Command (setNames)
open Fallible (Ends)
open Route (Rendered Segment IdPlaceholder placeholderNames)

variable {g : Graph} {t : Target} {c : Command} {f : Fault}

def readOptions (p : Property) : List Parameter :=
  if p.isCollection then projectionOptions ++ collectionOptions
  else
    match p.type with
    | .structured _ => projectionOptions
    | _ => []

/-- Some command on the resource sends values for it. -/
def sendsBody (p : Property) : Bool :=
  !p.isReference && p.allowsCreate || p.allowsUpdate

/-- Some command on the resource takes the address of what is referred to. -/
def takesReference (p : Property) : Bool :=
  p.isReference && (p.allowsReferenceCreate || p.isCollection && p.allowsReferenceDelete)

/-- A placeholder has the name of another parameter of a command on the route. -/
inductive Clash (t : Target) (name : String) : Prop where
  /-- The command that reads has all placeholders of the route. -/
  | option (placeholder : name ∈ placeholderNames t.route.segments)
      (option : name ∈ (readOptions t.property).map (·.name))
  /-- The commands on references have all but the identifier of the last segment. -/
  | reference (placeholder : name ∈ (pathParameters false t.route.segments).map (·.name))
      (takes : takesReference t.property = true) (named : name = t.config.referenceUrl)

inductive Defect (t : Target) : CommandCause → Prop where
  /-- All classes at and below that of the resource are abstract. -/
  | noConcreteType {base : ClassId} {b : StructuredType} (sends : sendsBody t.property = true)
      (type : t.property.type = .structured base) (declared : t.graph.classAt base = .ok b)
      (abstract : ∀ d, t.graph.Within d base → t.graph.isConcrete d = false) :
      Defect t (.noConcreteType b.name)
  | clash {name : String} (h : Clash t name) : Defect t (.duplicateParameter name)

/-- The fault is one of the schema, or says what is wrong with a command on the route. -/
def Stops (t : Target) : Fault → Prop
  | .schema _ _ => True
  | .invalidCommand _ cause => Defect t cause
  | _ => False

/-- The route is one that a tree over a schema has: its placeholders differ from each other, and
what ends in an identifier is a collection of entities. -/
structure Target.Routed (t : Target) : Prop where
  forest : t.graph.Forest
  distinct : (placeholderNames t.route.segments).Nodup
  identified : ∀ b, t.isEntityCollection = .ok b → t.route.terminalId.isSome = true → b = true

/-- No query option is spelled like a placeholder. -/
def Target.OptionsFree (t : Target) : Prop :=
  ∀ name ∈ placeholderNames t.route.segments, name ∉ (readOptions t.property).map (·.name)

/-- The parameter for the address of what is referred to is not spelled like a placeholder. -/
def Target.ReferenceFree (t : Target) : Prop :=
  t.config.referenceUrl ∉ (pathParameters false t.route.segments).map (·.name)

/-- If the resource has a class, something can be sent for it. -/
def Target.HasConcrete (t : Target) : Prop :=
  ∀ base, t.property.type = .structured base → t.graph.concrete base ≠ []

theorem stops_of_isSchema (h : f.IsSchema) : Stops t f := by
  cases f with
  | schema location cause => trivial
  | _ => cases h

theorem ends_of_isSchema {α : Type} {x : Except Fault α}
    (h : ∀ f, x = .error f → f.IsSchema) : Ends x (x = .ok ·) (Stops t) :=
  .of_fault fun f hf => stops_of_isSchema (h f hf)

/-! ## Placeholders -/

theorem mem_placeholderNames_of_none (hid : t.route.terminalId = none) {name : String} :
    name ∈ (pathParameters false t.route.segments).map (·.name) ↔
      name ∈ placeholderNames t.route.segments := by
  have hid : t.route.segments.getLast?.bind (·.id) = none := hid
  rw [mem_placeholderNames_iff, hid]
  simp

theorem command_ends {verb : Verb} {noun url : String} {operation : OperationKind}
    {method : HttpMethod} :
    Ends (t.command verb noun operation method url) (fun c => c.sets = [] ∧ c.parameters = [])
      (Stops t) where
  result c h := by
    obtain ⟨type, _, rfl⟩ := Fallible.map_eq_ok_iff.1 h
    exact ⟨rfl, rfl⟩
  fault f h := stops_of_isSchema (isSchema_of_command h)

theorem pathParameters_ends {terminalId : Bool} (ht : t.Routed) (bare : c.parameters = []) :
    Ends (c.addParameters (pathParameters terminalId t.route.segments))
      (fun c' => c' = { c with parameters := pathParameters terminalId t.route.segments })
      (Stops t) where
  result c' h := by
    rw [Command.addParameters_eq_ok h, bare]
    rfl
  fault f h := by
    -- the placeholders differ from each other, and there is nothing else yet
    have distinct := ht.distinct.sublist (pathParameters_sublist terminalId t.route.segments)
    obtain ⟨name, _, hmem, _⟩ := Command.addParameters_eq_error distinct h
    simp [Command.parameterNames, bare] at hmem

/-! ## What has a free name -/

section Free

variable {E : Fault → Prop}

theorem addSet_ends {set : ParameterSet} (fresh : set.name ∉ c.setNames) :
    Ends (c.addSet set) (· = { c with sets := c.sets ++ [set] }) E where
  result _ h := (Command.addSet_eq_ok h).2
  fault _ h := absurd (Command.addSet_eq_error h) fresh

theorem addParameter_ends {p : Parameter} (fresh : p.name ∉ c.parameterNames) :
    Ends (c.addParameter p) (· = { c with parameters := c.parameters ++ [p] }) E where
  result _ h := (Command.addParameter_eq_ok h).2
  fault _ h := absurd (Command.addParameter_eq_error h).1 fresh

theorem setDefault_ends {name : String} (declared : name ∈ c.setNames) :
    Ends (c.setDefault name) (·.parameters = c.parameters) E where
  result _ h := by rw [(Command.setDefault_eq_ok h).2]
  fault _ h := absurd declared (Command.setDefault_eq_error h)

theorem withOnlySet_ends {set : String} (fresh : set ∉ c.setNames) :
    Ends (withOnlySet c set) (·.parameters = c.parameters) E := by
  refine (addSet_ends fresh).bind fun c₁ hc₁ => ?_
  subst hc₁
  exact setDefault_ends (by simp [setNames])

end Free

/-- How a command begins that has only one set. -/
theorem onlySet_ends {verb : Verb} {noun url set : String} {operation : OperationKind}
    {method : HttpMethod} {rest : Command → Except Fault Command} {Q : Command → Prop}
    (ht : t.Routed)
    (hrest : ∀ c, c.parameters = pathParameters false t.route.segments →
      Ends (rest c) Q (Stops t)) :
    Ends (do
      let c ← t.command verb noun operation method url
      let c ← c.addParameters (pathParameters false t.route.segments)
      let c ← withOnlySet c set
      rest c) Q (Stops t) := by
  refine command_ends.bind fun c₁ ⟨hsets, hbare⟩ => ?_
  refine (pathParameters_ends ht hbare).bind fun c₂ hc₂ => ?_
  subst hc₂
  exact (withOnlySet_ends (by simp [setNames, hsets])).bind hrest

/-! ## The command that reads -/

theorem nodup_options : ((projectionOptions ++ collectionOptions).map (·.name)).Nodup := by
  decide

theorem readOptions_subset (p : Property) :
    (readOptions p).map (·.name) ⊆
      (projectionOptions ++ collectionOptions).map (·.name) := by
  unfold readOptions
  split
  · exact List.Subset.refl _
  · split
    · exact List.map_subset _ (List.subset_append_left _ _)
    · exact List.nil_subset _

theorem addParameters_append (c : Command) (ps qs : List Parameter) :
    c.addParameters (ps ++ qs) = c.addParameters ps >>= (·.addParameters qs) :=
  List.foldlM_append

theorem options_ends {ps : List Parameter}
    (names : ∀ name, name ∈ c.parameterNames ↔ name ∈ placeholderNames t.route.segments)
    (options : ps.map (·.name) = (readOptions t.property).map (·.name))
    (distinct : (ps.map (·.name)).Nodup) :
    Ends (c.addParameters ps) (fun _ => t.OptionsFree) (Stops t) where
  result c' h name hname hoption := by
    rw [← options] at hoption
    exact Command.fresh_of_addParameters h name hoption ((names name).2 hname)
  fault f h := by
    obtain ⟨name, hoption, hmem, rfl⟩ := Command.addParameters_eq_error distinct h
    exact .clash (.option ((names name).1 hmem) (options ▸ hoption))

theorem withSearch_ends (collection : t.property.isCollection = true)
    (fresh : "Search" ∉ c.setNames)
    (names : ∀ name, name ∈ c.parameterNames ↔ name ∈ placeholderNames t.route.segments) :
    Ends (withSearch c) (fun _ => t.OptionsFree) (Stops t) := by
  have options : (projectionOptions ++ collectionOptions.map fun p : Parameter =>
      p.inSets ["Search"]).map (·.name) = (readOptions t.property).map (·.name) := by
    rw [readOptions, if_pos collection]
    rfl
  refine (withOnlySet_ends fresh).bind fun c₁ hc₁ => ?_
  -- the two groups of options are added like one
  rw [← addParameters_append]
  refine options_ends ?_ options ?_
  · intro name
    rw [Command.parameterNames, hc₁]
    exact names name
  · rw [options, readOptions, if_pos collection]
    exact nodup_options

/-- Where entities can be got, the identifier is added by itself, so the options meet all
placeholders of the route. -/
theorem withEntity_ends {isEntity : Bool} (ht : t.Routed)
    (identified : t.route.terminalId.isSome = true → isEntity = true) (bare : c.sets = [])
    (hpath : c.parameters = pathParameters false t.route.segments) :
    Ends (withEntity t isEntity c)
      (fun c' => "Search" ∉ c'.setNames ∧
        ∀ name, name ∈ c'.parameterNames ↔ name ∈ placeholderNames t.route.segments)
      (Stops t) := by
  cases hid : t.route.terminalId with
  | none =>
    have hnone : withEntity t isEntity c = .ok c := by
      unfold withEntity
      rw [hid]
      cases isEntity <;> rfl
    rw [hnone]
    refine .ok ⟨by simp [setNames, bare], fun name => ?_⟩
    rw [Command.parameterNames, hpath]
    exact mem_placeholderNames_of_none hid
  | some id =>
    obtain rfl := identified (by simp [hid])
    unfold withEntity
    rw [hid]
    refine (addSet_ends (by simp [setNames, bare])).bind fun c₁ hc₁ => ?_
    have fresh : id.name ∉ (pathParameters false t.route.segments).map (·.name) :=
      terminalId_not_mem_pathParameters ht.distinct hid
    refine (addParameter_ends (by simpa [hc₁, Command.parameterNames, Parameter.inSets, hpath]
      using fresh)).bind fun c₂ hc₂ => .ok ⟨by simp [hc₂, hc₁, setNames, bare], fun name => ?_⟩
    have last : (∃ i, t.route.segments.getLast?.bind (·.id) = some i ∧ i.name = name) ↔
        id.name = name := by
      have hid : t.route.segments.getLast?.bind (·.id) = some id := hid
      simp [hid]
    rw [mem_placeholderNames_iff, last]
    simp [hc₂, hc₁, Command.parameterNames, Parameter.inSets, hpath, eq_comm]

theorem readCollection_ends (ht : t.Routed) (collection : t.property.isCollection = true) :
    Ends (readCollection t) (fun _ => t.OptionsFree) (Stops t) := by
  refine (ends_of_isSchema fun _ => isSchema_of_isEntityCollection).bind fun isEntity hentity => ?_
  refine command_ends.bind fun c₁ ⟨hsets, hbare⟩ => ?_
  refine (pathParameters_ends ht hbare).bind fun c₂ hc₂ => ?_
  have bare : c₂.sets = [] := by
    rw [hc₂]
    exact hsets
  have hpath : c₂.parameters = pathParameters false t.route.segments := by rw [hc₂]
  exact (withEntity_ends ht (ht.identified isEntity hentity) bare hpath).bind
    fun c₃ ⟨fresh, names⟩ => withSearch_ends collection fresh names

theorem readSingle_ends (ht : t.Routed) (single : ¬ t.property.isCollection = true) :
    Ends (readSingle t) (fun _ => t.OptionsFree) (Stops t) := by
  have hid : t.route.terminalId = none := by
    have identified := ht.identified false (by rw [Target.isEntityCollection, if_neg single])
    cases hid : t.route.terminalId with
    | none => rfl
    | some id => exact absurd (identified (by simp [hid])) Bool.false_ne_true
  refine onlySet_ends ht fun c hc => ?_
  have names : ∀ name, name ∈ c.parameterNames ↔ name ∈ placeholderNames t.route.segments := by
    intro name
    rw [Command.parameterNames, hc]
    exact mem_placeholderNames_of_none hid
  split
  · rename_i htype
    have options : projectionOptions = readOptions t.property := by
      simp [readOptions, single, htype]
    exact options_ends names (by rw [options]) (by decide)
  · rename_i hother
    have options : readOptions t.property = [] := by
      rw [readOptions, if_neg single]
      split
      · rename_i htype
        exact absurd htype (hother _)
      · rfl
    exact .ok fun name _ => by simp [options]

theorem getOrSearch_ends (ht : t.Routed) :
    Ends (getOrSearch t) (fun _ => t.OptionsFree) (Stops t) := by
  unfold getOrSearch
  split
  · rename_i hcollection
    exact (readCollection_ends ht hcollection).map fun _ hfree => hfree
  · rename_i hsingle
    exact (readSingle_ends ht hsingle).map fun _ hfree => hfree

/-! ## The commands that write -/

/-- The body fails for the schema, or because there is no type to send. -/
theorem resolve_eq_error {base : ClassId} (h : (resolve g base c).2 = some f) :
    f.IsSchema ∨ ∃ order b, hierarchy g base = .ok order ∧ concreteTypes g order = .ok [] ∧
      g.classAt base = .ok b ∧ f = c.fault (.noConcreteType b.name) := by
  unfold resolve at h
  split at h
  · grind
  rename_i order horder
  split at h
  · grind
  rename_i types htypes
  dsimp only at h
  split at h
  · rename_i hnone
    split at h
    · grind
    rename_i b hb
    cases h
    cases types with
    | nil => exact .inr ⟨order, b, horder, htypes, hb, rfl⟩
    | cons type rest => cases hnone
  left
  split at h
  · grind
  split at h <;> grind

theorem withBody_ends (ht : t.Routed) (sends : sendsBody t.property = true) {base : ClassId}
    (type : t.property.type = .structured base) :
    Ends (withBody t.graph base c) (fun _ => t.HasConcrete) (Stops t) where
  result c' h := by
    unfold withBody at h
    split at h
    · rename_i done hdone
      obtain ⟨_, types, _, _, _, horder, htypes, hsets, _⟩ := resolve_eq_ok hdone
      intro base' htype hnil
      rw [type] at htype
      cases htype
      rw [concreteTypes_of_hierarchy ht.forest horder htypes, hnil] at hsets
      exact hsets rfl
    · cases h
  fault f h := by
    unfold withBody at h
    split at h
    · cases h
    rename_i fault hresolve
    cases h
    rcases resolve_eq_error (congrArg Prod.snd hresolve) with
      hschema | ⟨order, b, horder, htypes, hb, rfl⟩
    · exact stops_of_isSchema hschema
    have hnil := List.map_eq_nil_iff.1
      (concreteTypes_of_hierarchy ht.forest horder htypes).symm
    exact .noConcreteType sends type hb ((Graph.concrete_eq_nil_iff ht.forest).1 hnil)

theorem create_ends (ht : t.Routed) (sends : sendsBody t.property = true) {base : ClassId}
    (type : t.property.type = .structured base) :
    Ends (create t base) (fun _ => t.HasConcrete) (Stops t) := by
  refine command_ends.bind fun c₁ ⟨_, hbare⟩ => ?_
  refine (pathParameters_ends ht hbare).bind fun c₂ _ => ?_
  exact (withBody_ends ht sends type).bind fun c₃ hsent => .ok hsent

theorem update_ends (ht : t.Routed) (sends : sendsBody t.property = true) {base : ClassId}
    (type : t.property.type = .structured base) :
    Ends (update t base) (fun _ => t.HasConcrete) (Stops t) := by
  refine command_ends.bind fun c₁ ⟨_, hbare⟩ => ?_
  refine (pathParameters_ends ht hbare).bind fun c₂ _ => ?_
  exact (withBody_ends ht sends type).bind fun c₃ hsent => .ok hsent

theorem delete_ends (ht : t.Routed) : Ends (delete t) (fun _ => True) (Stops t) := by
  refine command_ends.bind fun c₁ ⟨hsets, hbare⟩ => ?_
  refine (pathParameters_ends ht hbare).bind fun c₂ hc₂ => ?_
  subst hc₂
  exact (withOnlySet_ends (by simp [setNames, hsets])).bind fun c₃ _ => .ok trivial

/-! ## The commands on references -/

theorem referenceUrl_ends {location : ParameterLocation} {wire : String}
    (takes : takesReference t.property = true)
    (placed : c.parameters = pathParameters false t.route.segments) :
    Ends (c.addParameter (referenceUrl t.config location wire))
      (fun _ => t.ReferenceFree) (Stops t) := by
  have name : (referenceUrl t.config location wire).name = t.config.referenceUrl := by
    simp [referenceUrl]
  rw [Target.ReferenceFree, ← placed, ← name]
  refine ⟨fun c' h => (Command.addParameter_eq_ok h).1, fun f h => ?_⟩
  obtain ⟨hmem, rfl⟩ := Command.addParameter_eq_error h
  exact .clash (.reference (placed ▸ hmem) takes name)

theorem postReference_ends (ht : t.Routed) (takes : takesReference t.property = true) :
    Ends (postReference t) (fun _ => t.ReferenceFree) (Stops t) := by
  unfold postReference
  dsimp only
  refine onlySet_ends ht fun c hc => ?_
  exact (referenceUrl_ends takes hc).bind fun c' hc' => .ok hc'

theorem deleteReference_ends (ht : t.Routed)
    (takes : t.property.isCollection = true → takesReference t.property = true) :
    Ends (deleteReference t) (fun _ => t.property.isCollection = true → t.ReferenceFree)
      (Stops t) := by
  unfold deleteReference
  refine onlySet_ends ht fun c hc => ?_
  split
  · rename_i hcollection
    exact (referenceUrl_ends (takes hcollection) hc).bind fun c' hc' => .ok fun _ => hc'
  · rename_i hsingle
    exact .ok fun hcollection => absurd hcollection hsingle

/-! ## The commands that invoke methods -/

theorem mergeArgument_ne_error {set wire : String} {location : ParameterLocation}
    {type : ParameterType} {mandatory : Bool} :
    mergeArgument c set location wire type mandatory ≠ .error f := by
  intro h
  unfold mergeArgument at h
  split at h
  · cases h
  dsimp only at h
  refine fieldName_not_mem c wire "Parameter" ?_
  have hmem := (Command.addParameter_eq_error h).1
  split at hmem <;> simpa [Parameter.inSets] using hmem

theorem isSchema_of_mergeArguments {set : String} {location : ParameterLocation}
    {ps : List MethodParameter} (h : mergeArguments g set location c ps = .error f) :
    f.IsSchema := by
  induction ps generalizing c with
  | nil => cases h
  | cons p rest ih =>
    unfold mergeArguments at h
    split at h
    · grind
    split at h
    · rename_i herror
      exact absurd herror mergeArgument_ne_error
    · exact ih h

theorem isSchema_of_mergeOverloads {several : Bool} {location : ParameterLocation}
    {methods : List Method} (free : several = true ∨ c.sets = [] ∧ methods.length ≤ 1)
    (h : mergeOverloads g several location c methods = .error f) : f.IsSchema := by
  induction methods generalizing c with
  | nil => cases h
  | cons m rest ih =>
    unfold mergeOverloads at h
    dsimp only at h
    rcases Fallible.bind_eq_error_iff.1 h with h | ⟨c₁, _, h⟩
    · -- among several the name of the set is a free one, and a single one has the first set
      have hmem := Command.addSet_eq_error h
      rcases free with rfl | ⟨hsets, _⟩
      · exact absurd hmem (Naming.freshName_not_mem _ _)
      · simp [setNames, hsets] at hmem
    rcases Fallible.bind_eq_error_iff.1 h with h | ⟨c₂, _, h⟩
    · exact isSchema_of_mergeArguments h
    rcases Fallible.bind_eq_error_iff.1 h with h | ⟨_, _, h⟩
    · rcases free with hseveral | ⟨_, hlength⟩
      · exact ih (.inl hseveral) h
      · have : rest = [] := List.length_eq_zero_iff.1 (by simpa using hlength)
        subst this
        cases h
    · cases h

theorem addMissingOptions_ends {options : List Parameter} {E : Fault → Prop} :
    Ends (addMissingOptions c options) (fun _ => True) E := by
  induction options generalizing c with
  | nil => exact .ok trivial
  | cons p rest ih =>
    unfold addMissingOptions
    split
    · exact ih
    rename_i hfree
    split
    · rename_i herror
      have hfresh := Command.parameter?_eq_none_iff.1 (by simpa using hfree)
      exact absurd (Command.addParameter_eq_error herror).1 hfresh
    · exact ih

theorem withOverloads_ends {o : Overloads} (bare : c.sets = []) :
    Ends (withOverloads g o c) (fun _ => True) (Stops t) := by
  have free : (!o.others.isEmpty) = true ∨ c.sets = [] ∧ o.toList.length ≤ 1 := by
    cases hothers : o.others with
    | nil => exact .inr ⟨bare, by simp [Overloads.toList, hothers]⟩
    | cons m rest => exact .inl rfl
  refine (ends_of_isSchema fun _ => isSchema_of_mergeOverloads free).bind fun merged hmerge => ?_
  obtain ⟨c₁, candidates⟩ := merged
  obtain ⟨best, hbest⟩ := exists_default_of_overloads hmerge
  have declared : best.name ∈ c₁.setNames :=
    (mergeOverloads_grows (invocation_outside o.first.kind) hmerge).2.1 best
      (Selection.mem_of_selectDefault hbest)
  simp only [hbest]
  exact ⟨fun _ _ => trivial, (setDefault_ends declared).fault⟩

theorem invoke_ends (ht : t.Routed) {o : Overloads} :
    Ends (invoke t o) (fun _ => True) (Stops t) := by
  unfold invoke
  dsimp only
  split
  · generalize (!o.first.boundToCollection && t.property.isCollection) = onItem
    refine command_ends.bind fun c₁ ⟨hsets, hbare⟩ => ?_
    refine (ends_of_isSchema fun _ => isSchema_of_resultType).bind fun type _ => ?_
    generalize hdescribed : ({ c₁ with
      resourceType := type, description := o.first.description } : Command) = c₂
    have hbare : c₂.parameters = [] := by
      rw [← hdescribed]
      exact hbare
    refine (pathParameters_ends ht hbare).bind fun c₃ hc₃ => ?_
    refine (withOverloads_ends ?_).bind fun c₄ _ => ?_
    · rw [hc₃, ← hdescribed]
      split <;> exact hsets
    refine Ends.bind (?_ : Ends _ (fun _ => True) _) fun c₅ _ => .ok trivial
    unfold withResultOptions
    split
    · exact addMissingOptions_ends
    · exact .ok trivial
  · refine (ends_of_isSchema fun _ => Graph.isSchema_of_typeName).bind fun name _ => ?_
    refine Ends.error ?_
    trivial

/-! ## The commands of a route -/

theorem creation_ends (ht : t.Routed) :
    Ends (creation t)
      (fun _ =>
        (t.property.isReference = true → t.property.allowsReferenceCreate = true →
          t.ReferenceFree) ∧
        (t.property.isReference = false → t.property.allowsCreate = true → t.HasConcrete))
      (Stops t) := by
  unfold creation
  split
  · rename_i hreference
    split
    · rename_i hallowed
      have takes : takesReference t.property = true := by
        simp [takesReference, hreference, hallowed]
      exact (postReference_ends ht takes).map fun c hfree =>
        ⟨fun _ _ => hfree, by simp [hreference]⟩
    · rename_i hforbidden
      exact .ok ⟨fun _ hallowed => absurd hallowed hforbidden, by simp [hreference]⟩
  · rename_i howned
    split
    · rename_i target htype
      split
      · rename_i hallowed
        have sends : sendsBody t.property = true := by
          simp [sendsBody, howned, hallowed]
        exact (create_ends ht sends htype).map fun c hsent => ⟨by simp [howned], fun _ _ => hsent⟩
      · rename_i hforbidden
        exact .ok ⟨by simp [howned], fun _ hallowed => absurd hallowed hforbidden⟩
    · rename_i hother
      exact .ok ⟨by simp [howned], fun _ _ base htype => absurd htype (hother base)⟩

theorem updating_ends (ht : t.Routed) :
    Ends (updating t) (fun _ => t.property.allowsUpdate = true → t.HasConcrete) (Stops t) := by
  unfold updating
  split
  · rename_i target htype
    split
    · rename_i hallowed
      have sends : sendsBody t.property = true := by simp [sendsBody, hallowed]
      exact (update_ends ht sends htype).map fun c hsent _ => hsent
    · rename_i hforbidden
      exact .ok fun hallowed => absurd hallowed hforbidden
  · rename_i hother
    exact .ok fun _ base htype => absurd htype (hother base)

theorem deletion_ends (ht : t.Routed) :
    Ends (deletion t)
      (fun _ => t.property.isReference = true → t.property.isCollection = true →
        t.property.allowsReferenceDelete = true → t.ReferenceFree)
      (Stops t) := by
  unfold deletion
  split
  · rename_i hreference
    split
    · rename_i hallowed
      have takes : t.property.isCollection = true → takesReference t.property = true := by
        intro hcollection
        simp [takesReference, hreference, hallowed, hcollection]
      exact (deleteReference_ends ht takes).map fun c hfree _ hcollection _ => hfree hcollection
    · rename_i hforbidden
      exact .ok fun _ _ hallowed => absurd hallowed hforbidden
  · rename_i howned
    split
    · exact (delete_ends ht).map fun c _ hreference => absurd hreference howned
    · exact .ok fun hreference => absurd hreference howned

theorem methodCommands_ends (ht : t.Routed) :
    Ends (methodCommands t) (fun _ => True) (Stops t) := by
  unfold methodCommands
  split
  · refine (ends_of_isSchema fun _ => Graph.isSchema_of_allMethods).bind fun ids _ => ?_
    refine Ends.bind (ends_of_isSchema fun f h => ?_) fun methods _ => ?_
    · obtain ⟨id, _, herror⟩ := Fallible.exists_error_of_mapM_eq_error h
      exact Graph.isSchema_of_methodAt herror
    refine (ends_of_isSchema fun _ => isSchema_of_isEntityCollection).bind fun isEntity _ => ?_
    refine ⟨fun _ _ => trivial, fun f h => ?_⟩
    obtain ⟨o, _, herror⟩ := Fallible.exists_error_of_mapM_eq_error h
    exact (invoke_ends ht).fault f herror
  · exact .ok trivial

/-- The commands of a route are all made, and then they have no defect, or something is wrong with
the schema or with one of them. -/
theorem commands_ends {id : PropertyId} (hp : t.graph.propertyAt id = .ok t.property)
    (ht : t.Routed) :
    Ends (commands t.graph t.config t.route id) (fun _ => ∀ cause, ¬ Defect t cause)
      (Stops t) := by
  unfold commands
  rw [hp]
  change Ends (getOrSearch t >>= _) _ _
  refine (getOrSearch_ends ht).bind fun read hread => ?_
  refine (creation_ends ht).bind fun created hcreated => ?_
  refine (updating_ends ht).bind fun updated hupdated => ?_
  refine (deletion_ends ht).bind fun deleted hdeleted => ?_
  refine (methodCommands_ends ht).bind fun invoked _ => .ok fun cause hdefect => ?_
  cases hdefect with
  | noConcreteType sends type _ abstract =>
    have hsent : t.HasConcrete := by
      simp only [sendsBody, Bool.or_eq_true, Bool.and_eq_true, Bool.not_eq_true'] at sends
      rcases sends with ⟨howned, hallowed⟩ | hallowed
      · exact hcreated.2 howned hallowed
      · exact hupdated hallowed
    exact hsent _ type ((Graph.concrete_eq_nil_iff ht.forest).2 abstract)
  | clash h =>
    rcases h with ⟨placeholder, option⟩ | ⟨placeholder, takes, rfl⟩
    · exact hread _ placeholder option
    · simp only [takesReference, Bool.and_eq_true, Bool.or_eq_true] at takes
      obtain ⟨hreference, hallowed | ⟨hcollection, hallowed⟩⟩ := takes
      · exact hcreated.1 hreference hallowed placeholder
      · exact hdeleted hreference hcollection hallowed placeholder

end Synthesis
end EdmCommands
