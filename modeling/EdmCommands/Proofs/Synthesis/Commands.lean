import EdmCommands.Generation
import EdmCommands.Proofs.Schema.Operations
import EdmCommands.Proofs.Synthesis.Methods

/-!
# EdmCommands.Proofs.Synthesis.Commands

One statement for all commands of a route: they obey the rules of the command model, and the
parameters of their address are made from the same placeholders as the address.

* `addressParameters`, `addressId`: the parameters of an address, by how the identifier of the last
  segment is written.
* `Addressed`: the address of a command and its parameters belong together.
* `Placed`, `Made`: a command that is addressed and keeps the rules so far; one that is finished
  and obeys them. There is one lemma for each way to make one.
* `Makes`, `makes_of_commands`: the ways to make a command on a route, and that there are no others.
* `made_of_commands`: all commands of a route obey the rules.
* `commands_valid`: so the check of the rules never fails after synthesis.
-/

namespace EdmCommands
namespace Synthesis

open Schema
open Route (Rendered Segment IdPlaceholder TypecastPlaceholder TerminalId)

variable {g : Graph} {config : Config} {t : Target} {c c' : Command}

/-! ## Parameters of an address -/

/-- The parameters of an address, by how the identifier of the last segment is written. -/
def addressParameters (t : Target) : TerminalId → List Parameter
  | .omitted => pathParameters false t.route.segments
  | .mandatory => pathParameters true t.route.segments
  | .optional =>
    pathParameters false t.route.segments ++
      (t.route.terminalId.map fun id => (idParameter t.name id).inSets ["Get"]).toList

/-- The name of the identifier of the last segment, if the address has it. -/
def addressId (t : Target) : TerminalId → Option String
  | .omitted => none
  | _ => t.route.terminalId.map (·.name)

/-- The address of a command on a route, with a tail behind the segments. -/
structure Addressed (t : Target) (id : TerminalId) (tail : String) (c : Command) : Prop where
  url : c.urlTemplate = t.route.urlTemplate id ++ tail
  route : c.route = t.route.text
  path : c.pathParameters = addressParameters t id
  id : c.idParameter = addressId t id

/-- A command that has its address and keeps the rules so far. -/
structure Placed (t : Target) (id : TerminalId) (tail : String) (c : Command) : Prop where
  coherent : c.Coherent
  addressed : Addressed t id tail c

/-- A command that obeys the rules and has an address on the route. Where the identifier may stay
empty, the default is to search. -/
structure Made (t : Target) (id : TerminalId) (tail : String) (c : Command) : Prop where
  valid : c.Valid
  addressed : Addressed t id tail c
  searched : id = .optional → ∀ s ∈ c.sets, s.isDefault = true → s.name = "Search"

@[simp] theorem idParameter_name (segment : String) (id : IdPlaceholder) :
    (idParameter segment id).name = id.name := by
  simp [idParameter]

@[simp] theorem typecastParameter_name (segment : String) (cast : TypecastPlaceholder) :
    (typecastParameter segment cast).name = cast.name := by
  simp [typecastParameter]

/-- What the parameters of placeholders have in common. -/
theorem of_mem_pathParameters {terminalId : Bool} {segments : List Segment} {p : Parameter}
    (h : p ∈ pathParameters terminalId segments) :
    p.location = .path ∧ p.membership = .all ∧ p.mandatory = true := by
  induction segments with
  | nil => cases h
  | cons s rest ih =>
    simp only [pathParameters, List.mem_append, Option.mem_toList,
      Option.map_eq_some_iff] at h
    rcases h with (⟨id, _, rfl⟩ | ⟨cast, _, rfl⟩) | h
    · simp [idParameter]
    · simp [typecastParameter]
    · exact ih h

theorem filter_pathParameters (terminalId : Bool) (segments : List Segment) :
    (pathParameters terminalId segments).filter (·.location == .path) =
      pathParameters terminalId segments :=
  List.filter_eq_self.2 fun p hp => by simp [(of_mem_pathParameters hp).1]

/-- The identifier of the last segment has a parameter. -/
theorem terminalId_mem_pathParameters {segments : List Segment} {id : IdPlaceholder}
    (h : segments.getLast?.bind (·.id) = some id) :
    id.name ∈ (pathParameters true segments).map (·.name) := by
  induction segments with
  | nil => cases h
  | cons s rest ih =>
    simp only [pathParameters, List.map_append, List.mem_append]
    cases rest with
    | nil =>
      left
      left
      have hid : s.id = some id := h
      simp [hid]
    | cons s' rest =>
      right
      exact ih (by simpa using h)

theorem Addressed.id_mem_pathParameters {id : TerminalId} {tail : String}
    (h : Addressed t id tail c) {name : String} (hname : c.idParameter = some name) :
    name ∈ c.pathParameters.map (·.name) := by
  rw [h.id] at hname
  rw [h.path]
  cases id with
  | omitted => cases hname
  | mandatory =>
    obtain ⟨id, hid, rfl⟩ := Option.map_eq_some_iff.1 hname
    exact terminalId_mem_pathParameters hid
  | optional =>
    obtain ⟨id, hid, rfl⟩ := Option.map_eq_some_iff.1 hname
    simp [addressParameters, hid, Parameter.inSets]

theorem Addressed.declaredId {id : TerminalId} {tail : String} (h : Addressed t id tail c) :
    ∀ name, c.idParameter = some name → name ∈ c.parameterNames := by
  intro name hname
  obtain ⟨p, hp, rfl⟩ := List.mem_map.1 (h.id_mem_pathParameters hname)
  exact List.mem_map.2 ⟨p, (List.mem_filter.1 hp).1, rfl⟩

/-! ## Making a command -/

/-- A command that has an address so far and neither sets nor other parameters. -/
structure Begun (t : Target) (id : TerminalId) (tail : String) (c : Command) : Prop where
  url : c.urlTemplate = t.route.urlTemplate id ++ tail
  route : c.route = t.route.text
  sets : c.sets = []
  parameters : c.parameters = []
  id : c.idParameter = none

theorem begun_of_command {verb : Verb} {noun url tail : String} {operation : OperationKind}
    {method : HttpMethod} {id : TerminalId} (h : t.command verb noun operation method url = .ok c)
    (hurl : url = t.route.urlTemplate id ++ tail) : Begun t id tail c := by
  obtain ⟨type, _, rfl⟩ := Fallible.map_eq_ok_iff.1 h
  exact ⟨hurl, rfl, rfl, rfl, rfl⟩

theorem addParameters_grows {ps : List Parameter} (outside : ∀ p ∈ ps, p.location ≠ .path)
    (fits : ∀ p ∈ ps, p.FitsIn c.setNames) (h : c.addParameters ps = .ok c') :
    Grows c c' ∧ c'.sets = c.sets := by
  have heq := Command.addParameters_eq_ok h
  refine ⟨⟨?_, fun hc => hc.addParameters fits h⟩, by rw [heq]⟩
  rw [heq]
  refine ⟨rfl, List.prefix_rfl, ?_, ?_⟩
  · simp [Command.parameterNames]
  · have none_added : ps.filter (·.location == .path) = [] :=
      List.filter_eq_nil_iff.2 fun p hp => by simpa using outside p hp
    rw [Command.pathParameters, List.filter_append, none_added, List.append_nil]
    rfl

theorem withOnlySet_grows {set : String} (h : withOnlySet c set = .ok c') :
    (Grows c c' ∧ (c.Coherent → c'.sets.countP (·.isDefault) = 1)) ∧ set ∈ c'.setNames ∧
      ∀ s ∈ c'.sets, s.isDefault = true → s.name = set := by
  obtain ⟨c₁, hadd, h⟩ := Fallible.bind_eq_ok_iff.1 h
  obtain ⟨hfresh, rfl⟩ := Command.addSet_eq_ok hadd
  obtain ⟨hdeclared, rfl⟩ := Command.setDefault_eq_ok h
  have first : Grows c { c with sets := c.sets ++ [{ name := set }] } :=
    ⟨.addSet c _, fun hc => hc.addSet hfresh⟩
  have second := Command.Extends.setDefault { c with sets := c.sets ++ [{ name := set }] } set
  refine ⟨⟨⟨first.extended.trans second, fun hc => ?_⟩, fun hc => ?_⟩, ?_, ?_⟩
  · exact ((first.coherent hc).setDefault hdeclared).1
  · exact ((first.coherent hc).setDefault hdeclared).2
  · exact second.sets.subset (by simp [Command.setNames])
  · intro s hs hdefault
    obtain ⟨s', _, rfl⟩ := List.mem_map.1 hs
    exact beq_iff_eq.1 hdefault

theorem Begun.coherent {id : TerminalId} {tail : String} (h : Begun t id tail c) : c.Coherent := by
  refine ⟨?_, ?_, ?_⟩
  · simp [Command.setNames, h.sets]
  · simp [Command.parameterNames, h.parameters]
  · simp [h.parameters]

/-- The parameters of the placeholders are the first of the command. -/
theorem pathParameters_of_begun {id : TerminalId} {tail : String} {terminalId : Bool}
    (hbegun : Begun t id tail c)
    (h : c.addParameters (pathParameters terminalId t.route.segments) = .ok c') :
    c'.Coherent ∧ c' = { c with parameters := pathParameters terminalId t.route.segments } ∧
      c'.pathParameters = pathParameters terminalId t.route.segments := by
  have heq := Command.addParameters_eq_ok h
  rw [hbegun.parameters, List.nil_append] at heq
  refine ⟨hbegun.coherent.addParameters (fun p hp => ?_) h, heq, ?_⟩
  · exact .of_all (of_mem_pathParameters hp).2.1
  · rw [heq]
    exact filter_pathParameters terminalId t.route.segments

theorem Begun.placed_omitted {tail : String} (hbegun : Begun t .omitted tail c)
    (h : c.addParameters (pathParameters false t.route.segments) = .ok c') :
    Placed t .omitted tail c' := by
  obtain ⟨hcoherent, heq, hpath⟩ := pathParameters_of_begun hbegun h
  refine ⟨hcoherent, ?_, ?_, hpath, ?_⟩
  · rw [heq]
    exact hbegun.url
  · rw [heq]
    exact hbegun.route
  · rw [heq]
    exact hbegun.id

theorem Begun.placed_mandatory {tail : String} (hbegun : Begun t .mandatory tail c)
    (h : c.addParameters (pathParameters true t.route.segments) = .ok c') :
    Placed t .mandatory tail { c' with idParameter := t.route.terminalId.map (·.name) } := by
  obtain ⟨hcoherent, heq, hpath⟩ := pathParameters_of_begun hbegun h
  refine ⟨⟨hcoherent.sets, hcoherent.names, hcoherent.fits⟩, ?_, ?_, hpath, rfl⟩
  · rw [heq]
    exact hbegun.url
  · rw [heq]
    exact hbegun.route

/-- Without an identifier in the last segment, none is left out. -/
theorem Begun.placed_optional_of_none {tail : String} (hbegun : Begun t .optional tail c)
    (hid : t.route.terminalId = none)
    (h : c.addParameters (pathParameters false t.route.segments) = .ok c') :
    Placed t .optional tail c' := by
  obtain ⟨hcoherent, heq, hpath⟩ := pathParameters_of_begun hbegun h
  refine ⟨hcoherent, ?_, ?_, ?_, ?_⟩
  · rw [heq]
    exact hbegun.url
  · rw [heq]
    exact hbegun.route
  · simp [addressParameters, hid, hpath]
  · rw [heq]
    simp [addressId, hid, hbegun.id]

/-- The identifier of the last segment is a parameter of the set that gets one entity. -/
theorem Begun.placed_optional {id : IdPlaceholder} {tail : String} {c₁ c₂ c₃ : Command}
    {referenceable : Bool} (hbegun : Begun t .optional tail c) (hid : t.route.terminalId = some id)
    (hpath : c.addParameters (pathParameters false t.route.segments) = .ok c₁)
    (hset : c₁.addSet { name := "Get" } = .ok c₂)
    (hadd : c₂.addParameter ((idParameter t.name id).inSets ["Get"]) = .ok c₃) :
    Placed t .optional tail
      { c₃ with idParameter := some id.name, isReferenceable := referenceable } := by
  obtain ⟨hcoherent, heq, hparameters⟩ := pathParameters_of_begun hbegun hpath
  obtain ⟨hfreshSet, rfl⟩ := Command.addSet_eq_ok hset
  obtain ⟨hfresh, rfl⟩ := Command.addParameter_eq_ok hadd
  have location : ((idParameter t.name id).inSets ["Get"]).location = .path := by
    simp [idParameter, Parameter.inSets]
  have fits : ((idParameter t.name id).inSets ["Get"]).FitsIn
      (Command.setNames { c₁ with sets := c₁.sets ++ [{ name := "Get" }] }) := by
    have nonempty : ["Get"] ≠ [] := by simp
    refine .of_only rfl ?_ nonempty ?_
    · simp [idParameter, Parameter.inSets]
    · simp [Command.setNames]
  have hcoherent := (hcoherent.addSet hfreshSet).addParameter hfresh fits
  refine ⟨⟨hcoherent.sets, hcoherent.names, hcoherent.fits⟩, ?_, ?_, ?_, ?_⟩
  · rw [heq]
    exact hbegun.url
  · rw [heq]
    exact hbegun.route
  · rw [addressParameters, hid, ← hparameters, Command.pathParameters, List.filter_append]
    simp only [List.filter_cons, location, beq_self_eq_true, if_true, List.filter_nil]
    rfl
  · simp [addressId, hid]

theorem Addressed.of_grows {id : TerminalId} {tail : String} (h : Addressed t id tail c)
    (grows : Grows c c') : Addressed t id tail c' := by
  obtain ⟨hrest, _, _, hpath⟩ := grows.extended
  refine ⟨?_, ?_, hpath.trans h.path, ?_⟩
  · rw [hrest]
    exact h.url
  · rw [hrest]
    exact h.route
  · rw [hrest]
    exact h.id

/-- A command that has its address is finished by steps that make one set the default, whatever
its summary. -/
theorem Placed.made {id : TerminalId} {tail summary : String} (h : Placed t id tail c)
    (steps : Grows c c' ∧ (c.Coherent → c'.sets.countP (·.isDefault) = 1))
    (searched : id = .optional → ∀ s ∈ c'.sets, s.isDefault = true → s.name = "Search") :
    Made t id tail { c' with summary := summary } := by
  obtain ⟨grows, one⟩ := steps
  have coherent := grows.coherent h.coherent
  have one := one h.coherent
  have addressed := h.addressed.of_grows grows
  refine ⟨⟨⟨coherent.sets, coherent.names, coherent.fits⟩, ?_, one, addressed.declaredId⟩,
    ⟨addressed.url, addressed.route, addressed.path, addressed.id⟩, searched⟩
  intro hnil
  have : c'.sets = [] := hnil
  simp [this] at one

/-- Steps that leave the sets alone can follow. -/
theorem one_default_of_same_sets {c₁ c₂ c₃ : Command}
    (h : Grows c₁ c₂ ∧ (c₁.Coherent → c₂.sets.countP (·.isDefault) = 1))
    (then_same : Grows c₂ c₃ ∧ c₃.sets = c₂.sets) :
    Grows c₁ c₃ ∧ (c₁.Coherent → c₃.sets.countP (·.isDefault) = 1) := by
  refine ⟨h.1.trans then_same.1, ?_⟩
  rw [then_same.2]
  exact h.2

/-! ## The commands on the resource -/

theorem made_of_create {target : ClassId} (h : create t target = .ok c) :
    Made t .omitted "" c := by
  obtain ⟨c₁, hcommand, h⟩ := Fallible.bind_eq_ok_iff.1 h
  obtain ⟨c₂, hpath, h⟩ := Fallible.bind_eq_ok_iff.1 h
  obtain ⟨c₃, hbody, h⟩ := Fallible.bind_eq_ok_iff.1 h
  cases h
  have hbegun := begun_of_command hcommand String.append_empty.symm
  exact (hbegun.placed_omitted hpath).made (withBody_grows hbody) nofun

theorem made_of_update {target : ClassId} (h : update t target = .ok c) :
    Made t .mandatory "" c := by
  obtain ⟨c₁, hcommand, h⟩ := Fallible.bind_eq_ok_iff.1 h
  obtain ⟨c₂, hpath, h⟩ := Fallible.bind_eq_ok_iff.1 h
  obtain ⟨c₃, hbody, h⟩ := Fallible.bind_eq_ok_iff.1 h
  cases h
  have hbegun := begun_of_command hcommand String.append_empty.symm
  exact (hbegun.placed_mandatory hpath).made (withBody_grows hbody) nofun

theorem made_of_delete (h : delete t = .ok c) : Made t .mandatory "" c := by
  obtain ⟨c₁, hcommand, h⟩ := Fallible.bind_eq_ok_iff.1 h
  obtain ⟨c₂, hpath, h⟩ := Fallible.bind_eq_ok_iff.1 h
  obtain ⟨c₃, hset, h⟩ := Fallible.bind_eq_ok_iff.1 h
  cases h
  have hbegun := begun_of_command hcommand String.append_empty.symm
  obtain ⟨hset, _⟩ := withOnlySet_grows hset
  exact (hbegun.placed_mandatory hpath).made hset nofun

theorem addReferenceUrl_grows {location : ParameterLocation} {wire : String}
    (outside : location ≠ .path) (h : c.addParameter (referenceUrl config location wire) = .ok c') :
    Grows c c' ∧ c'.sets = c.sets := by
  obtain ⟨hfresh, rfl⟩ := Command.addParameter_eq_ok h
  refine ⟨⟨.addParameter c ?_, fun hc => hc.addParameter hfresh (.of_all ?_)⟩, rfl⟩
  · simpa [referenceUrl] using outside
  · simp [referenceUrl]

theorem made_of_postReference (h : postReference t = .ok c) : Made t .omitted "/$ref" c := by
  unfold postReference at h
  dsimp only at h
  obtain ⟨c₁, hcommand, h⟩ := Fallible.bind_eq_ok_iff.1 h
  obtain ⟨c₂, hpath, h⟩ := Fallible.bind_eq_ok_iff.1 h
  obtain ⟨c₃, hset, h⟩ := Fallible.bind_eq_ok_iff.1 h
  obtain ⟨c₄, hreference, h⟩ := Fallible.bind_eq_ok_iff.1 h
  cases h
  obtain ⟨hset, _⟩ := withOnlySet_grows hset
  exact ((begun_of_command hcommand rfl).placed_omitted hpath).made
    (one_default_of_same_sets hset (addReferenceUrl_grows (by simp) hreference)) nofun

theorem made_of_deleteReference (h : deleteReference t = .ok c) : Made t .omitted "/$ref" c := by
  unfold deleteReference at h
  obtain ⟨c₁, hcommand, h⟩ := Fallible.bind_eq_ok_iff.1 h
  obtain ⟨c₂, hpath, h⟩ := Fallible.bind_eq_ok_iff.1 h
  obtain ⟨c₃, hset, h⟩ := Fallible.bind_eq_ok_iff.1 h
  obtain ⟨hset, _⟩ := withOnlySet_grows hset
  have hplaced := (begun_of_command hcommand rfl).placed_omitted hpath
  split at h
  · obtain ⟨c₄, hreference, h⟩ := Fallible.bind_eq_ok_iff.1 h
    cases h
    exact hplaced.made
      (one_default_of_same_sets hset (addReferenceUrl_grows (by simp) hreference)) nofun
  · cases h
    exact hplaced.made hset nofun

theorem projectionOptions_grows {options : List Parameter} (hsub : options ⊆ projectionOptions)
    (h : c.addParameters options = .ok c') : Grows c c' ∧ c'.sets = c.sets := by
  have fits : ∀ p ∈ projectionOptions, p.location ≠ .path ∧ p.membership = .all := by
    simp [projectionOptions, queryOption]
  exact addParameters_grows (fun p hp => (fits p (hsub hp)).1)
    (fun p hp => .of_all (fits p (hsub hp)).2) h

theorem collectionOptions_grows {set : String} (declared : set ∈ c.setNames)
    (h : c.addParameters (collectionOptions.map fun p => p.inSets [set]) = .ok c') :
    Grows c c' ∧ c'.sets = c.sets := by
  refine addParameters_grows ?_ ?_ h
  · simp [collectionOptions, queryOption, Parameter.inSets]
  · intro p hp
    obtain ⟨option, hoption, rfl⟩ := List.mem_map.1 hp
    have nonempty : [set] ≠ [] := by simp
    refine .of_only rfl ?_ nonempty (by simpa using declared)
    revert option
    simp [collectionOptions, queryOption, Parameter.inSets]

theorem withEntity_eq_ok {isEntity : Bool} (h : withEntity t isEntity c = .ok c') :
    (∃ id c₁ c₂, isEntity = true ∧ t.route.terminalId = some id ∧
      c.addSet { name := "Get" } = .ok c₁ ∧
      c₁.addParameter ((idParameter t.name id).inSets ["Get"]) = .ok c₂ ∧
      c' = { c₂ with idParameter := some id.name, isReferenceable := t.route.isTopLevel }) ∨
    (isEntity = true → t.route.terminalId = none) ∧ c' = c := by
  unfold withEntity at h
  split at h
  · rename_i id hid
    obtain ⟨c₁, hset, h⟩ := Fallible.bind_eq_ok_iff.1 h
    obtain ⟨c₂, hadd, h⟩ := Fallible.bind_eq_ok_iff.1 h
    cases h
    exact .inl ⟨id, c₁, c₂, rfl, hid, hset, hadd, rfl⟩
  · rename_i hnone
    cases h
    exact .inr ⟨fun hentity => Option.eq_none_iff_forall_ne_some.2 (hnone · hentity), rfl⟩

/-- How a command that reads is made, up to its summary. -/
inductive ReadStages (t : Target) : Command → Prop where
  | collection {isEntity : Bool} {start placed entity c : Command}
      (hentity : t.isEntityCollection = .ok isEntity)
      (hcommand : t.command .get t.noun .search .get
        (t.route.urlTemplate (if isEntity then .optional else .omitted)) = .ok start)
      (hpath : start.addParameters (pathParameters false t.route.segments) = .ok placed)
      (hidentified : withEntity t isEntity placed = .ok entity)
      (hsearch : withSearch entity = .ok c) : ReadStages t c
  | single {options : List Parameter} {start placed chosen c : Command}
      (hcommand : t.command .get t.noun .get .get (t.route.urlTemplate .omitted) = .ok start)
      (hpath : start.addParameters (pathParameters false t.route.segments) = .ok placed)
      (hset : withOnlySet placed "Get" = .ok chosen) (hsub : options ⊆ projectionOptions)
      (hoptions : chosen.addParameters options = .ok c) : ReadStages t c

theorem stages_of_getOrSearch (h : getOrSearch t = .ok c) :
    ∃ read, ReadStages t read ∧
      c = { read with summary := "Get " ++ t.name ++ " from " ++ t.place } := by
  obtain ⟨read, hread, rfl⟩ := Fallible.map_eq_ok_iff.1 h
  refine ⟨read, ?_, rfl⟩
  split at hread
  · obtain ⟨isEntity, hentity, h⟩ := Fallible.bind_eq_ok_iff.1 hread
    obtain ⟨start, hcommand, h⟩ := Fallible.bind_eq_ok_iff.1 h
    obtain ⟨placed, hpath, h⟩ := Fallible.bind_eq_ok_iff.1 h
    obtain ⟨entity, hidentified, hsearch⟩ := Fallible.bind_eq_ok_iff.1 h
    exact .collection hentity hcommand hpath hidentified hsearch
  · obtain ⟨start, hcommand, h⟩ := Fallible.bind_eq_ok_iff.1 hread
    obtain ⟨placed, hpath, h⟩ := Fallible.bind_eq_ok_iff.1 h
    obtain ⟨chosen, hset, h⟩ := Fallible.bind_eq_ok_iff.1 h
    split at h
    · exact .single hcommand hpath hset (List.Subset.refl _) h
    · exact .single hcommand hpath hset (List.nil_subset _) h

theorem Begun.placed_entity {isEntity : Bool} {tail : String} {c₁ c₂ : Command}
    (hbegun : Begun t (if isEntity then .optional else .omitted) tail c)
    (hpath : c.addParameters (pathParameters false t.route.segments) = .ok c₁)
    (h : withEntity t isEntity c₁ = .ok c₂) :
    Placed t (if isEntity then .optional else .omitted) tail c₂ := by
  rcases withEntity_eq_ok h with ⟨id, _, _, rfl, hid, hset, hadd, rfl⟩ | ⟨hnone, rfl⟩
  · exact hbegun.placed_optional hid hpath hset hadd
  · cases isEntity with
    | false => exact hbegun.placed_omitted hpath
    | true => exact hbegun.placed_optional_of_none (hnone rfl) hpath

/-- After its placeholders, the command on a collection is one that searches. -/
theorem Placed.made_of_search {id : TerminalId} {summary : String} (h : Placed t id "" c)
    (hsearch : withSearch c = .ok c') : Made t id "" { c' with summary := summary } := by
  obtain ⟨c₁, hset, hsearch⟩ := Fallible.bind_eq_ok_iff.1 hsearch
  obtain ⟨c₂, hprojection, hcollection⟩ := Fallible.bind_eq_ok_iff.1 hsearch
  obtain ⟨hset, hdeclared, hdefault⟩ := withOnlySet_grows hset
  have hprojection := projectionOptions_grows (List.Subset.refl _) hprojection
  have hcollection : Grows c₂ c' ∧ c'.sets = c₂.sets := by
    refine collectionOptions_grows ?_ hcollection
    rwa [Command.setNames, hprojection.2]
  refine h.made ?_ fun _ => ?_
  · exact one_default_of_same_sets (one_default_of_same_sets hset hprojection) hcollection
  · rw [hcollection.2, hprojection.2]
    exact hdefault

theorem made_of_getOrSearch (h : getOrSearch t = .ok c) : ∃ id, Made t id "" c := by
  obtain ⟨read, stages, rfl⟩ := stages_of_getOrSearch h
  cases stages with
  | collection _ hcommand hpath hidentified hsearch =>
    have hbegun := begun_of_command hcommand String.append_empty.symm
    exact ⟨_, (hbegun.placed_entity hpath hidentified).made_of_search hsearch⟩
  | single hcommand hpath hset hsub hoptions =>
    have hbegun := begun_of_command hcommand String.append_empty.symm
    obtain ⟨hset, _⟩ := withOnlySet_grows hset
    exact ⟨_, (hbegun.placed_omitted hpath).made
      (one_default_of_same_sets hset (projectionOptions_grows hsub hoptions)) nofun⟩

/-! ## The commands that invoke methods -/

theorem invocation_outside (kind : MethodKind) : (invocation kind).2.2 ≠ .path := by
  cases kind <;> simp [invocation]

/-- There is an overload, and so a default. -/
theorem exists_default_of_overloads {several : Bool} {kind : MethodKind} {o : Overloads}
    {candidates : List Selection.Candidate}
    (h : mergeOverloads g several (invocation kind).2.2 c o.toList = .ok (c', candidates)) :
    ∃ best, Selection.selectDefault candidates = some best := by
  obtain ⟨_, _, hlength⟩ := mergeOverloads_grows (invocation_outside kind) h
  refine Selection.exists_selectDefault fun hnil => ?_
  simp [hnil, Overloads.toList] at hlength

theorem withOverloads_eq_ok {o : Overloads} (h : withOverloads g o c = .ok c') :
    ∃ merged candidates best,
      mergeOverloads g (!o.others.isEmpty) (invocation o.first.kind).2.2 c o.toList =
        .ok (merged, candidates) ∧
      Selection.selectDefault candidates = some best ∧ merged.setDefault best.name = .ok c' := by
  obtain ⟨⟨merged, candidates⟩, hmerge, h⟩ := Fallible.bind_eq_ok_iff.1 h
  obtain ⟨best, hbest⟩ := exists_default_of_overloads hmerge
  simp only [hbest] at h
  exact ⟨merged, candidates, best, hmerge, hbest, h⟩

/-- The overloads make sets, one of which becomes the default. -/
theorem withOverloads_grows {o : Overloads} (h : withOverloads g o c = .ok c') :
    Grows c c' ∧ (c.Coherent → c'.sets.countP (·.isDefault) = 1) := by
  obtain ⟨merged, candidates, best, hmerge, hbest, hdefault⟩ := withOverloads_eq_ok h
  obtain ⟨hgrows, hnames, _⟩ := mergeOverloads_grows (invocation_outside o.first.kind) hmerge
  have declared := hnames best (Selection.mem_of_selectDefault hbest)
  obtain ⟨_, rfl⟩ := Command.setDefault_eq_ok hdefault
  refine ⟨⟨hgrows.extended.trans (.setDefault merged best.name), fun hc => ?_⟩, fun hc => ?_⟩
  · exact ((hgrows.coherent hc).setDefault declared).1
  · exact ((hgrows.coherent hc).setDefault declared).2

theorem withResultOptions_eq_ok {m : Method} (h : withResultOptions m c = .ok c') :
    c' = c ∨ addMissingOptions c collectionOptions = .ok c' := by
  unfold withResultOptions at h
  split at h
  · exact .inr h
  · cases h
    exact .inl rfl

theorem withResultOptions_grows {m : Method} (h : withResultOptions m c = .ok c') :
    Grows c c' ∧ c'.sets = c.sets := by
  rcases withResultOptions_eq_ok h with rfl | hoptions
  · exact ⟨.refl _, rfl⟩
  · refine addMissingOptions_grows ?_ ?_ hoptions
    · simp [collectionOptions, queryOption]
    · simp [collectionOptions, queryOption]

/-- How a command that invokes a method is made, up to its summary. -/
inductive InvokeStages (t : Target) (o : Overloads) : Command → Prop where
  | made {onItem : Bool} {type : Option String} {start placed chosen c : Command}
      (hkinds : ∀ m ∈ o.toList, m.kind = o.first.kind)
      (hcommand : t.command .invoke (Naming.pascalCase o.first.name ++ t.noun)
        (invocation o.first.kind).1 (invocation o.first.kind).2.1
        (t.route.urlTemplate (if onItem then .mandatory else .omitted) ++ "/" ++
          t.graph.qualify o.first.name) = .ok start)
      (hpath : Command.addParameters
        { start with resourceType := type, description := o.first.description }
        (pathParameters onItem t.route.segments) = .ok placed)
      (hoverloads : withOverloads t.graph o
        (if onItem then { placed with idParameter := t.route.terminalId.map (·.name) }
          else placed) = .ok chosen)
      (hoptions : withResultOptions o.first chosen = .ok c) : InvokeStages t o c

theorem stages_of_invoke {o : Overloads} (h : invoke t o = .ok c) :
    ∃ invoked, InvokeStages t o invoked ∧
      c = { invoked with
        summary := "Invoke " ++ kindWord o.first.kind ++ " " ++ o.first.name } := by
  unfold invoke at h
  dsimp only at h
  split at h
  · rename_i hall
    have hkinds : ∀ m ∈ o.toList, m.kind = o.first.kind :=
      List.forall_mem_cons.2 ⟨rfl, fun m hm => beq_iff_eq.1 (List.all_eq_true.1 hall m hm)⟩
    obtain ⟨start, hcommand, h⟩ := Fallible.bind_eq_ok_iff.1 h
    obtain ⟨type, _, h⟩ := Fallible.bind_eq_ok_iff.1 h
    obtain ⟨placed, hpath, h⟩ := Fallible.bind_eq_ok_iff.1 h
    obtain ⟨chosen, hoverloads, h⟩ := Fallible.bind_eq_ok_iff.1 h
    obtain ⟨invoked, hoptions, h⟩ := Fallible.bind_eq_ok_iff.1 h
    cases h
    exact ⟨invoked, .made hkinds hcommand hpath hoverloads hoptions, rfl⟩
  · obtain ⟨_, _, h⟩ := Fallible.bind_eq_ok_iff.1 h
    obtain ⟨_, hthrow, _⟩ := Fallible.bind_eq_ok_iff.1 h
    cases hthrow

/-- The command of a method of an item has the identifier of the item. -/
theorem Begun.placed_invocation {tail : String} {onItem : Bool}
    (hbegun : Begun t (if onItem then .mandatory else .omitted) tail c)
    (h : c.addParameters (pathParameters onItem t.route.segments) = .ok c') :
    Placed t (if onItem then .mandatory else .omitted) tail
      (if onItem then { c' with idParameter := t.route.terminalId.map (·.name) } else c') := by
  cases onItem with
  | false => exact hbegun.placed_omitted h
  | true => exact hbegun.placed_mandatory h

theorem Begun.describe {id : TerminalId} {tail : String} (h : Begun t id tail c)
    (type description : Option String) :
    Begun t id tail { c with resourceType := type, description := description } :=
  ⟨h.url, h.route, h.sets, h.parameters, h.id⟩

theorem made_of_invoke {o : Overloads} (h : invoke t o = .ok c) :
    ∃ id, Made t id ("/" ++ t.graph.qualify o.first.name) c := by
  obtain ⟨invoked, stages, rfl⟩ := stages_of_invoke h
  cases stages with
  | @made onItem type _ _ _ _ _ hcommand hpath hoverloads hoptions =>
    have hbegun := begun_of_command hcommand (String.append_assoc ..)
    have hplaced := (hbegun.describe type o.first.description).placed_invocation hpath
    have fixed : (if onItem then TerminalId.mandatory else .omitted) ≠ .optional := by
      cases onItem <;> simp
    have hend := one_default_of_same_sets (withOverloads_grows hoverloads)
      (withResultOptions_grows hoptions)
    exact ⟨_, hplaced.made hend fun h => absurd h fixed⟩

/-! ## The commands of a route -/

/-- What stands behind the segments in an address: nothing, or what is done there. -/
inductive Tail (g : Graph) : String → Prop where
  | none : Tail g ""
  | reference : Tail g "/$ref"
  | method {m : Method} (h : m ∈ g.methods) : Tail g ("/" ++ g.qualify m.name)

/-- A command that obeys the rules and has an address on the route. -/
def IsMade (t : Target) (c : Command) : Prop :=
  ∃ id tail, Tail t.graph tail ∧ Made t id tail c

variable {cs : List Command}

theorem Overloads.first_mem_of_mem_insert {m : Method} {groups : List Overloads} {o : Overloads}
    (h : o ∈ Overloads.insert m groups) : o.first = m ∨ ∃ o' ∈ groups, o.first = o'.first := by
  unfold Overloads.insert at h
  split at h
  · rcases Command.mem_modifyFirst h with h | ⟨o', ho', _, rfl⟩
    · exact .inr ⟨o, h, rfl⟩
    · exact .inr ⟨o', ho', rfl⟩
  · rcases List.mem_append.1 h with h | h
    · exact .inr ⟨o, h, rfl⟩
    · rw [List.mem_singleton.1 h]
      exact .inl rfl

theorem Overloads.first_mem_of_mem_group {methods : List Method} {o : Overloads}
    (h : o ∈ Overloads.group methods) : o.first ∈ methods := by
  have of_foldl : ∀ (methods : List Method) (groups : List Overloads),
      o ∈ methods.foldl (fun groups m => Overloads.insert m groups) groups →
        o.first ∈ methods ∨ ∃ o' ∈ groups, o.first = o'.first := by
    intro methods
    induction methods with
    | nil => exact fun groups h => .inr ⟨o, h, rfl⟩
    | cons m rest ih =>
      intro groups h
      rcases ih _ h with h | ⟨o', ho', hsame⟩
      · exact .inl (List.mem_cons_of_mem _ h)
      · rcases Overloads.first_mem_of_mem_insert ho' with hm | ⟨o'', ho'', hsame'⟩
        · rw [hsame, hm]
          exact .inl List.mem_cons_self
        · exact .inr ⟨o'', ho'', hsame.trans hsame'⟩
  rcases of_foldl methods [] h with h | ⟨o', ho', _⟩
  · exact h
  · cases ho'

/-- The overloads are methods of the class of the property: all of one name and one binding. -/
def Target.HasOverloads (t : Target) (o : Overloads) : Prop :=
  ∃ target ids methods, t.property.type = .structured target ∧
    t.graph.allMethods target t.config.includeInheritedMethods = .ok ids ∧
    ids.mapM t.graph.methodAt = .ok methods ∧ o ∈ Overloads.group methods

theorem Target.HasOverloads.first_mem {o : Overloads} (h : t.HasOverloads o) :
    o.first ∈ t.graph.methods := by
  obtain ⟨_, ids, methods, _, _, hmethods, ho⟩ := h
  obtain ⟨id, _, hmethod⟩ :=
    Fallible.forall_ok_of_mapM_eq_ok hmethods (Overloads.first_mem_of_mem_group ho)
  exact Array.mem_of_getElem? (t.graph.methodAt_eq_ok_iff.1 hmethod)

/-- The ways to make a command on a route. Commands on references are for references only, and
methods are those of the class of the property. -/
inductive Makes (t : Target) (c : Command) : Prop where
  | read (h : getOrSearch t = .ok c)
  | create {target : ClassId} (h : create t target = .ok c)
  | update {target : ClassId} (h : update t target = .ok c)
  | delete (h : delete t = .ok c)
  | postReference (reference : t.property.isReference = true) (h : postReference t = .ok c)
  | deleteReference (reference : t.property.isReference = true) (h : deleteReference t = .ok c)
  | invoke {o : Overloads} (declared : t.HasOverloads o) (h : invoke t o = .ok c)

/-- Where a property does not allow an operation there is no command for it. -/
theorem makes_of_allowed {x : Except Fault Command} {allowed : Bool}
    (made : ∀ c, x = .ok c → Makes t c)
    (h : (if allowed then x.map ([·]) else .ok []) = .ok cs) : ∀ c ∈ cs, Makes t c := by
  split at h
  · obtain ⟨c, hc, rfl⟩ := Fallible.map_eq_ok_iff.1 h
    intro c' hc'
    rw [List.mem_singleton.1 hc']
    exact made c hc
  · cases h
    simp

theorem makes_of_creation (h : creation t = .ok cs) : ∀ c ∈ cs, Makes t c := by
  unfold creation at h
  split at h
  · rename_i href
    exact makes_of_allowed (fun c hc => .postReference href hc) h
  · split at h
    · exact makes_of_allowed (fun c hc => .create hc) h
    · cases h
      simp

theorem makes_of_updating (h : updating t = .ok cs) : ∀ c ∈ cs, Makes t c := by
  unfold updating at h
  split at h
  · exact makes_of_allowed (fun c hc => .update hc) h
  · cases h
    simp

theorem makes_of_deletion (h : deletion t = .ok cs) : ∀ c ∈ cs, Makes t c := by
  unfold deletion at h
  split at h
  · rename_i href
    exact makes_of_allowed (fun c hc => .deleteReference href hc) h
  · exact makes_of_allowed (fun c hc => .delete hc) h

theorem makes_of_methodCommands (h : methodCommands t = .ok cs) : ∀ c ∈ cs, Makes t c := by
  unfold methodCommands at h
  split at h
  · rename_i target htarget
    unfold invocations at h
    obtain ⟨ids, hids, h⟩ := Fallible.bind_eq_ok_iff.1 h
    obtain ⟨methods, hmethods, h⟩ := Fallible.bind_eq_ok_iff.1 h
    obtain ⟨isEntityCollection, _, h⟩ := Fallible.bind_eq_ok_iff.1 h
    intro c hc
    obtain ⟨o, ho, hinvoke⟩ := Fallible.forall_ok_of_mapM_eq_ok h hc
    exact .invoke ⟨target, ids, methods, htarget, hids, hmethods, (List.mem_filter.1 ho).1⟩ hinvoke
  · cases h
    simp

theorem makes_of_commands {route : Rendered} {id : PropertyId}
    (h : commands g config route id = .ok cs) :
    ∃ p, g.propertyAt id = .ok p ∧ ∀ c ∈ cs, Makes ⟨g, config, route, p⟩ c := by
  unfold commands at h
  obtain ⟨p, hp, h⟩ := Fallible.bind_eq_ok_iff.1 h
  obtain ⟨read, hread, h⟩ := Fallible.bind_eq_ok_iff.1 h
  obtain ⟨created, hcreated, h⟩ := Fallible.bind_eq_ok_iff.1 h
  obtain ⟨updated, hupdated, h⟩ := Fallible.bind_eq_ok_iff.1 h
  obtain ⟨deleted, hdeleted, h⟩ := Fallible.bind_eq_ok_iff.1 h
  obtain ⟨invoked, hinvoked, h⟩ := Fallible.bind_eq_ok_iff.1 h
  cases h
  refine ⟨p, hp, ?_⟩
  simp only [List.forall_mem_cons, List.forall_mem_append]
  exact ⟨.read hread, ⟨⟨makes_of_creation hcreated, makes_of_updating hupdated⟩,
    makes_of_deletion hdeleted⟩, makes_of_methodCommands hinvoked⟩

theorem Makes.isMade (h : Makes t c) : IsMade t c := by
  cases h with
  | read h =>
    obtain ⟨id, hmade⟩ := made_of_getOrSearch h
    exact ⟨id, _, .none, hmade⟩
  | create h => exact ⟨_, _, .none, made_of_create h⟩
  | update h => exact ⟨_, _, .none, made_of_update h⟩
  | delete h => exact ⟨_, _, .none, made_of_delete h⟩
  | postReference _ h => exact ⟨_, _, .reference, made_of_postReference h⟩
  | deleteReference _ h => exact ⟨_, _, .reference, made_of_deleteReference h⟩
  | invoke declared h =>
    obtain ⟨id, hmade⟩ := made_of_invoke h
    exact ⟨id, _, .method declared.first_mem, hmade⟩

/-- All commands of a route have its address and obey the rules. -/
theorem made_of_commands {route : Rendered} {id : PropertyId}
    (h : commands g config route id = .ok cs) :
    ∃ p, ∀ c ∈ cs, IsMade ⟨g, config, route, p⟩ c := by
  obtain ⟨p, _, hmakes⟩ := makes_of_commands h
  exact ⟨p, fun c hc => (hmakes c hc).isMade⟩

/-- Whatever the schema, the settings and the route: the commands that are made obey the rules, and
so the check of the rules is never what fails. -/
theorem commands_valid (g : Graph) (config : Config) (route : Rendered) (id : PropertyId) :
    (∀ cs, commands g config route id = .ok cs → ∀ c ∈ cs, c.Valid ∧ c.validate = .ok ()) ∧
      Generation.routeCommands g config route id =
        (commands g config route id).mapError (Fault.onRoute route.text) := by
  have valid : ∀ cs, commands g config route id = .ok cs → ∀ c ∈ cs, c.Valid := by
    intro cs h c hc
    obtain ⟨p, hmade⟩ := made_of_commands h
    obtain ⟨_, _, _, hmade⟩ := hmade c hc
    exact hmade.valid
  refine ⟨fun cs h c hc => ⟨valid cs h c hc, Command.validate_eq_ok_iff.2 (valid cs h c hc)⟩, ?_⟩
  unfold Generation.routeCommands
  cases h : commands g config route id with
  | error fault => rfl
  | ok cs =>
    have hchecks : cs.forM Command.validate = .ok () :=
      Fallible.forM_eq_ok fun c hc => Command.validate_eq_ok_iff.2 (valid cs h c hc)
    change (cs.forM Command.validate >>= fun _ => pure cs) = Except.ok cs
    rw [hchecks]
    rfl

def itemsRoute : Rendered :=
  ⟨[{ name := "items"
      id := some { name := "ItemId", keyName := "id", keyType := .primitive .string } }]⟩

theorem commands_valid_of_items :
    ∃ cs, commands Graph.library {} itemsRoute ⟨7⟩ = .ok cs ∧ cs.length = 5 ∧
      ∀ c ∈ cs, c.Valid ∧ c.validate = .ok () := by
  have five : ((commands Graph.library {} itemsRoute ⟨7⟩).map (·.length)) = .ok 5 := by
    decide +kernel
  obtain ⟨cs, hcs, hlength⟩ := Fallible.map_eq_ok_iff.1 five
  exact ⟨cs, hcs, hlength, (commands_valid Graph.library {} itemsRoute ⟨7⟩).1 cs hcs⟩

end Synthesis
end EdmCommands
