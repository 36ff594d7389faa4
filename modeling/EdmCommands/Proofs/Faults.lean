import EdmCommands.Generation
import EdmCommands.Proofs.Fallible

/-!
# EdmCommands.Proofs.Faults

What can stop a generation, stage by stage. The search for routes stops with faults of the schema
only, the commands of a route with those or with faults of a command; that a route is produced
twice is said nowhere but where the routes are gathered.

Each lemma says of one stage which faults it stops with, and is found by `grind` for the next one.

* `isSchema_of_build`: the search for routes.
* `isInput_of_commands`: the commands of a route.
* `repeated_of_run`: a generation that finds a route twice has two nodes of one text.
-/

namespace EdmCommands

def Fault.IsSchema : Fault → Prop
  | .schema _ _ => True
  | _ => False

/-- A fault of the schema or of a command. -/
def Fault.IsInput : Fault → Prop
  | .schema _ _ => True
  | .invalidCommand _ _ => True
  | _ => False

variable {f : Fault}

namespace Fault

@[grind =]
theorem isSchema_schema (location : String) (cause : SchemaCause) :
    (Fault.schema location cause).IsSchema = True := rfl

@[grind =]
theorem isSchema_dangling (table : Table) (index : Nat) :
    (Fault.dangling table index).IsSchema = True := rfl

@[grind →]
theorem IsSchema.isInput (h : f.IsSchema) : f.IsInput := by
  cases f with
  | schema location cause => trivial
  | _ => cases h

@[grind =]
theorem isInput_fault (c : Command) (cause : CommandCause) : (c.fault cause).IsInput = True := rfl

theorem isInput_onRoute {route : String} (h : f.IsInput) : (f.onRoute route).IsInput := by
  cases f with
  | schema location cause => trivial
  | invalidCommand command cause => trivial
  | _ => cases h

end Fault

/-! ## The schema -/

namespace Schema
namespace Graph

variable {g : Graph} {id : ClassId}

@[grind →]
theorem isSchema_of_classAt (h : g.classAt id = .error f) : f.IsSchema := by
  grind [classAt]

@[grind →]
theorem isSchema_of_propertyAt {p : PropertyId} (h : g.propertyAt p = .error f) : f.IsSchema := by
  grind [propertyAt]

@[grind →]
theorem isSchema_of_enumAt {e : EnumId} (h : g.enumAt e = .error f) : f.IsSchema := by
  grind [enumAt]

@[grind →]
theorem isSchema_of_methodAt {m : MethodId} (h : g.methodAt m = .error f) : f.IsSchema := by
  grind [methodAt]

@[grind →]
theorem isSchema_of_qualifiedName (h : g.qualifiedName id = .error f) : f.IsSchema := by
  grind [qualifiedName]

@[grind →]
theorem isSchema_of_canonicalName {p : PropertyId} (h : g.canonicalName p = .error f) :
    f.IsSchema := by
  grind [canonicalName]

@[grind →]
theorem isSchema_of_typeName {type : TypeRef} (h : g.typeName type = .error f) : f.IsSchema := by
  cases type <;> grind [typeName]

@[grind →]
theorem isSchema_of_isEntityType {type : TypeRef} (h : g.isEntityType type = .error f) :
    f.IsSchema := by
  cases type <;> grind [isEntityType]

@[grind →]
theorem isSchema_of_elementType {type : TypeRef} (h : g.elementType type = .error f) :
    f.IsSchema := by
  cases type <;> grind [elementType]

@[grind →]
theorem isSchema_of_parameterType {type : TypeRef} {isCollection : Bool}
    (h : g.parameterType type isCollection = .error f) : f.IsSchema := by
  grind [parameterType]

@[grind →]
theorem isSchema_of_cycleFault {α : Type} (h : (g.cycleFault id : Except Fault α) = .error f) :
    f.IsSchema := by
  grind [cycleFault]

@[grind →]
theorem isSchema_of_climb {fuel : Nat} {chain : List ClassId} {cursor : Option ClassId}
    (h : g.climb id fuel chain cursor = .error f) : f.IsSchema := by
  fun_induction g.climb id fuel chain cursor <;> grind

@[grind →]
theorem isSchema_of_ancestors (h : g.ancestors id = .error f) : f.IsSchema := by
  grind [ancestors]

@[grind →]
theorem isSchema_of_lineage (h : g.lineage id = .error f) : f.IsSchema := by
  grind [lineage]

@[grind →]
theorem isSchema_of_gather {α : Type} {part : StructuredType → List α} {ids : List ClassId}
    (h : g.gather part ids = .error f) : f.IsSchema := by
  fun_induction g.gather part ids <;> grind

@[grind →]
theorem isSchema_of_allProperties (h : g.allProperties id = .error f) : f.IsSchema := by
  grind [allProperties]

@[grind →]
theorem isSchema_of_allMethods {inherited : Bool} (h : g.allMethods id inherited = .error f) :
    f.IsSchema := by
  cases inherited <;> grind [allMethods]

@[grind →]
theorem isSchema_of_firstKey {ids : List ClassId} (h : g.firstKey ids = .error f) :
    f.IsSchema := by
  fun_induction g.firstKey ids <;> grind

@[grind →]
theorem isSchema_of_keyName (h : g.keyName id = .error f) : f.IsSchema := by
  grind [keyName]

@[grind →]
theorem isSchema_of_findNamed {name : String} {ids : List PropertyId}
    (h : g.findNamed name ids = .error f) : f.IsSchema := by
  fun_induction g.findNamed name ids <;> grind

@[grind →]
theorem isSchema_of_keyProperty (h : g.keyProperty id = .error f) : f.IsSchema := by
  unfold keyProperty at h
  split at h <;> grind

/-- A walk stops with a fault of the schema when what it does at each class does. -/
theorem isSchema_of_walkDown {α : Type}
    {visit : ClassId → StructuredType → Except Fault (List α)}
    (hvisit : ∀ id c f, visit id c = .error f → f.IsSchema) {fuel : Nat}
    {seen queue : List ClassId} (h : g.walkDown visit fuel seen queue = .error f) :
    f.IsSchema := by
  fun_induction g.walkDown visit fuel seen queue <;> grind

end Graph
end Schema

/-! ## The routes -/

namespace Route

open Schema

variable {g : Graph} {config : Config} {before steps : List Step} {idSegments : List Nat}
  {step : Step}

@[grind →]
theorem isSchema_of_pathNames (h : pathNames g steps = .error f) : f.IsSchema := by
  fun_induction pathNames g steps <;> grind

@[grind →]
theorem isSchema_of_isEntitySegment {p : PropertyId} (h : isEntitySegment g p = .error f) :
    f.IsSchema := by
  unfold isEntitySegment at h
  split at h <;> grind

@[grind →]
theorem isSchema_of_accept (h : accept g config before idSegments step = .error f) :
    f.IsSchema := by
  grind [accept]

@[grind →]
theorem isSchema_of_navigations {ids : List PropertyId} (h : navigations g ids = .error f) :
    f.IsSchema := by
  fun_induction navigations g ids <;> grind

@[grind →]
theorem isSchema_of_candidates {id : ClassId} (h : candidates g id = .error f) : f.IsSchema := by
  unfold candidates at h
  split at h
  · grind
  split at h
  · grind
  dsimp only at h
  split at h
  · rename_i hbelow
    cases h
    unfold Graph.collectBelow at hbelow
    split at hbelow
    · grind
    · exact Graph.isSchema_of_walkDown (by grind) hbelow
  · cases h

@[grind →]
theorem isSchema_of_nameCandidates {found : List (PropertyId × Option ClassId)}
    (h : nameCandidates g found = .error f) : f.IsSchema := by
  fun_induction nameCandidates g found <;> grind

@[grind →]
theorem isSchema_of_continuations {last : PropertyId}
    (h : continuations g config steps last = .error f) : f.IsSchema := by
  unfold continuations at h
  split at h
  · grind
  split at h <;> grind

@[grind →]
theorem isSchema_of_follow (h : follow g config before idSegments step = .error f) :
    f.IsSchema := by
  grind [follow]

@[grind →]
theorem isSchema_of_visit {w : Work} {next : Pending} (h : w.visit g config next = .error f) :
    f.IsSchema := by
  grind [Work.visit]

@[grind →]
theorem isSchema_of_run {w : Work} (h : w.run g config = .error f) : f.IsSchema := by
  fun_induction w.run g config <;> grind

@[grind →]
theorem isSchema_of_roots (h : Tree.roots g = .error f) : f.IsSchema := by
  grind [Tree.roots]

@[grind →]
theorem isSchema_of_build (h : Tree.build g config = .error f) : f.IsSchema := by
  grind [Tree.build]

@[grind →]
theorem isSchema_of_idPlaceholder {taken : List String} {id : PropertyId} {p : Property}
    (h : idPlaceholder g config taken id p = .error f) : f.IsSchema := by
  unfold idPlaceholder at h
  split at h <;> grind

@[grind →]
theorem isSchema_of_typecastPlaceholder {taken : List String} {p : Property} {cast : Cast}
    (h : typecastPlaceholder g config taken p cast = .error f) : f.IsSchema := by
  grind [typecastPlaceholder]

@[grind →]
theorem isSchema_of_renderFrom {index : Nat} {taken : List String}
    (h : renderFrom g config idSegments index taken steps = .error f) : f.IsSchema := by
  fun_induction renderFrom g config idSegments index taken steps <;> grind

@[grind →]
theorem isSchema_of_ofNode {n : Node} (h : Rendered.ofNode g config n = .error f) :
    f.IsSchema := by
  grind [Rendered.ofNode]

end Route

/-! ## The commands -/

namespace Command

variable {c : Command}

@[grind →]
theorem isInput_of_addSet {set : ParameterSet} (h : c.addSet set = .error f) : f.IsInput := by
  grind [addSet]

@[grind →]
theorem isInput_of_setDefault {name : String} (h : c.setDefault name = .error f) :
    f.IsInput := by
  grind [setDefault]

@[grind →]
theorem isInput_of_addParameter {p : Parameter} (h : c.addParameter p = .error f) :
    f.IsInput := by
  grind [addParameter]

@[grind →]
theorem isInput_of_addParameters {ps : List Parameter} (h : c.addParameters ps = .error f) :
    f.IsInput := by
  unfold addParameters at h
  induction ps generalizing c with
  | nil => cases h
  | cons p rest ih =>
    rw [List.foldlM_cons, Fallible.bind_eq_error_iff] at h
    rcases h with h | ⟨added, _, h⟩
    · exact isInput_of_addParameter h
    · exact ih h

@[grind →]
theorem isInput_of_validate (h : c.validate = .error f) : f.IsInput := by
  unfold validate at h
  cases hcheck : c.check with
  | ok => rw [hcheck] at h; cases h
  | error cause => rw [hcheck] at h; cases h; trivial

end Command

namespace Synthesis

open Schema
open Route (Rendered)

variable {g : Graph} {config : Config} {base : ClassId} {c : Command} {t : Target}

@[grind →]
theorem isSchema_of_hierarchy (h : hierarchy g base = .error f) : f.IsSchema := by
  unfold hierarchy at h
  generalize g.classes.size + 1 = fuel at h
  generalize [] = seen, [base] = queue at h
  fun_induction hierarchyFrom g fuel seen queue <;> grind

@[grind →]
theorem isSchema_of_concreteTypes {ids : List ClassId} (h : concreteTypes g ids = .error f) :
    f.IsSchema := by
  fun_induction concreteTypes g ids <;> grind

@[grind →]
theorem isSchema_of_bodyEntries {key : Option PropertyId} {sets : List (ClassId × String)}
    {ids : List ClassId} (h : bodyEntries g base key sets ids = .error f) : f.IsSchema := by
  fun_induction bodyEntries g base key sets ids <;> grind

@[grind →]
theorem isSchema_of_isEligible {p : Property} {operation : OperationKind}
    (h : isEligible g p operation = .error f) : f.IsSchema := by
  grind [isEligible]

@[grind →]
theorem isSchema_of_mergeEntry {entry : BodyEntry} (h : mergeEntry g c entry = .error f) :
    f.IsSchema := by
  unfold mergeEntry at h
  split at h <;> grind

@[grind →]
theorem isSchema_of_mergeEntries {entries : List BodyEntry}
    (h : (mergeEntries g c entries).2 = some f) : f.IsSchema := by
  fun_induction mergeEntries g c entries <;> grind

@[grind →]
theorem isInput_of_resolve (h : (resolve g base c).2 = some f) : f.IsInput := by
  unfold resolve at h
  split at h
  · grind
  split at h
  · grind
  dsimp only at h
  split at h
  · split at h <;> grind
  split at h
  · grind
  split at h <;> grind

@[grind →]
theorem isInput_of_withBody (h : withBody g base c = .error f) : f.IsInput := by
  grind [withBody]

@[grind →]
theorem isSchema_of_command {verb : Verb} {noun : String} {operation : OperationKind}
    {method : HttpMethod} {url : String}
    (h : t.command verb noun operation method url = .error f) : f.IsSchema := by
  grind [Target.command, Target.resourceType]

@[grind →]
theorem isSchema_of_isEntityCollection (h : t.isEntityCollection = .error f) : f.IsSchema := by
  grind [Target.isEntityCollection]

@[grind →]
theorem isInput_of_withOnlySet {set : String} (h : withOnlySet c set = .error f) :
    f.IsInput := by
  grind [withOnlySet]

@[grind →]
theorem isInput_of_withEntity {isEntity : Bool} (h : withEntity t isEntity c = .error f) :
    f.IsInput := by
  unfold withEntity at h
  split at h <;> grind

@[grind →]
theorem isInput_of_withSearch (h : withSearch c = .error f) : f.IsInput := by
  grind [withSearch]

@[grind →]
theorem isInput_of_readCollection (h : readCollection t = .error f) : f.IsInput := by
  grind [readCollection]

@[grind →]
theorem isInput_of_readSingle (h : readSingle t = .error f) : f.IsInput := by
  grind [readSingle]

@[grind →]
theorem isInput_of_getOrSearch (h : getOrSearch t = .error f) : f.IsInput := by
  grind [getOrSearch]

@[grind →]
theorem isInput_of_create (h : create t base = .error f) : f.IsInput := by
  grind [create]

@[grind →]
theorem isInput_of_update (h : update t base = .error f) : f.IsInput := by
  grind [update]

@[grind →]
theorem isInput_of_delete (h : delete t = .error f) : f.IsInput := by
  grind [delete]

@[grind →]
theorem isInput_of_postReference (h : postReference t = .error f) : f.IsInput := by
  grind [postReference]

@[grind →]
theorem isInput_of_deleteReference (h : deleteReference t = .error f) : f.IsInput := by
  grind [deleteReference]

@[grind →]
theorem isInput_of_mergeArguments {set : String} {location : ParameterLocation}
    {ps : List MethodParameter} (h : mergeArguments g set location c ps = .error f) :
    f.IsInput := by
  fun_induction mergeArguments g set location c ps <;> grind [mergeArgument]

@[grind →]
theorem isInput_of_mergeOverloads {several : Bool} {location : ParameterLocation}
    {ms : List Method} (h : mergeOverloads g several location c ms = .error f) :
    f.IsInput := by
  fun_induction mergeOverloads g several location c ms <;> grind

@[grind →]
theorem isInput_of_addMissingOptions {ps : List Parameter}
    (h : addMissingOptions c ps = .error f) : f.IsInput := by
  fun_induction addMissingOptions c ps <;> grind

@[grind →]
theorem isSchema_of_resultType {m : Method} (h : resultType g m = .error f) : f.IsSchema := by
  unfold resultType at h
  split at h <;> grind

@[grind →]
theorem isInput_of_withOverloads {o : Overloads} (h : withOverloads g o c = .error f) :
    f.IsInput := by
  grind [withOverloads]

@[grind →]
theorem isInput_of_withResultOptions {m : Method} (h : withResultOptions m c = .error f) :
    f.IsInput := by
  grind [withResultOptions]

@[grind →]
theorem isInput_of_invoke {o : Overloads} (h : invoke t o = .error f) : f.IsInput := by
  unfold invoke at h
  dsimp only at h
  split at h
  · rcases Fallible.bind_eq_error_iff.1 h with h | ⟨begun, _, h⟩
    · exact (isSchema_of_command h).isInput
    rcases Fallible.bind_eq_error_iff.1 h with h | ⟨type, _, h⟩
    · exact (isSchema_of_resultType h).isInput
    rcases Fallible.bind_eq_error_iff.1 h with h | ⟨placed, _, h⟩
    · exact Command.isInput_of_addParameters h
    rcases Fallible.bind_eq_error_iff.1 h with h | ⟨chosen, _, h⟩
    · exact isInput_of_withOverloads h
    rcases Fallible.bind_eq_error_iff.1 h with h | ⟨done, _, h⟩
    · exact isInput_of_withResultOptions h
    · cases h
  · rcases Fallible.bind_eq_error_iff.1 h with h | ⟨type, _, h⟩
    · exact (Graph.isSchema_of_typeName h).isInput
    · cases h
      trivial

@[grind →]
theorem isInput_of_invocations (h : invocations t base = .error f) : f.IsInput := by
  unfold invocations at h
  rcases Fallible.bind_eq_error_iff.1 h with h | ⟨ids, _, h⟩
  · exact (Graph.isSchema_of_allMethods h).isInput
  rcases Fallible.bind_eq_error_iff.1 h with h | ⟨methods, _, h⟩
  · obtain ⟨id, _, h⟩ := Fallible.exists_error_of_mapM_eq_error h
    exact (Graph.isSchema_of_methodAt h).isInput
  rcases Fallible.bind_eq_error_iff.1 h with h | ⟨isEntity, _, h⟩
  · exact (isSchema_of_isEntityCollection h).isInput
  · obtain ⟨o, _, h⟩ := Fallible.exists_error_of_mapM_eq_error h
    exact isInput_of_invoke h

@[grind →]
theorem isInput_of_creation (h : creation t = .error f) : f.IsInput := by
  unfold creation at h
  split at h
  · grind
  split at h <;> grind

@[grind →]
theorem isInput_of_updating (h : updating t = .error f) : f.IsInput := by
  unfold updating at h
  split at h <;> grind

@[grind →]
theorem isInput_of_deletion (h : deletion t = .error f) : f.IsInput := by
  grind [deletion]

@[grind →]
theorem isInput_of_methodCommands (h : methodCommands t = .error f) : f.IsInput := by
  unfold methodCommands at h
  split at h <;> grind

/-- The commands of a route stop with a fault of the schema or of a command. -/
theorem isInput_of_commands {route : Rendered} {id : PropertyId}
    (h : commands g config route id = .error f) : f.IsInput := by
  grind [commands]

end Synthesis

/-! ## The generation -/

namespace Generation

open Schema
open Route (Rendered)

variable {g : Graph} {config : Config} {output : Output}

theorem isInput_of_routeCommands {route : Rendered} {property : PropertyId}
    (h : routeCommands g config route property = .error f) : f.IsInput := by
  rcases Fallible.bind_eq_error_iff.1 h with h | ⟨commands, _, h⟩
  · obtain ⟨fault, hfault, rfl⟩ := Fallible.mapError_eq_error_iff.1 h
    exact Fault.isInput_onRoute (Synthesis.isInput_of_commands hfault)
  rcases Fallible.bind_eq_error_iff.1 h with h | ⟨_, _, h⟩
  · obtain ⟨c, _, h⟩ := Fallible.exists_error_of_forM_eq_error h
    exact Command.isInput_of_validate h
  · cases h

theorem isSchema_of_linkReferences {commands : List Command}
    (h : linkReferences g commands = .error f) : f.IsSchema := by
  obtain ⟨c, _, h⟩ := Fallible.exists_error_of_mapM_eq_error h
  grind [linkReference]

/-- That a route is produced twice is said only while routes are gathered, of a node whose text
is that of one before it. -/
theorem repeated_of_renderNodes {seen : List String} {nodes : List Route.Node} {text : String}
    (h : renderNodes g config seen nodes = .error (.generation (.routeTwice text))) :
    ∃ front n back r, nodes = front ++ n :: back ∧ Rendered.ofNode g config n = .ok r ∧
      r.text = text ∧
      (text ∈ seen ∨ ∃ m ∈ front, ∃ s, Rendered.ofNode g config m = .ok s ∧ s.text = text) := by
  induction nodes generalizing seen with
  | nil => cases h
  | cons n rest ih =>
    unfold renderNodes at h
    rcases Fallible.bind_eq_error_iff.1 h with h | ⟨r, hr, h⟩
    · cases Route.isSchema_of_ofNode h
    split at h
    · rename_i hseen
      cases h
      exact ⟨[], n, rest, r, rfl, hr, rfl, .inl (by simpa using hseen)⟩
    rcases Fallible.bind_eq_error_iff.1 h with h | ⟨commands, _, h⟩
    · cases isInput_of_routeCommands h
    rcases Fallible.bind_eq_error_iff.1 h with h | ⟨others, _, h⟩
    · obtain ⟨front, m, back, s, rfl, hs, hsame, hfound⟩ := ih h
      refine ⟨n :: front, m, back, s, rfl, hs, hsame, ?_⟩
      rcases hfound with hseen | ⟨m', hm', hfound⟩
      · rcases List.mem_cons.1 hseen with rfl | hseen
        · exact .inr ⟨n, List.mem_cons_self, r, hr, rfl⟩
        · exact .inl hseen
      · exact .inr ⟨m', List.mem_cons_of_mem _ hm', hfound⟩
    · cases h

/-- A generation that finds a route twice has two nodes of the same text. -/
theorem repeated_of_run {text : String}
    (h : run g config = .error (.generation (.routeTwice text))) :
    ∃ tree, Route.Tree.build g config = .ok tree ∧
      ∃ front n back r, tree.nodes = front ++ n :: back ∧
        Rendered.ofNode g config n = .ok r ∧ r.text = text ∧
        ∃ m ∈ front, ∃ s, Rendered.ofNode g config m = .ok s ∧ s.text = text := by
  unfold run at h
  rcases Fallible.bind_eq_error_iff.1 h with h | ⟨_, _, h⟩
  · obtain ⟨cause, _, hcause⟩ := Fallible.mapError_eq_error_iff.1 h
    cases hcause
  rcases Fallible.bind_eq_error_iff.1 h with h | ⟨tree, htree, h⟩
  · cases Route.isSchema_of_build h
  rcases Fallible.bind_eq_error_iff.1 h with h | ⟨blocks, _, h⟩
  · obtain ⟨front, n, back, r, hnodes, hr, htext, hseen | hfound⟩ := repeated_of_renderNodes h
    · cases hseen
    · exact ⟨tree, htree, front, n, back, r, hnodes, hr, htext, hfound⟩
  rcases Fallible.bind_eq_error_iff.1 h with h | ⟨commands, _, h⟩
  · cases isSchema_of_linkReferences h
  · cases h

end Generation
end EdmCommands
