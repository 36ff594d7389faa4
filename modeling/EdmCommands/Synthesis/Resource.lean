import EdmCommands.Config
import EdmCommands.Route.Rendered
import EdmCommands.Synthesis.Body
import EdmCommands.Synthesis.Options

/-!
# EdmCommands.Synthesis.Resource

The commands on the resource of a route: reading it always, and creating, updating, deleting or
linking it as its property allows. The placeholders of the address and the path parameters of a
command are the same in the same order.

* `Target`: a route with the property at its end.
* `getOrSearch`, `create`, `update`, `delete`, `postReference`, `deleteReference`.
-/

namespace EdmCommands
namespace Synthesis

open Schema
open Route (Rendered Segment IdPlaceholder TypecastPlaceholder TerminalId)

/-- A route with the property at its end, in a schema and under settings. -/
structure Target where
  graph : Graph
  config : Config
  route : Rendered
  property : Property

namespace Target

variable (t : Target)

def noun : String :=
  t.config.nounPrefix ++ t.route.noun

def referenceNoun : String :=
  t.noun ++ "Reference"

def name : String :=
  t.route.terminalName

/-- One of what the last segment names. -/
def itemName : String :=
  Naming.singular t.name

/-- Where the resource is: the segment before the last one, or the container. -/
def place : String :=
  match t.route.segments.reverse with
  | _ :: before :: _ => before.name
  | _ => t.graph.container.name

def isEntityCollection : Except Fault Bool :=
  if t.property.isCollection then t.graph.isEntityType t.property.type else .ok false

/-- The qualified name of the class of the resource, if it has one. -/
def resourceType : Except Fault (Option String) :=
  match t.property.type with
  | .structured id => (t.graph.qualifiedName id).map some
  | _ => .ok none

/-- A command on the route, without parameters. -/
def command (verb : Verb) (noun : String) (operation : OperationKind) (method : HttpMethod)
    (url : String) : Except Fault Command :=
  t.resourceType.map fun type =>
    { name := ⟨verb, noun⟩
      operation := operation
      httpMethod := method
      urlTemplate := url
      route := t.route.text
      resourceType := type
      description := t.property.description }

end Target

def idParameter (segmentName : String) (id : IdPlaceholder) : Parameter :=
  let plain : Parameter := { name := id.name, type := id.keyType, location := .path }
  { plain.asMandatory with
    fromPipelineByName := true
    description := some ("The " ++ id.keyName ++ " of the " ++ Naming.singular segmentName) }

def typecastParameter (segmentName : String) (cast : TypecastPlaceholder) : Parameter :=
  let plain : Parameter := { name := cast.name, type := .text, location := .path }
  { plain.asMandatory with
    discriminator := some cast.castType
    description :=
      some ("Qualified type " ++ segmentName ++ " is cast to, e.g. " ++ cast.castType) }

/-- The parameters for the placeholders of the segments; the identifier of the last one only if
`terminalId` says so. -/
def pathParameters (terminalId : Bool) : List Segment → List Parameter
  | [] => []
  | s :: rest =>
    let id := if rest.isEmpty && !terminalId then none else s.id
    (id.map (idParameter s.name)).toList ++ (s.typecast.map (typecastParameter s.name)).toList ++
      pathParameters terminalId rest

/-- The command with one set, which is the default. -/
def withOnlySet (c : Command) (set : String) : Except Fault Command := do
  let c ← c.addSet { name := set }
  c.setDefault set

/-- The command with a set that gets one of the entities by its identifier, where they have one. -/
def withEntity (t : Target) (isEntity : Bool) (c : Command) : Except Fault Command :=
  match isEntity, t.route.terminalId with
  | true, some id => do
    let c ← c.addSet { name := "Get" }
    let c ← c.addParameter ((idParameter t.name id).inSets ["Get"])
    return { c with idParameter := some id.name, isReferenceable := t.route.isTopLevel }
  | _, _ => .ok c

/-- The command with a set that searches, and with its options. -/
def withSearch (c : Command) : Except Fault Command := do
  let c ← withOnlySet c "Search"
  let c ← c.addParameters projectionOptions
  c.addParameters (collectionOptions.map fun p => p.inSets ["Search"])

/-- The command that reads a collection. It is searched, or one of its entities is got. -/
def readCollection (t : Target) : Except Fault Command := do
  let isEntity ← t.isEntityCollection
  let url := t.route.urlTemplate (if isEntity then .optional else .omitted)
  let c ← t.command .get t.noun .search .get url
  let c ← c.addParameters (pathParameters false t.route.segments)
  let c ← withEntity t isEntity c
  withSearch c

def readSingle (t : Target) : Except Fault Command := do
  let c ← t.command .get t.noun .get .get (t.route.urlTemplate .omitted)
  let c ← c.addParameters (pathParameters false t.route.segments)
  let c ← withOnlySet c "Get"
  match t.property.type with
  | .structured _ => c.addParameters projectionOptions
  | _ => .ok c

def getOrSearch (t : Target) : Except Fault Command :=
  (if t.property.isCollection then readCollection t else readSingle t).map fun c =>
    { c with summary := "Get " ++ t.name ++ " from " ++ t.place }

def create (t : Target) (target : ClassId) : Except Fault Command := do
  let c ← t.command .new t.noun .post .post (t.route.urlTemplate .omitted)
  let c ← c.addParameters (pathParameters false t.route.segments)
  let c ← withBody t.graph target c
  return { c with summary := "Create new " ++ t.itemName ++ " in " ++ t.place }

def update (t : Target) (target : ClassId) : Except Fault Command := do
  let c ← t.command .update t.noun .patch .patch (t.route.urlTemplate .mandatory)
  let c ← c.addParameters (pathParameters true t.route.segments)
  let c ← withBody t.graph target { c with idParameter := t.route.terminalId.map (·.name) }
  return { c with summary := "Update the " ++ t.itemName ++ " in " ++ t.place }

def delete (t : Target) : Except Fault Command := do
  let c ← t.command .remove t.noun .delete .delete (t.route.urlTemplate .mandatory)
  let c ← c.addParameters (pathParameters true t.route.segments)
  let c ← withOnlySet { c with idParameter := t.route.terminalId.map (·.name) } "Delete"
  return { c with summary := "Delete the " ++ t.itemName ++ " in " ++ t.place }

def referenceUrl (config : Config) (location : ParameterLocation) (wire : String) : Parameter :=
  let plain : Parameter := { name := config.referenceUrl, type := .url, location := location }
  { plain.asMandatory.withWireName wire with
    fromPipelineValue := true
    fromPipelineByName := true
    description := some "Absolute URL of the resource to reference" }

def referenceTemplate (t : Target) : String :=
  t.route.urlTemplate .omitted ++ "/$ref"

/-- The command that adds a reference to a collection, or sets a single one. -/
def postReference (t : Target) : Except Fault Command := do
  let (verb, method) : Verb × HttpMethod :=
    if t.property.isCollection then (.new, .post) else (.set, .put)
  let c ← t.command verb t.referenceNoun .postRef method (referenceTemplate t)
  let c ← c.addParameters (pathParameters false t.route.segments)
  let c ← withOnlySet c "Reference"
  let c ← c.addParameter (referenceUrl t.config .body "@odata.id")
  let start := if t.property.isCollection then "Add a reference to " else "Set the reference to "
  return { c with summary := start ++ t.name ++ " of " ++ t.place }

/-- The command that removes a reference; in a collection the address says which. -/
def deleteReference (t : Target) : Except Fault Command := do
  let c ← t.command .remove t.referenceNoun .deleteRef .delete (referenceTemplate t)
  let c ← c.addParameters (pathParameters false t.route.segments)
  let c ← withOnlySet c "Reference"
  let c ←
    if t.property.isCollection then c.addParameter (referenceUrl t.config .query "$id")
    else pure c
  return { c with summary := "Remove the reference to " ++ t.name ++ " of " ++ t.place }

end Synthesis
end EdmCommands
