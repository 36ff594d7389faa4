import EdmCommands.Synthesis.Resource

/-!
# EdmCommands.Synthesis.Methods

The commands that invoke methods. Methods of one name and one binding are overloads of each other
and make one command with a parameter set each. An argument that several overloads share is one
parameter, which is mandatory in the sets of those that need it and takes any value when they
disagree about its type.

* `Overloads.group`: the methods of a class by name and binding.
* `mergeArgument`: an argument of one overload.
* `invoke`: the command of one group.
-/

namespace EdmCommands
namespace Synthesis

open Schema

/-- Methods with one name and one binding, in order of declaration. There is at least one. -/
structure Overloads where
  first : Method
  others : List Method
deriving Repr, DecidableEq

namespace Overloads

def toList (o : Overloads) : List Method :=
  o.first :: o.others

def holds (o : Overloads) (m : Method) : Bool :=
  o.first.name == m.name && o.first.boundToCollection == m.boundToCollection

/-- The groups with one more method, in the group it belongs to or in one of its own. -/
def insert (m : Method) (groups : List Overloads) : List Overloads :=
  if groups.any (·.holds m) then
    modifyFirst (·.holds m) (fun o => { o with others := o.others ++ [m] }) groups
  else groups ++ [⟨m, []⟩]

/-- The methods by name and binding, in order of first appearance. -/
def group (methods : List Method) : List Overloads :=
  methods.foldl (fun groups m => insert m groups) []

end Overloads

def isArgument (location : ParameterLocation) (wire : String) (p : Parameter) : Bool :=
  p.location == location && p.effectiveWireName == wire

/-- An argument used in one more set; one that comes in two types takes any value. -/
def shareArgument (set : String) (mandatory : Bool) (type : ParameterType) (p : Parameter) :
    Parameter :=
  let joined := p.joinSet set mandatory
  { joined with type := if joined.type = type then joined.type else .object }

/-- The command with an argument of the overload that has the given set. -/
def mergeArgument (c : Command) (set : String) (location : ParameterLocation) (wire : String)
    (type : ParameterType) (mandatory : Bool) : Except Fault Command :=
  if c.parameters.any (isArgument location wire) then
    .ok { c with
      parameters :=
        modifyFirst (isArgument location wire) (shareArgument set mandatory type) c.parameters }
  else
    let plain : Parameter :=
      { name := fieldName c wire "Parameter", type := type, location := location }
    let own := (plain.withWireName wire).inSets [set]
    c.addParameter (if mandatory then own.asMandatory else own)

def mergeArguments (g : Graph) (set : String) (location : ParameterLocation) :
    Command → List MethodParameter → Except Fault Command
  | c, [] => .ok c
  | c, p :: rest =>
    match g.parameterType p.type p.isCollection with
    | .error fault => .error fault
    | .ok type =>
      match mergeArgument c set location p.name type (!p.nullable) with
      | .error fault => .error fault
      | .ok merged => mergeArguments g set location merged rest

/-- The name of the set of an overload: that of the method, and if there are several that of the
arguments behind it. -/
def overloadSet (c : Command) (several : Bool) (m : Method) : String :=
  let name := Naming.pascalCase m.name
  if several then
    let stem := name ++ String.join (m.parameters.map fun p => Naming.pascalCase p.name)
    Naming.freshName stem c.setNames
  else name

/-- The command with the sets and arguments of the overloads, and the candidates for the
default. -/
def mergeOverloads (g : Graph) (several : Bool) (location : ParameterLocation) :
    Command → List Method → Except Fault (Command × List Selection.Candidate)
  | c, [] => .ok (c, [])
  | c, m :: rest => do
    let set := overloadSet c several m
    let c ← c.addSet { name := set }
    let c ← mergeArguments g set location c m.parameters
    let (c, candidates) ← mergeOverloads g several location c rest
    let mandatory := m.parameters.countP (!·.nullable)
    return (c, ⟨set, mandatory, m.parameters.length⟩ :: candidates)

/-- The command with those options whose names no argument has. -/
def addMissingOptions (c : Command) : List Parameter → Except Fault Command
  | [] => .ok c
  | p :: rest =>
    if (c.parameter? p.name).isSome then addMissingOptions c rest
    else
      match c.addParameter p with
      | .error fault => .error fault
      | .ok added => addMissingOptions added rest

/-- How methods of a kind are invoked. -/
def invocation : MethodKind → OperationKind × HttpMethod × ParameterLocation
  | .action => (.action, .post, .body)
  | .function => (.function, .get, .functionArgument)

def kindWord : MethodKind → String
  | .action => "action"
  | .function => "function"

/-- The qualified name of the class that a method yields, if it yields one. -/
def resultType (g : Graph) (m : Method) : Except Fault (Option String) :=
  match m.returns with
  | some r =>
    match r.type with
    | .structured id => (g.qualifiedName id).map some
    | _ => .ok none
  | none => .ok none

/-- The command with the sets and arguments of the overloads, the best of the sets as its
default. -/
def withOverloads (g : Graph) (o : Overloads) (c : Command) : Except Fault Command := do
  let (_, _, location) := invocation o.first.kind
  let (c, candidates) ← mergeOverloads g (!o.others.isEmpty) location c o.toList
  match Selection.selectDefault candidates with
  | some best => c.setDefault best.name
  | none => .ok c

/-- The command with the query options, if the method is a function that yields a collection. -/
def withResultOptions (m : Method) (c : Command) : Except Fault Command :=
  if m.kind == .function && m.returnsCollection then addMissingOptions c collectionOptions
  else .ok c

def invoke (t : Target) (o : Overloads) : Except Fault Command := do
  let m := o.first
  unless o.others.all (·.kind == m.kind) do
    throw (.schema ((← t.graph.typeName t.property.type) ++ "." ++ m.name) .mixedOverloads)
  let onItem := !m.boundToCollection && t.property.isCollection
  let url :=
    t.route.urlTemplate (if onItem then .mandatory else .omitted) ++ "/" ++ t.graph.qualify m.name
  let (operation, method, _) := invocation m.kind
  let c ← t.command .invoke (Naming.pascalCase m.name ++ t.noun) operation method url
  let resourceType ← resultType t.graph m
  let c := { c with resourceType := resourceType, description := m.description }
  let c ← c.addParameters (pathParameters onItem t.route.segments)
  let c := if onItem then { c with idParameter := t.route.terminalId.map (·.name) } else c
  let c ← withOverloads t.graph o c
  let c ← withResultOptions m c
  return { c with summary := "Invoke " ++ kindWord m.kind ++ " " ++ m.name }

/-- Whether a group of methods can be invoked on the resource: those of a collection on a
collection, those of an item on an item that has an address. -/
def isInvocable (isCollection isEntityCollection : Bool) (o : Overloads) : Bool :=
  if o.first.boundToCollection then isCollection
  else !isCollection || isEntityCollection

def invocations (t : Target) (target : ClassId) : Except Fault (List Command) := do
  let ids ← t.graph.allMethods target t.config.includeInheritedMethods
  let methods ← ids.mapM t.graph.methodAt
  let isEntityCollection ← t.isEntityCollection
  let groups := (Overloads.group methods).filter
    (isInvocable t.property.isCollection isEntityCollection)
  groups.mapM (invoke t)

end Synthesis
end EdmCommands
