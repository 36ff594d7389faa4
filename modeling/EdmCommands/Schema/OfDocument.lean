import EdmCommands.Document
import EdmCommands.Edm.TypeName
import EdmCommands.Schema.Build

/-!
# EdmCommands.Schema.OfDocument

The schema graph of a document. Enumerations come first, then classes, so that bases and members
may name any type; then bases, properties, the container, methods, and last a look at the keys.
The first thing that does not fit stops the construction: leaving it out would silently lose
commands.

* `Graph.resolveType`: the type that a name stands for.
* `Graph.ofDocument`: the graph of a whole document.
-/

namespace EdmCommands
namespace Schema
namespace Graph

open Document (PropertyEntry MethodEntry ParameterEntry ClassEntry)

/-- The type of a name, and whether the name asks for a collection of it. Names in the namespace
of the primitive types are primitive or nothing. -/
def resolveType (g : Graph) (typeName location : String) : Except Fault (TypeRef × Bool) :=
  let name := Edm.TypeName.ofText typeName
  if Edm.isEdmName name.element then
    match Edm.Primitive.ofEdmName? name.element with
    | some p => .ok (.primitive p, name.isCollection)
    | none => .error (.schema location (.unsupportedPrimitive name.element))
  else
    match g.findClass name.element with
    | some id => .ok (.structured id, name.isCollection)
    | none =>
      match g.findEnum name.element with
      | some id => .ok (.enum id, name.isCollection)
      | none => .error (.schema location (.unknownType name.element))

def resolveProperty (g : Graph) (location : String) (entry : PropertyEntry) :
    Except Fault Property := do
  let (type, wrapped) ← g.resolveType entry.typeName location
  if entry.isReference then
    unless ← g.isEntityType type do
      throw (.schema location .referenceToValue)
  return {
    name := entry.name
    type := type
    isCollection := entry.isCollection || wrapped
    isComputed := entry.isComputed
    isImmutable := entry.isImmutable
    isReference := entry.isReference
    nullable := entry.nullable
    capabilities := entry.capabilities
    description := entry.description }

def resolveParameter (g : Graph) (location : String) (entry : ParameterEntry) :
    Except Fault MethodParameter := do
  let place := location ++ "(" ++ entry.name ++ ")"
  let (type, wrapped) ← g.resolveType entry.typeName place
  return {
    name := entry.name
    type := type
    isCollection := entry.isCollection || wrapped
    nullable := entry.nullable }

def resolveMethod (g : Graph) (location : String) (entry : MethodEntry) :
    Except Fault Method := do
  let parameters ← entry.parameters.mapM (g.resolveParameter location)
  let returns ← entry.returns.mapM fun r => do
    let (type, wrapped) ← g.resolveType r.typeName location
    return ({ type := type, isCollection := r.isCollection || wrapped } : MethodReturn)
  return {
    name := entry.name
    kind := entry.kind
    boundToCollection := entry.boundToCollection
    parameters := parameters
    returns := returns
    description := entry.description }

/-- Declares a class, still without base and members. -/
def declareClass (g : Graph) (entry : ClassEntry) : Except Fault Graph :=
  (g.addClass {
    name := entry.name
    kind := entry.kind
    isAbstract := entry.isAbstract
    key := entry.key
    description := entry.description }).map (·.1)

/-- Links a declared class under the base that its entry names. -/
def linkBase (g : Graph) (entry : ClassEntry) (id : ClassId) : Except Fault Graph :=
  match entry.base with
  | none => .ok g
  | some name =>
    match g.findClass name with
    | none => .error (.schema entry.name (.unknownBase name))
    | some base => g.setBase id base

def declareProperties (g : Graph) (entry : ClassEntry) (id : ClassId) : Except Fault Graph :=
  entry.properties.foldlM
    (fun g p => do
      let property ← g.resolveProperty (entry.name ++ "." ++ p.name) p
      return (← g.addProperty id property).1)
    g

def declareMethods (g : Graph) (entry : ClassEntry) (id : ClassId) : Except Fault Graph :=
  entry.methods.foldlM
    (fun g m => do
      let method ← g.resolveMethod (entry.name ++ "." ++ m.name) m
      return (← g.addMethod id method).1)
    g

def declareContainer (g : Graph) (entries : List PropertyEntry) : Except Fault Graph :=
  entries.foldlM
    (fun g p => do
      let property ← g.resolveProperty (g.container.name ++ "." ++ p.name) p
      return (← g.addContainerProperty property).1)
    g

/-- Checks that a key which an entry declares names a property of its class or a base. -/
def checkKey (g : Graph) (entry : ClassEntry) : Except Fault Unit :=
  match entry.key, g.findClass entry.name with
  | some _, some id => (g.keyProperty id).map fun _ => ()
  | _, _ => .ok ()

/-- Extends the graph for each class entry in turn; classes are in the order of their entries. -/
def forClasses (step : Graph → ClassEntry → ClassId → Except Fault Graph)
    (entries : List ClassEntry) (g : Graph) : Except Fault Graph :=
  entries.zipIdx.foldlM (fun g (entry, i) => step g entry ⟨i⟩) g

def ofDocument (doc : Document) : Except Fault Graph := do
  let g := Graph.empty doc.namespaceName doc.container.name
  let g ← doc.enums.foldlM
    (fun g e => do
      let (g, _) ← g.addEnum { name := e.name, members := e.members, isFlags := e.isFlags }
      return g)
    g
  let g ← doc.classes.foldlM declareClass g
  let g ← forClasses linkBase doc.classes g
  let g ← forClasses declareProperties doc.classes g
  let g ← declareContainer g doc.container.properties
  let g ← forClasses declareMethods doc.classes g
  doc.classes.forM g.checkKey
  return g

end Graph
end Schema
end EdmCommands
