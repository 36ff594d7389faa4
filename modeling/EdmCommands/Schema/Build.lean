import EdmCommands.Naming
import EdmCommands.Schema.Hierarchy

/-!
# EdmCommands.Schema.Build

The operations that build a schema graph. Each checks what it adds and answers with the grown
graph or a fault; none leaves a graph half changed. Together they keep type names distinct,
inheritance free of cycles, and every property name distinct along each chain of bases.
-/

namespace EdmCommands
namespace Schema
namespace Graph

variable (g : Graph)

/-- Adds a class; its name must be free among the classes. -/
def addClass (c : StructuredType) : Except Fault (Graph × ClassId) :=
  match g.findClass c.name with
  | some _ => .error (.schema c.name .duplicateClass)
  | none => .ok ({ g with classes := g.classes.push c }, ⟨g.classes.size⟩)

/-- Adds an enumeration; its name must be free among all types. -/
def addEnum (e : EnumType) : Except Fault (Graph × EnumId) :=
  if (g.findClass e.name).isSome || (g.findEnum e.name).isSome then
    .error (.schema e.name .duplicateType)
  else .ok ({ g with enums := g.enums.push e }, ⟨g.enums.size⟩)

/-- Whether following bases from `cursor` leads to `goal`. -/
def leadsTo (goal : ClassId) : Nat → Option ClassId → Bool
  | _, none => false
  | 0, some current => current == goal
  | fuel + 1, some current =>
    if current == goal then true
    else
      match g.classes[current.index]? with
      | some c => leadsTo goal fuel c.base
      | none => false

def propertyNames (ids : List PropertyId) : List String :=
  ids.filterMap fun id => g.properties[id.index]?.map (·.name)

/-- The first property of the classes, in order, whose name is in `names`. -/
def firstNamedIn (names : List String) (ids : List PropertyId) : Option PropertyId :=
  ids.find? fun id => (g.properties[id.index]?).any (names.contains ·.name)

/-- The graph with `derived` linked under `base` in place of the base it had. -/
def relink (derived base : ClassId) (previous : Option ClassId) : Graph :=
  let unlinked := match previous with
    | some p =>
      g.classes.modify p.index fun c => { c with derived := c.derived.filter (· ≠ derived) }
    | none => g.classes
  let based := unlinked.modify derived.index fun c => { c with base := some base }
  { g with
    classes := based.modify base.index fun c => { c with derived := c.derived ++ [derived] } }

/-- Makes `derived` a class derived from `base`. Refused when that closes a cycle, and when a class
below declares a property that one above declares too. -/
def setBase (derived base : ClassId) : Except Fault Graph := do
  let d ← g.classAt derived
  let b ← g.classAt base
  if g.leadsTo derived (g.classes.size + 1) (some base) then
    throw (.schema d.name .baseCycle)
  let above ← g.ancestors base
  let inherited ← g.gather (·.properties) (base :: above)
  let below ← g.descendants derived
  let declared ← g.gather (·.properties) (derived :: below)
  match g.firstNamedIn (g.propertyNames inherited) declared with
  | some clash =>
    let name ← g.canonicalName clash
    throw (.schema name (.redeclares b.name))
  | none => return g.relink derived base d.base

/-- The first of the classes that declares the name, and the property that does. -/
def firstDeclaring (name : String) : List ClassId → Except Fault (Option (ClassId × PropertyId))
  | [] => .ok none
  | id :: rest =>
    match g.classAt id with
    | .error fault => .error fault
    | .ok c =>
      match g.firstNamedIn [name] c.properties with
      | some clash => .ok (some (id, clash))
      | none => firstDeclaring name rest

/-- Adds a property to a class. Its name must be free on the class, above it and below it. -/
def addProperty (id : ClassId) (p : Property) : Except Fault (Graph × PropertyId) := do
  let owner ← g.classAt id
  let above ← g.ancestors id
  let below ← g.descendants id
  match ← g.firstDeclaring p.name (id :: (above ++ below)) with
  | some (other, clash) =>
    let location := owner.name ++ "." ++ p.name
    if other = id then throw (.schema location .duplicateProperty)
    else
      let name ← g.canonicalName clash
      throw (.schema location (.sameNameAs name))
  | none =>
    let added : PropertyId := ⟨g.properties.size⟩
    let grown :=
      { g with
        properties := g.properties.push { p with owner := .structured id }
        classes := g.classes.modify id.index fun c =>
          { c with properties := c.properties ++ [added] } }
    return (grown, added)

/-- Adds an entity set or a singleton to the container. -/
def addContainerProperty (p : Property) : Except Fault (Graph × PropertyId) :=
  match g.firstNamedIn [p.name] g.container.properties with
  | some _ => .error (.schema (g.container.name ++ "." ++ p.name) .duplicateContainerProperty)
  | none =>
    let added : PropertyId := ⟨g.properties.size⟩
    let container := { g.container with properties := g.container.properties ++ [added] }
    .ok ({ g with
      properties := g.properties.push { p with owner := .container }
      container := container }, added)

/-- Adds a method to a class; the names of its parameters must be distinct. -/
def addMethod (id : ClassId) (m : Method) : Except Fault (Graph × MethodId) := do
  let owner ← g.classAt id
  match Naming.firstRepeated [] (m.parameters.map (·.name)) with
  | some name =>
    throw (.schema (owner.name ++ "." ++ m.name) (.duplicateMethodParameter name))
  | none =>
    let added : MethodId := ⟨g.methods.size⟩
    let grown :=
      { g with
        methods := g.methods.push { m with declaring := id }
        classes := g.classes.modify id.index fun c =>
          { c with methods := c.methods ++ [added] } }
    return (grown, added)

end Graph
end Schema
end EdmCommands
