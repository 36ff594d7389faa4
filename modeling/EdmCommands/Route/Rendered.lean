import EdmCommands.Naming
import EdmCommands.Route.Tree
import EdmCommands.Schema.ParameterType

/-!
# EdmCommands.Route.Rendered

A route with the names of its segments and placeholders. An entity collection is followed by a
placeholder for the identifier of one of its entities, a cast segment by one for the derived type.
Placeholders are named after their segment and differ from each other along the route.

* `Rendered.ofNode`: the names of a route in the tree.
* `Rendered.urlTemplate`: the address with placeholders in braces, with the identifier of the last
  segment left out, required or optional.
* `Rendered.filePath`, `Rendered.noun`: the segment names alone.
-/

namespace EdmCommands
namespace Route

open Schema

structure IdPlaceholder where
  name : String
  keyName : String
  keyType : ParameterType
deriving Repr, DecidableEq

structure TypecastPlaceholder where
  name : String
  castType : String
deriving Repr, DecidableEq

structure Segment where
  name : String
  id : Option IdPlaceholder := none
  typecast : Option TypecastPlaceholder := none
deriving Repr, DecidableEq

structure Rendered where
  segments : List Segment
deriving Repr, DecidableEq

/-- How the identifier of the last segment is written. -/
inductive TerminalId where
  /-- Not at all: the collection itself is addressed. -/
  | omitted
  | mandatory
  /-- The collection is addressed when no identifier is given. -/
  | optional
deriving Repr, DecidableEq

/-- What the placeholders of a segment are named after. -/
def stem (segmentName : String) : String :=
  Naming.pascalCase (Naming.singular segmentName)

/-- The identifier placeholder of a property that is an entity collection. -/
def idPlaceholder (g : Graph) (config : Config) (taken : List String) (id : PropertyId)
    (p : Property) : Except Fault IdPlaceholder := do
  let .structured target := p.type
    | throw (.schema (← g.canonicalName id) .identifierNotClass)
  let some keyId ← g.keyProperty target
    | throw (.schema (← g.canonicalName id) .missingKey)
  let key ← g.propertyAt keyId
  let keyType ← g.parameterType key.type false
  return {
    name := Naming.freshName (stem p.name ++ config.idSuffix) taken
    keyName := key.name
    keyType := keyType }

def typecastPlaceholder (g : Graph) (config : Config) (taken : List String) (p : Property)
    (cast : Cast) : Except Fault TypecastPlaceholder := do
  let target ← g.classAt cast.target
  let castStem := if cast.byType then Naming.pascalCase target.name else stem p.name
  return {
    name := Naming.freshName (castStem ++ config.typecastSuffix) taken
    castType := g.qualify target.name }

/-- The segments of the steps, where the first is number `index` of the route and `taken` holds the
placeholders before it. -/
def renderFrom (g : Graph) (config : Config) (idSegments : List Nat) :
    (index : Nat) → (taken : List String) → List Step → Except Fault (List Segment)
  | _, _, [] => .ok []
  | index, taken, step :: rest => do
    let p ← g.propertyAt step.property
    let id ←
      if idSegments.contains index then
        (idPlaceholder g config taken step.property p).map some
      else pure none
    let taken := taken ++ (id.map (·.name)).toList
    let typecast ← match rest.head?.bind (·.cast) with
      | some cast => (typecastPlaceholder g config taken p cast).map some
      | none => pure none
    let taken := taken ++ (typecast.map (·.name)).toList
    let others ← renderFrom g config idSegments (index + 1) taken rest
    return ⟨p.name, id, typecast⟩ :: others

namespace Rendered

def ofNode (g : Graph) (config : Config) (n : Node) : Except Fault Rendered :=
  (renderFrom g config n.idSegments 0 [] n.steps).map Rendered.mk

variable (r : Rendered)

def depth : Nat :=
  r.segments.length

def isTopLevel : Bool :=
  r.segments.length == 1

def terminal : Option Segment :=
  r.segments.getLast?

def terminalName : String :=
  (r.terminal.map (·.name)).getD ""

def terminalId : Option IdPlaceholder :=
  r.terminal.bind (·.id)

def placeholder (name : String) : String :=
  "\x7b" ++ name ++ "\x7d"

/-- A placeholder in braces that may stay empty. -/
def optionalPlaceholder (name : String) : String :=
  "\x7b" ++ name ++ " ?? \"\"\x7d"

def idToken (isLast : Bool) (terminal : TerminalId) (id : IdPlaceholder) : List String :=
  if !isLast then [placeholder id.name]
  else
    match terminal with
    | .mandatory => [placeholder id.name]
    | .optional => [optionalPlaceholder id.name]
    | .omitted => []

def urlParts (terminal : TerminalId) : List Segment → List String
  | [] => []
  | s :: rest =>
    s.name :: ((s.id.map (idToken rest.isEmpty terminal)).getD [] ++
      (s.typecast.map fun t => placeholder t.name).toList ++ urlParts terminal rest)

/-- The address below the root of the service. -/
def urlTemplate (terminal : TerminalId) : String :=
  "/".intercalate (urlParts terminal r.segments)

def text : String :=
  r.urlTemplate .mandatory

/-- The segment names joined by slashes. -/
def filePath : String :=
  "/".intercalate (r.segments.map (·.name))

/-- The segment names as one noun. -/
def noun : String :=
  String.join (r.segments.map fun s => Naming.pascalCase s.name)

end Rendered
end Route
end EdmCommands
