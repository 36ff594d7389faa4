import EdmCommands.Route.Codec
import EdmCommands.Synthesis

/-!
# EdmCommands.Generation

From a schema to all its commands: the routes, the commands of each, names that are distinct, and
links from reference commands to the commands that address what they can point at.

* `Generation.run`: all of it, under settings that fit together.
* `Generation.distinctNames`: a later command of the same name gets a number behind its noun.
* `Generation.linkReferences`: the nearest type along the bases whose entities a command addresses.
-/

namespace EdmCommands
namespace Generation

open Schema
open Route (Rendered)

structure Output where
  routes : List Rendered
  commands : List Command
deriving DecidableEq

/-- The commands of a rendered route, which obey the rules of the command model. -/
def routeCommands (g : Graph) (config : Config) (route : Rendered) (property : PropertyId) :
    Except Fault (List Command) := do
  let commands ← (Synthesis.commands g config route property).mapError (Fault.onRoute route.text)
  commands.forM Command.validate
  return commands

/-- The routes of the nodes, each with its commands; `seen` are the routes before them. -/
def renderNodes (g : Graph) (config : Config) (seen : List String) :
    List Route.Node → Except Fault (List (Rendered × List Command))
  | [] => .ok []
  | n :: rest => do
    let route ← Rendered.ofNode g config n
    if seen.contains route.text then
      throw (.generation (.routeTwice route.text))
    let commands ← routeCommands g config route n.step.property
    let others ← renderNodes g config (route.text :: seen) rest
    return (route, commands) :: others

/-- The commands with the later ones of a name renamed. `taken` are the names in use, `seen` those
of the commands before. -/
def renameRepeated (taken seen : List String) : List Command → List Command
  | [] => []
  | c :: rest =>
    if seen.contains c.name.full then
      let nouns := taken.filterMap fun full => Text.stripStart? (c.name.verb.name ++ "-") full
      let noun := Naming.freshName c.name.noun nouns
      let renamed := { c with name := ⟨c.name.verb, noun⟩ }
      renamed :: renameRepeated (renamed.name.full :: taken) (renamed.name.full :: seen) rest
    else c :: renameRepeated taken (c.name.full :: seen) rest

def distinctNames (commands : List Command) : List Command :=
  renameRepeated (commands.map fun c => c.name.full) [] commands

def resourceClass (g : Graph) (c : Command) : Option ClassId :=
  c.resourceType.bind g.findClass

/-- The commands that references can point at, each with its class. -/
def referenceable (g : Graph) (commands : List Command) : List (ClassId × String) :=
  commands.filterMap fun c =>
    if c.isReferenceable then (resourceClass g c).map fun id => (id, c.name.full) else none

/-- The name of the first entry for the first class in the chain that has one. -/
def nearestTarget (targets : List (ClassId × String)) (chain : List ClassId) : Option String :=
  chain.findSome? fun id => targets.lookup id

/-- A command with its link, if it is a reference command. -/
def linkReference (g : Graph) (targets : List (ClassId × String)) (c : Command) :
    Except Fault Command :=
  if c.operation == .postRef || c.operation == .deleteRef then
    match resourceClass g c with
    | none => .ok c
    | some id =>
      (g.ancestors id).map fun above =>
        { c with referenceTarget := nearestTarget targets (id :: above) }
  else .ok c

def linkReferences (g : Graph) (commands : List Command) : Except Fault (List Command) :=
  commands.mapM (linkReference g (referenceable g commands))

/-- The routes of a schema and their commands. -/
def run (g : Graph) (config : Config) : Except Fault Output := do
  config.validate
  let tree ← Route.Tree.build g config
  let blocks ← renderNodes g config [] tree.nodes
  let commands ← linkReferences g (distinctNames (blocks.flatMap (·.2)))
  return ⟨blocks.map (·.1), commands⟩

def commandsByRoute (output : Output) : List (Rendered × List Command) :=
  output.routes.map fun route => (route, output.commands.filter (·.route == route.text))

/-- The list of routes, one a line. -/
def routeList (output : Output) : String :=
  String.join (output.routes.map fun route => route.text ++ "\n")

end Generation
end EdmCommands
