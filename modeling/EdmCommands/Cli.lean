import EdmCommands.Cli.Arguments
import EdmCommands.Emission
import EdmCommands.Loading

/-!
# EdmCommands.Cli

The program on the command line: it lists the routes of a schema, lists the commands, or writes
them to a directory. What goes well is said line by line; what goes wrong ends the run with a
report that names the step and the cause.

* `Cli.run`: one run, by its arguments.
* `Failure.report`: the text of a failed run.
-/

namespace EdmCommands
namespace Cli

/-- The steps of a run that can fail. -/
inductive Stage where
  | settings (path : String)
  | document
  | resolution
  | generation
  | routeList
deriving Repr, DecidableEq

structure Failure where
  stage : Stage
  cause : Fault
deriving Repr, DecidableEq

def Stage.message : Stage → String
  | .settings path => "Failed to load config " ++ path
  | .document => "Failed to load schema document"
  | .resolution => "Failed to resolve schema"
  | .generation => "Failed to generate commands"
  | .routeList => "Failed to write routes"

namespace Failure

/-- The texts of a fault and of what is behind it. -/
def causes : Fault → List String
  | .io reason => [(Fault.io reason).message, reason.message]
  | fault => [fault.message]

/-- A text whose first line is behind `start`; the others are indented by `margin`. -/
def indented (start margin text : String) : String :=
  start ++ ("\n" ++ margin).intercalate (text.splitOn "\n")

/-- One cause stands alone; several are numbered. -/
def causeLines : List String → List String
  | [only] => [indented "    " "    " only]
  | several =>
    several.zipIdx.map fun (text, i) => indented ("    " ++ toString i ++ ": ") "       " text

def report (f : Failure) : String :=
  "\n".intercalate
    (["Error: " ++ f.stage.message, "", "Caused by:"] ++ causeLines (causes f.cause))

end Failure

/-- How a run ends. -/
inductive Outcome where
  | done
  | failed (failure : Failure)
  /-- The arguments make no sense. -/
  | misused
deriving Repr, DecidableEq

def Outcome.code : Outcome → Nat
  | .done => 0
  | .failed _ => 1
  | .misused => 2

variable {m : Type → Type} [Monad m] [Host m]

def sayAll (lines : List String) : ExceptT Failure m Unit :=
  ExceptT.lift (lines.forM Host.say)

def during {α : Type} (stage : Stage) (step : ExceptT Fault m α) : ExceptT Failure m α :=
  ExceptT.mk do
    match ← step.run with
    | .ok a => return .ok a
    | .error cause => return .error ⟨stage, cause⟩

/-- A step of a run without effects. -/
def pureStep {α : Type} (result : Except Fault α) : ExceptT Fault m α :=
  ExceptT.mk (pure result)

def loadConfig : Option String → ExceptT Failure m Config
  | some path => during (.settings path) (Config.load path)
  | none => return {}

def loadGraph (i : Invocation) : ExceptT Failure m Schema.Graph := do
  sayAll ["→ Loading schema: " ++ i.schema]
  let document ← during .document (Document.load i.schema i.format)
  let g ← during .resolution (pureStep (Schema.Graph.ofDocument document))
  sayAll
    ["✓ Loaded " ++ toString g.classes.size ++ " types from namespace " ++ g.namespaceName]
  return g

def generate (g : Schema.Graph) (config : Config) : ExceptT Failure m Generation.Output :=
  during .generation (pureStep (Generation.run g config))

/-- The list of routes, each indented by its depth. -/
def routeLines (output : Generation.Output) : List String :=
  ["", "Routes (" ++ toString output.routes.length ++ "):"] ++
    output.routes.map fun r => String.join (List.replicate r.depth "  ") ++ r.text

/-- A parameter of a set, with a mark when it must be given. -/
def parameterLine (set : String) (p : Parameter) : String :=
  "        -" ++ p.name ++ (if p.isMandatoryIn set then "*" else "") ++
    " [" ++ p.type.display ++ "]"

def setLines (c : Command) : List String :=
  c.sets.flatMap fun s =>
    ("      " ++ s.name ++ (if s.isDefault then " (default)" else "")) ::
      (c.parametersIn s.name).map (parameterLine s.name)

/-- A command of a route, with its sets if they are wanted. -/
def commandLines (verbose : Bool) (c : Command) : List String :=
  ("  • " ++ c.name.full ++ " " ++ c.httpMethod.name ++ " " ++ c.urlTemplate) ::
    (if verbose then setLines c else [])

def isWanted (filter : Option String) (route : Route.Rendered) : Bool :=
  filter.all fun start => Config.isUnder start route.filePath

def listing (output : Generation.Output) (filter : Option String) (verbose : Bool) : List String :=
  let shown := (Generation.commandsByRoute output).filter fun (route, _) => isWanted filter route
  let count := (shown.flatMap fun (_, commands) => commands).length
  (shown.flatMap fun (route, commands) =>
    ["", route.text] ++ commands.flatMap (commandLines verbose)) ++
  ["", "✓ " ++ toString count ++ " commands"]

def EmitChoice.emitters : EmitChoice → List Emitter
  | .json => [.json]
  | .docs => [.docs]
  | .all => [.json, .docs]

/-- Whether a path names a file that is in the directory itself. -/
def isDirectlyIn (directory path : String) : Bool :=
  (Host.pathNames path).dropLast == Host.pathNames directory

/-- What was written, with the files of the output directory itself. -/
def writtenLines (directory : String) (written : List String) : List String :=
  ["", "✓ Generation complete!", "", "Generated files:",
    "  " ++ toString written.length ++ " files in " ++ directory] ++
  (written.filter (isDirectlyIn directory)).map fun path => "  📄 " ++ path

def writeAll (g : Schema.Graph) (config : Config) (emit : EmitChoice) (directory : String) :
    ExceptT Failure m Unit := do
  sayAll ["→ Generating commands..."]
  let output ← generate g config
  let pages ← during .generation (Emission.emitAll emit.emitters output.commands directory)
  sayAll
    ["✓ " ++ toString output.routes.length ++ " routes, " ++ toString output.commands.length ++
      " commands"]
  let list ←
    if emit = .all then
      (during .routeList (Emission.writeRouteList output directory)).map ([·])
    else pure []
  sayAll (writtenLines directory (pages ++ list))

def perform (i : Invocation) : ExceptT Failure m Unit := do
  let config ← loadConfig i.config
  let g ← loadGraph i
  match i.task with
  | .routes => sayAll (routeLines (← generate g config))
  | .commands filter => sayAll (listing (← generate g config) filter i.verbose)
  | .generate emit directory => writeAll g config emit directory

def versionLine : String :=
  "odata-cmdgen 0.1.0"

/-- One run of the program. -/
def run (args : List String) : m Outcome := do
  match Arguments.read args with
  | .error .misuse => return .misused
  | .error .help => return .done
  | .error .version =>
    Host.say versionLine
    return .done
  | .ok i =>
    match ← (perform i).run with
    | .ok () => return .done
    | .error failure => return .failed failure

end Cli
end EdmCommands
