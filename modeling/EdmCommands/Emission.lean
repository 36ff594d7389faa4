import EdmCommands.Command.Codec
import EdmCommands.Emission.Page
import EdmCommands.Generation
import EdmCommands.Host

/-!
# EdmCommands.Emission

Writing commands to a directory: all of them as one JSON file, as documentation, or both, and the
list of routes beside them.

* `Emission.emit`: one way of writing; the answer is the paths written, in order.
* `Emission.emitAll`: several ways in turn.
* `Emission.writeRouteList`: the routes, one a line.
-/

namespace EdmCommands

inductive Emitter where
  | json
  | docs
deriving Repr, DecidableEq

namespace Emission

variable {m : Type → Type} [Monad m] [Host m]

def commandsJson (commands : List Command) : String :=
  (Json.arr (commands.map Command.toJson)).pretty

def createDirectory (path : String) : ExceptT Fault m Unit :=
  Host.attempt (Host.createDirectories path) fun reason =>
    .generation (.createDirectory path reason)

/-- Writes a file in a directory. The answer is its path. -/
def writeIn (directory file content : String) (cause : SystemFault → Fault) :
    ExceptT Fault m String := do
  let path := Host.join directory file
  Host.attempt (Host.writeFile path content) cause
  return path

def emitJson (commands : List Command) (directory : String) : ExceptT Fault m (List String) := do
  createDirectory directory
  return [← writeIn directory "commands.json" (commandsJson commands) .io]

/-- Writes a page for each command, and the index. -/
def emitDocs (commands : List Command) (directory : String) : ExceptT Fault m (List String) := do
  let pages := Host.join directory "commands"
  createDirectory pages
  let written ← commands.mapM fun c =>
    let file := pageFile c.name.full
    writeIn pages file (page c) fun reason => .generation (.write file reason)
  let index ← writeIn directory "README.md" (index commands) fun reason =>
    .generation (.write "README.md" reason)
  return written ++ [index]

def emit (emitter : Emitter) (commands : List Command) (directory : String) :
    ExceptT Fault m (List String) :=
  match emitter with
  | .json => emitJson commands directory
  | .docs => emitDocs commands directory

/-- Writes the commands in several ways in turn. -/
def emitAll (emitters : List Emitter) (commands : List Command) (directory : String) :
    ExceptT Fault m (List String) := do
  let written ← emitters.mapM fun emitter => emit emitter commands directory
  return written.flatten

def writeRouteList (output : Generation.Output) (directory : String) : ExceptT Fault m String := do
  Host.attempt (Host.createDirectories directory) fun reason =>
    .generation (.createListDirectory reason)
  writeIn directory "routes.txt" (Generation.routeList output) fun reason =>
    .generation (.write "routes.txt" reason)

end Emission
end EdmCommands
