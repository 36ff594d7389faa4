import EdmCommands.Config
import EdmCommands.Host
import EdmCommands.Json.Reader
import EdmCommands.Schema.OfDocument
import EdmCommands.Yaml.Reader

/-!
# EdmCommands.Loading

Settings and schema documents from text and from files. A file is YAML when its name says so and
JSON otherwise.

* `Config.ofText`, `Config.load`: the settings, which must fit together.
* `Format.ofPath`: the format of a file by its name.
* `Document.ofText`, `Document.load`, `Schema.Graph.ofText`: a schema document and its graph.
-/

namespace EdmCommands

variable {m : Type → Type} [Monad m] [Host m]

/-- The settings in a text, or why they are refused; `unreadable` is the fault of a text that is no
document of settings. -/
def Config.ofTextWith (unreadable : DocFault → Fault) (text : String) : Except Fault Config :=
  match Yaml.decodeText Config.decode text with
  | .error fault => .error (unreadable fault)
  | .ok config => config.validate.map fun _ => config

def Config.ofText (text : String) : Except Fault Config :=
  Config.ofTextWith .yaml text

def Config.load (path : String) : ExceptT Fault m Config := do
  let text ← Host.attempt (Host.readFile path) fun reason => .config (.unreadable path reason)
  ExceptT.mk (pure (Config.ofTextWith (fun fault => .config (.document path fault)) text))

/-- The last name of a path, unless that leads upwards. -/
def Host.fileName? (path : String) : Option String :=
  (Host.pathNames path).getLast?.filter (· != "..")

/-- What follows the last dot of a file name; a dot in front of the name does not count. -/
def Host.extension? (path : String) : Option String :=
  match Host.fileName? path with
  | none => none
  | some name =>
    let cs := name.toList
    let ending := (cs.reverse.takeWhile (· != '.')).reverse
    if ending.length + 1 < cs.length then some (String.ofList ending) else none

def Format.ofPath (path : String) : Format :=
  if Host.extension? path == some "yaml" || Host.extension? path == some "yml" then .yaml
  else .json

def Document.ofText (format : Format) (text : String) : Except Fault Document :=
  let document := match format with
    | .json => Json.decodeText Document.decode text
    | .yaml => Yaml.decodeText Document.decode text
  document.mapError fun fault => .parse (.document format fault)

/-- The schema document in a file, in the given format or that of its name. -/
def Document.load (path : String) (format : Option Format) : ExceptT Fault m Document := do
  let text ← Host.attempt (Host.readFile path) fun reason => .parse (.unreadable path reason)
  ExceptT.mk (pure (Document.ofText (format.getD (Format.ofPath path)) text))

def Schema.Graph.ofText (format : Format) (text : String) : Except Fault Schema.Graph :=
  (Document.ofText format text).bind Schema.Graph.ofDocument

end EdmCommands
