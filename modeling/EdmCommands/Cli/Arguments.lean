import EdmCommands.Fault
import EdmCommands.Text.Trim

/-!
# EdmCommands.Cli.Arguments

The arguments of the command line. One of three subcommands is named; options may be written with
their long name or one letter, their values behind an equals sign, behind the letter or as the next
argument. The settings file and the verbose flag may stand before or behind the subcommand, and
what stands behind it counts.

Arguments are taken in order, so that a request for help is answered when nothing before it is
wrong, whatever is missing. The value of an option is looked at when the next option begins or the
arguments end.

* `Invocation`: what is asked for.
* `Arguments.read`: the invocation that the arguments spell, or why there is none.
-/

namespace EdmCommands
namespace Cli

inductive EmitChoice where
  | json
  | docs
  /-- Both, and the list of routes. -/
  | all
deriving Repr, DecidableEq

/-- What to do with a schema. -/
inductive Task where
  | routes
  | commands (route : Option String)
  | generate (emit : EmitChoice) (output : String)
deriving Repr, DecidableEq

/-- What is asked for on the command line. -/
structure Invocation where
  config : Option String := none
  verbose : Bool := false
  schema : String
  format : Option Format := none
  task : Task
deriving Repr, DecidableEq

/-- Why the arguments ask for nothing to be done. -/
inductive Stop where
  | help
  | version
  | misuse
deriving Repr, DecidableEq

inductive Flag where
  | config
  | verbose
  | schema
  | format
  | route
  | emit
  | output
  | help
  | version
deriving Repr, DecidableEq

inductive Subcommand where
  | routes
  | commands
  | generate
deriving Repr, DecidableEq

def Subcommand.name : Subcommand → String
  | .routes => "routes"
  | .commands => "commands"
  | .generate => "generate"

def Subcommand.ofName? (s : String) : Option Subcommand :=
  [Subcommand.routes, .commands, .generate].find? (·.name == s)

namespace Flag

/-- The long name, written behind two hyphens. -/
def name : Flag → String
  | .config => "config"
  | .verbose => "verbose"
  | .schema => "schema"
  | .format => "format"
  | .route => "route"
  | .emit => "emit"
  | .output => "output"
  | .help => "help"
  | .version => "version"

/-- The letter, written behind one hyphen. -/
def letter : Flag → Char
  | .config => 'c'
  | .verbose => 'v'
  | .schema => 's'
  | .format => 'f'
  | .route => 'r'
  | .emit => 'e'
  | .output => 'o'
  | .help => 'h'
  | .version => 'V'

def takesValue : Flag → Bool
  | .verbose | .help | .version => false
  | _ => true

def format? : String → Option Format
  | "json" => some .json
  | "yaml" => some .yaml
  | _ => none

def emitChoice? : String → Option EmitChoice
  | "json" => some .json
  | "docs" => some .docs
  | "all" => some .all
  | _ => none

/-- Whether the option can have that value. A path is not empty. -/
def allows : Flag → String → Bool
  | .config, value | .schema, value | .output, value => !value.isEmpty
  | .format, value => (format? value).isSome
  | .emit, value => (emitChoice? value).isSome
  | _, _ => true

/-- The options of a subcommand, or those before any. -/
def available : Option Subcommand → List Flag
  | none => [.config, .verbose, .help, .version]
  | some .routes => [.schema, .format, .config, .verbose, .help]
  | some .commands => [.schema, .format, .route, .config, .verbose, .help]
  | some .generate => [.schema, .format, .emit, .output, .config, .verbose, .help]

end Flag

/-- The options read so far, and the last one as long as its value is not looked at. -/
structure Arguments where
  given : List (Flag × String) := []
  pending : Option (Flag × Option String) := none
deriving Repr, DecidableEq

namespace Arguments

def value? (a : Arguments) (flag : Flag) : Option String :=
  a.given.lookup flag

/-- Takes an option with its value; none may be given twice. -/
def accept (a : Arguments) (flag : Flag) (value : String) : Except Stop Arguments :=
  if (a.value? flag).isSome || !flag.allows value then .error .misuse
  else .ok { a with given := (flag, value) :: a.given }

/-- Takes the option whose value was not looked at yet. -/
def settle (a : Arguments) : Except Stop Arguments :=
  match a.pending with
  | none => .ok a
  | some (_, none) => .error .misuse
  | some (flag, some value) => ({ a with pending := none } : Arguments).accept flag value

/-- Whether the next argument can only be a value. -/
def awaitsValue (a : Arguments) : Bool :=
  a.pending.any fun (_, value) => value.isNone

/-- Takes an option without a value. -/
def raise (a : Arguments) (flag : Flag) : Except Stop Arguments :=
  match a.settle with
  | .error stop => .error stop
  | .ok settled =>
    match flag with
    | .help => .error .help
    | .version => .error .version
    | other => settled.accept other ""

/-- Takes an option with the value attached to it, or waits for its value. -/
def begin (a : Arguments) (flag : Flag) (attached : Option String) : Except Stop Arguments :=
  match a.settle, attached with
  | .error stop, _ => .error stop
  | .ok settled, some value => settled.accept flag value
  | .ok settled, none => .ok { settled with pending := some (flag, none) }

/-- Takes an option by its long name, and what stands behind an equals sign. -/
def readLong (flags : List Flag) (a : Arguments) (text : List Char) : Except Stop Arguments :=
  let name := String.ofList (text.takeWhile (· != '='))
  let attached := match text.dropWhile (· != '=') with
    | _ :: value => some (String.ofList value)
    | [] => none
  match flags.find? (·.name == name) with
  | none => .error .misuse
  | some flag =>
    if flag.takesValue then a.begin flag attached
    else if attached.isSome then .error .misuse
    else a.raise flag

/-- Takes options by their letters. The first that has a value takes the rest for it. -/
def readLetters (flags : List Flag) : Arguments → List Char → Except Stop Arguments
  | a, [] => .ok a
  | a, c :: rest =>
    match flags.find? (·.letter == c) with
    | none => .error .misuse
    | some flag =>
      if flag.takesValue then
        match rest with
        | [] => a.begin flag none
        | '=' :: value => a.begin flag (some (String.ofList value))
        | value => a.begin flag (some (String.ofList value))
      else
        match a.raise flag with
        | .error stop => .error stop
        | .ok next => readLetters flags next rest

/-- Takes one argument that names no subcommand. -/
def readOne (flags : List Flag) (a : Arguments) (arg : String) : Except Stop Arguments :=
  match arg.toList with
  | '-' :: '-' :: text => readLong flags a text
  | '-' :: c :: letters => readLetters flags a (c :: letters)
  | _ =>
    match a.pending with
    | some (flag, none) => .ok { a with pending := some (flag, some arg) }
    | _ => .error .misuse

/-- Takes all arguments of a subcommand. Nothing may follow two lone hyphens. -/
def readAll (flags : List Flag) : Arguments → List String → Except Stop Arguments
  | a, [] => a.settle
  | a, arg :: rest =>
    if arg == "--" then
      if rest.isEmpty then a.settle else .error .misuse
    else
      match a.readOne flags arg with
      | .error stop => .error stop
      | .ok next => readAll flags next rest

/-- Whether help can be asked for by these names; help itself can be the first. -/
def helpTopic : List String → Bool
  | [] => true
  | ["help"] => true
  | ["help", name] => (Subcommand.ofName? name).isSome
  | [name] => (Subcommand.ofName? name).isSome
  | _ => false

/-- The invocation of the options before the subcommand and those behind it. -/
def invocation (before behind : Arguments) (subcommand : Subcommand) : Except Stop Invocation :=
  match behind.value? .schema with
  | none => .error .misuse
  | some schema =>
    .ok {
      config := (behind.value? .config).or (before.value? .config)
      verbose := (behind.value? .verbose).isSome || (before.value? .verbose).isSome
      schema := schema
      format := (behind.value? .format).bind Flag.format?
      task := match subcommand with
        | .routes => .routes
        | .commands => .commands (behind.value? .route)
        | .generate =>
          .generate (((behind.value? .emit).bind Flag.emitChoice?).getD .all)
            ((behind.value? .output).getD "./output") }

/-- The invocation, from the options before the subcommand on. -/
def readFrom : Arguments → List String → Except Stop Invocation
  | _, [] => .error .misuse
  | before, arg :: rest =>
    match if before.awaitsValue then none else Subcommand.ofName? arg with
    | some subcommand =>
      match readAll (Flag.available (some subcommand)) {} rest with
      | .error stop => .error stop
      | .ok behind =>
        match invocation before behind subcommand with
        | .error stop => .error stop
        | .ok _ => before.settle.bind fun settled => invocation settled behind subcommand
    | none =>
      if !before.awaitsValue && arg == "help" then
        if helpTopic rest then .error .help else .error .misuse
      else if arg == "--" then .error .misuse
      else
        match before.readOne (Flag.available none) arg with
        | .error stop => .error stop
        | .ok next => readFrom next rest

/-- The invocation that the arguments spell. -/
def read (args : List String) : Except Stop Invocation :=
  readFrom {} args

end Arguments
end Cli
end EdmCommands
