import EdmCommands.Doc

/-!
# EdmCommands.Fault

Everything that can stop the way from a schema document to written commands. A fault is a cause
with the names it concerns; its wording is in `Fault.message`.

* `SchemaCause`: the schema graph is not well formed.
* `CommandCause`: a command breaks a rule of the command model.
* `ConfigCause`, `ParseCause`, `GenerationCause`: the settings, the schema document, the output.
* `SystemFault`: what the file system answers.
-/

namespace EdmCommands

/-- What the file system answers when it refuses. -/
inductive SystemFault where
  | notFound
  | exists
  | notDirectory
  | isDirectory
  | nameTooLong
  /-- A path holds the character that ends a path for the system. -/
  | zeroInName
  | notText
  | other (text : String)
deriving Repr, DecidableEq

inductive Table where
  | classes
  | properties
  | enums
  | methods
deriving Repr, DecidableEq

inductive SchemaCause where
  | duplicateClass
  | duplicateType
  | duplicateProperty
  | duplicateContainerProperty
  | duplicateMethodParameter (name : String)
  | sameNameAs (other : String)
  | redeclares (base : String)
  | baseCycle
  | reachedTwice
  | dangling (table : Table)
  | undeclaredKey (key : String)
  | unknownBase (name : String)
  | unsupportedPrimitive (name : String)
  | unknownType (name : String)
  | referenceToValue
  | keylessCollection (type : String)
  | identifierNotClass
  | missingKey
  | mixedOverloads
deriving Repr, DecidableEq

inductive CommandCause where
  | noSets
  | defaultCount (count : Nat)
  | duplicateSet (name : String)
  | unknownDefault (name : String)
  | duplicateParameter (name : String)
  | inNoSet (parameter : String)
  | unknownSet (parameter set : String)
  | strayMandatory (parameter set : String)
  | undeclaredId (name : String)
  | noConcreteType (type : String)
deriving Repr, DecidableEq

inductive ConfigCause where
  | empty (field : String)
  | notAlphanumeric (field value : String)
  | suffixesEqual
  | zeroDepth
  | duplicateExclusion (route : String)
  | unreadable (path : String) (reason : SystemFault)
  | document (path : String) (fault : DocFault)
deriving Repr, DecidableEq

/-- The two ways to write a document. -/
inductive Format where
  | json
  | yaml
deriving Repr, DecidableEq

inductive ParseCause where
  | document (format : Format) (fault : DocFault)
  | unreadable (path : String) (reason : SystemFault)
deriving Repr, DecidableEq

inductive GenerationCause where
  | routeTwice (route : String)
  | danglingNode (index : Nat)
  | createDirectory (path : String) (reason : SystemFault)
  | createListDirectory (reason : SystemFault)
  | write (file : String) (reason : SystemFault)
deriving Repr, DecidableEq

/-- What stops the work. -/
inductive Fault where
  | schema (location : String) (cause : SchemaCause)
  | invalidCommand (command : String) (cause : CommandCause)
  | config (cause : ConfigCause)
  | parse (cause : ParseCause)
  | generation (cause : GenerationCause)
  | io (reason : SystemFault)
  | json (fault : DocFault)
  | yaml (fault : DocFault)
deriving Repr, DecidableEq

def SystemFault.message : SystemFault → String
  | .notFound => "No such file or directory (os error 2)"
  | .exists => "File exists (os error 17)"
  | .notDirectory => "Not a directory (os error 20)"
  | .isDirectory => "Is a directory (os error 21)"
  | .nameTooLong => "File name too long (os error 36)"
  | .zeroInName => "file name contained an unexpected NUL byte"
  | .notText => "stream did not contain valid UTF-8"
  | .other text => text

def Table.word : Table → String
  | .classes => "class"
  | .properties => "property"
  | .enums => "enum"
  | .methods => "method"

def SchemaCause.message : SchemaCause → String
  | .duplicateClass => "duplicate class name"
  | .duplicateType => "duplicate type name"
  | .duplicateProperty => "duplicate property name"
  | .duplicateContainerProperty => "duplicate container property name"
  | .duplicateMethodParameter name => "duplicate parameter '" ++ name ++ "'"
  | .sameNameAs other => "same name as " ++ other
  | .redeclares base => "redeclares a property inherited from '" ++ base ++ "'"
  | .baseCycle => "base type chain contains a cycle"
  | .reachedTwice => "type reached twice while walking derived types"
  | .dangling table => "dangling " ++ table.word ++ " reference"
  | .undeclaredKey key => "key property '" ++ key ++ "' is not declared"
  | .unknownBase name => "unknown base type '" ++ name ++ "'"
  | .unsupportedPrimitive name => "unsupported primitive type '" ++ name ++ "'"
  | .unknownType name => "type '" ++ name ++ "' is not a class, enum or primitive"
  | .referenceToValue => "only entity-typed properties can be references"
  | .keylessCollection type => "collection of entity type '" ++ type ++ "' has no key property"
  | .identifierNotClass => "identifier segment is not class-typed"
  | .missingKey => "missing key property"
  | .mixedOverloads => "an action and a function share a name"

def CommandCause.message : CommandCause → String
  | .noSets => "no parameter sets"
  | .defaultCount count =>
    "expected exactly one default parameter set, found " ++ toString count
  | .duplicateSet name => "duplicate parameter set '" ++ name ++ "'"
  | .unknownDefault name => "unknown default parameter set '" ++ name ++ "'"
  | .duplicateParameter name => "duplicate parameter '" ++ name ++ "'"
  | .inNoSet parameter => "parameter '" ++ parameter ++ "' belongs to no parameter set"
  | .unknownSet parameter set =>
    "parameter '" ++ parameter ++ "' references unknown parameter set '" ++ set ++ "'"
  | .strayMandatory parameter set =>
    "parameter '" ++ parameter ++ "' is mandatory in '" ++ set ++ "' but not a member of it"
  | .undeclaredId name => "id parameter '" ++ name ++ "' is not declared"
  | .noConcreteType type => "type '" ++ type ++ "' has no concrete type to send"

def ConfigCause.message : ConfigCause → String
  | .empty field => field ++ " must not be empty"
  | .notAlphanumeric field value => field ++ " must be alphanumeric, got '" ++ value ++ "'"
  | .suffixesEqual => "id_parameter_suffix and typecast_parameter_suffix must differ"
  | .zeroDepth => "max_route_depth must be at least 1"
  | .duplicateExclusion route => "duplicate route exclusion '" ++ route ++ "'"
  | .unreadable path reason =>
    "Failed to read config file " ++ Text.quotedPath path ++ ": " ++ reason.message
  | .document path fault =>
    fault.message ("Failed to parse config YAML from " ++ Text.quotedPath path)

def Format.word : Format → String
  | .json => "JSON"
  | .yaml => "YAML"

def ParseCause.message : ParseCause → String
  | .document format fault => fault.message ("Failed to parse schema " ++ format.word)
  | .unreadable path reason =>
    "Failed to read schema file " ++ path ++ ": " ++ reason.message

def GenerationCause.message : GenerationCause → String
  | .routeTwice route => "route '" ++ route ++ "' was produced twice"
  | .danglingNode index => "dangling route node #" ++ toString index
  | .createDirectory path reason =>
    "Failed to create output directory " ++ Text.quotedPath path ++ ": " ++ reason.message
  | .createListDirectory reason => "Failed to create output directory: " ++ reason.message
  | .write file reason => "Failed to write " ++ file ++ ": " ++ reason.message

namespace Fault

def message : Fault → String
  | .schema location cause => "Schema error at " ++ location ++ ": " ++ cause.message
  | .invalidCommand command cause => "Invalid command " ++ command ++ ": " ++ cause.message
  | .config cause => "Configuration error: " ++ cause.message
  | .parse cause => "Parse error: " ++ cause.message
  | .generation cause => "Generation error: " ++ cause.message
  | .io reason => "IO error: " ++ reason.message
  | .json fault => fault.message "JSON error"
  | .yaml fault => fault.message "YAML error"

/-- The fault of a reference that no entry of the table answers to. -/
def dangling (table : Table) (index : Nat) : Fault :=
  .schema (table.word ++ " #" ++ toString index) (.dangling table)

/-- The fault, said to have happened on a route; only faults of the schema carry a place. -/
def onRoute (route : String) : Fault → Fault
  | .schema location cause => .schema (location ++ " (route " ++ route ++ ")") cause
  | fault => fault

end Fault

end EdmCommands
