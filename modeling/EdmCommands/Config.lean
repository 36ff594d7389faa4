import EdmCommands.Doc.Decode
import EdmCommands.Fault
import EdmCommands.Text.Trim

/-!
# EdmCommands.Config

The settings of a generation: naming of nouns and parameters, limits on the routes, and which
routes to leave out.

* `Config.validate`: the settings fit together.
* `Config.isRouteExcluded`: a route, given by its segment names, is left out with all below it.
-/

namespace EdmCommands

structure Config where
  /-- Put in front of every command noun. -/
  nounPrefix : String := ""
  /-- Routes of this many segments are not continued. -/
  maxRouteDepth : Option Nat := none
  /-- Segment names joined by slashes; these routes and those below them are left out. -/
  excludeRoutes : List String := []
  idSuffix : String := "Id"
  typecastSuffix : String := "TypeCast"
  referenceUrl : String := "ReferenceUrl"
  /-- Methods of base types are commands on the routes of derived types too. -/
  includeInheritedMethods : Bool := true
deriving Repr, DecidableEq

namespace Config

/-- The settings in a document; what it leaves out keeps its default. -/
def decode : Decoder Config :=
  Record.decode "GeneratorConfig" <|
    Config.mk
      <$> Record.defaulted "noun_prefix" Decode.text ""
      <*> Record.defaulted "max_route_depth" (Decode.optional Decode.count) none
      <*> Record.defaulted "exclude_routes" (Decode.list Decode.text) []
      <*> Record.defaulted "id_parameter_suffix" Decode.text "Id"
      <*> Record.defaulted "typecast_parameter_suffix" Decode.text "TypeCast"
      <*> Record.defaulted "reference_url_parameter" Decode.text "ReferenceUrl"
      <*> Record.defaulted "include_inherited_methods" Decode.boolean true

/-- Checks a name that becomes part of a parameter name: not blank, ASCII letters and digits. -/
def checkName (field value : String) : Except ConfigCause Unit :=
  if (Text.trimBlank value).isEmpty then .error (.empty field)
  else if value.toList.all Char.isAlphanum then .ok ()
  else .error (.notAlphanumeric field value)

/-- The first exclusion that names the same route as one before it. -/
def firstRepeatedExclusion (seen : List String) : List String → Option String
  | [] => none
  | route :: rest =>
    let trimmed := Text.trimSlash route
    if seen.contains trimmed then some route
    else firstRepeatedExclusion (trimmed :: seen) rest

def check (config : Config) : Except ConfigCause Unit := do
  checkName "id_parameter_suffix" config.idSuffix
  checkName "typecast_parameter_suffix" config.typecastSuffix
  checkName "reference_url_parameter" config.referenceUrl
  if config.idSuffix = config.typecastSuffix then throw .suffixesEqual
  if config.maxRouteDepth = some 0 then throw .zeroDepth
  match firstRepeatedExclusion [] config.excludeRoutes with
  | some route => throw (.duplicateExclusion route)
  | none => return ()

def validate (config : Config) : Except Fault Unit :=
  config.check.mapError .config

/-- Whether the route of the given segment names is `start` or lies below it. -/
def isUnder (start path : String) : Bool :=
  path == start || ((Text.stripStart? start path).any fun rest => rest.toList.head? == some '/')

/-- Whether a route, given as its segment names joined by slashes, is left out. -/
def isRouteExcluded (config : Config) (path : String) : Bool :=
  config.excludeRoutes.any fun route => isUnder (Text.trimSlash route) path

end Config
end EdmCommands
