import EdmCommands.Command.Basic
import EdmCommands.Doc.Decode
import EdmCommands.Json

/-!
# EdmCommands.Command.Codec

Commands as JSON. A command is an object with its fields in the order of the model; what is absent
is null, except that a parameter without sets of its own to be mandatory in leaves that field out.
Alternatives are written by name, those with content as an object of one field.

* `Command.toJson`, `Command.decode`, and the same for the parts of a command.
-/

namespace EdmCommands

def named {α : Type} (all : List α) (name : α → String) (s : String) : Option α :=
  all.find? fun x => name x == s

def decodeNamed {α : Type} (all : List α) (name : α → String) : Decoder α :=
  Decode.enumeration (all.map name) (named all name)

def Edm.Primitive.decode : Decoder Edm.Primitive :=
  decodeNamed all name

def OperationKind.decode : Decoder OperationKind :=
  decodeNamed all name

def HttpMethod.decode : Decoder HttpMethod :=
  decodeNamed all name

def Verb.decode : Decoder Verb :=
  decodeNamed all name

def ParameterLocation.decode : Decoder ParameterLocation :=
  decodeNamed all name

mutual

def Doc.depth : Doc → Nat
  | .tagged _ content => content.depth + 1
  | .seq items => depthOfItems items + 1
  | .map entries => depthOfEntries entries + 1
  | _ => 1

def Doc.depthOfItems : List Doc → Nat
  | [] => 0
  | item :: rest => max item.depth (depthOfItems rest)

def Doc.depthOfEntries : List (Doc × Doc) → Nat
  | [] => 0
  | (_, value) :: rest => max value.depth (depthOfEntries rest)

end

namespace ParameterType

def toJson : ParameterType → Json
  | .primitive p => .obj [("Primitive", .text p.name)]
  | .enum name => .obj [("Enum", .text name)]
  | .complex name => .obj [("Complex", .text name)]
  | .entity name => .obj [("Entity", .text name)]
  | .collection element => .obj [("Collection", element.toJson)]
  | .switch => .text "Switch"
  | .url => .text "Url"
  | .object => .text "Object"

def variants : List String :=
  ["Primitive", "Enum", "Complex", "Entity", "Collection", "Switch", "Url", "Object"]

/-- A parameter type of at most `depth` levels. -/
def decodeWithin : Nat → Decoder ParameterType
  | 0 => fun _ _ => .error .malformed
  | depth + 1 => fun dialect d =>
    let without := fun (value : ParameterType) (content : Option Doc) =>
      match content with
      | none => .ok value
      | some inner => (Decode.unit dialect inner).map fun _ => value
    Decode.variant variants
      (fun name content =>
        match name with
        | "Primitive" => (Decode.content Edm.Primitive.decode dialect content).map .primitive
        | "Enum" => (Decode.content Decode.text dialect content).map .enum
        | "Complex" => (Decode.content Decode.text dialect content).map .complex
        | "Entity" => (Decode.content Decode.text dialect content).map .entity
        | "Collection" =>
          (Decode.content (decodeWithin depth) dialect content).map .collection
        | "Switch" => without .switch content
        | "Url" => without .url content
        | "Object" => without .object content
        | other => .error (.shape (.unknownVariant other variants)))
      dialect d

def decode : Decoder ParameterType :=
  fun dialect d => decodeWithin d.depth dialect d

end ParameterType

def NameSet.decode : Decoder NameSet :=
  fun dialect d => (Decode.list Decode.text dialect d).map .ofList

namespace SetMembership

def toJson : SetMembership → Json
  | .all => .text "All"
  | .only sets => .obj [("Only", .texts sets.names)]

def variants : List String :=
  ["All", "Only"]

def decode : Decoder SetMembership := fun dialect d =>
  Decode.variant variants
    (fun name content =>
      match name, content with
      | "All", none => .ok .all
      | "All", some inner => (Decode.unit dialect inner).map fun _ => .all
      | "Only", _ => (Decode.content NameSet.decode dialect content).map .only
      | other, _ => .error (.shape (.unknownVariant other variants)))
    dialect d

end SetMembership

namespace Parameter

def toJson (p : Parameter) : Json :=
  .obj <|
    [("name", .text p.name),
      ("wire_name", .optText p.wireName),
      ("param_type", p.type.toJson),
      ("location", .text p.location.name),
      ("mandatory", .bool p.mandatory)] ++
    (if p.mandatoryIn.isEmpty then [] else [("mandatory_in", .texts p.mandatoryIn.names)]) ++
    [("from_pipeline_value", .bool p.fromPipelineValue),
      ("from_pipeline_by_name", .bool p.fromPipelineByName),
      ("validate_not_null", .bool p.validateNotNull),
      ("validate_not_null_or_empty", .bool p.validateNotNullOrEmpty),
      ("derived_type_discriminator", .optText p.discriminator),
      ("membership", p.membership.toJson),
      ("description", .optText p.description)]

def decode : Decoder Parameter :=
  Record.decode "Parameter" <|
    Parameter.mk
      <$> Record.required "name" Decode.text
      <*> Record.nullable "wire_name" Decode.text
      <*> Record.required "param_type" ParameterType.decode
      <*> Record.required "location" ParameterLocation.decode
      <*> Record.required "mandatory" Decode.boolean
      <*> Record.defaulted "mandatory_in" NameSet.decode .empty
      <*> Record.required "from_pipeline_value" Decode.boolean
      <*> Record.required "from_pipeline_by_name" Decode.boolean
      <*> Record.required "validate_not_null" Decode.boolean
      <*> Record.required "validate_not_null_or_empty" Decode.boolean
      <*> Record.nullable "derived_type_discriminator" Decode.text
      <*> Record.required "membership" SetMembership.decode
      <*> Record.nullable "description" Decode.text

end Parameter

namespace ParameterSet

def toJson (s : ParameterSet) : Json :=
  .obj
    [("name", .text s.name), ("is_default", .bool s.isDefault),
      ("derived_type", .optText s.derivedType)]

def decode : Decoder ParameterSet :=
  Record.decode "ParameterSet" <|
    ParameterSet.mk
      <$> Record.required "name" Decode.text
      <*> Record.required "is_default" Decode.boolean
      <*> Record.nullable "derived_type" Decode.text

end ParameterSet

namespace CommandName

def toJson (n : CommandName) : Json :=
  .obj [("verb", .text n.verb.name), ("noun", .text n.noun)]

def decode : Decoder CommandName :=
  Record.decode "CommandName" <|
    CommandName.mk
      <$> Record.required "verb" Verb.decode
      <*> Record.required "noun" Decode.text

end CommandName

namespace Command

def toJson (c : Command) : Json :=
  .obj
    [("name", c.name.toJson),
      ("operation", .text c.operation.name),
      ("http_method", .text c.httpMethod.name),
      ("call_url_template", .text c.urlTemplate),
      ("route", .text c.route),
      ("resource_type", .optText c.resourceType),
      ("parameter_sets", .arr (c.sets.map ParameterSet.toJson)),
      ("parameters", .arr (c.parameters.map Parameter.toJson)),
      ("id_parameter", .optText c.idParameter),
      ("is_referenceable", .bool c.isReferenceable),
      ("reference_target", .optText c.referenceTarget),
      ("summary", .text c.summary),
      ("description", .optText c.description)]

def decode : Decoder Command :=
  Record.decode "Command" <|
    Command.mk
      <$> Record.required "name" CommandName.decode
      <*> Record.required "operation" OperationKind.decode
      <*> Record.required "http_method" HttpMethod.decode
      <*> Record.required "call_url_template" Decode.text
      <*> Record.required "route" Decode.text
      <*> Record.nullable "resource_type" Decode.text
      <*> Record.required "parameter_sets" (Decode.list ParameterSet.decode)
      <*> Record.required "parameters" (Decode.list Parameter.decode)
      <*> Record.nullable "id_parameter" Decode.text
      <*> Record.required "is_referenceable" Decode.boolean
      <*> Record.nullable "reference_target" Decode.text
      <*> Record.required "summary" Decode.text
      <*> Record.nullable "description" Decode.text

end Command

end EdmCommands
