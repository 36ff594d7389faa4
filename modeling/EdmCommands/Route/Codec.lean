import EdmCommands.Command.Codec
import EdmCommands.Route.Rendered

/-!
# EdmCommands.Route.Codec

Rendered routes as JSON: a list of segments, each with its placeholders or null.
-/

namespace EdmCommands
namespace Route

def IdPlaceholder.toJson (p : IdPlaceholder) : Json :=
  .obj [("name", .text p.name), ("key_name", .text p.keyName), ("key_type", p.keyType.toJson)]

def IdPlaceholder.decode : Decoder IdPlaceholder :=
  Record.decode "IdPlaceholder" <|
    IdPlaceholder.mk
      <$> Record.required "name" Decode.text
      <*> Record.required "key_name" Decode.text
      <*> Record.required "key_type" ParameterType.decode

def TypecastPlaceholder.toJson (p : TypecastPlaceholder) : Json :=
  .obj [("name", .text p.name), ("cast_type", .text p.castType)]

def TypecastPlaceholder.decode : Decoder TypecastPlaceholder :=
  Record.decode "TypecastPlaceholder" <|
    TypecastPlaceholder.mk
      <$> Record.required "name" Decode.text
      <*> Record.required "cast_type" Decode.text

def Segment.toJson (s : Segment) : Json :=
  .obj
    [("name", .text s.name),
      ("id", (s.id.map IdPlaceholder.toJson).getD .null),
      ("typecast", (s.typecast.map TypecastPlaceholder.toJson).getD .null)]

def Segment.decode : Decoder Segment :=
  Record.decode "RouteSegment" <|
    Segment.mk
      <$> Record.required "name" Decode.text
      <*> Record.nullable "id" IdPlaceholder.decode
      <*> Record.nullable "typecast" TypecastPlaceholder.decode

def Rendered.toJson (r : Rendered) : Json :=
  .obj [("segments", .arr (r.segments.map Segment.toJson))]

def Rendered.decode : Decoder Rendered :=
  Record.decode "Route" <|
    Rendered.mk <$> Record.required "segments" (Decode.list Segment.decode)

end Route
end EdmCommands
