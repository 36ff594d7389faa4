/-!
# EdmCommands.Edm.Primitive

The primitive types of the entity data model. Each has a name of its own; schema documents write
it behind `Edm.`.
-/

namespace EdmCommands
namespace Edm

inductive Primitive where
  | string
  | boolean
  | byte
  | sbyte
  | int16
  | int32
  | int64
  | single
  | double
  | decimal
  | guid
  | date
  | timeOfDay
  | dateTimeOffset
  | duration
  | binary
  | stream
  | untyped
deriving Repr, DecidableEq

namespace Primitive

/-- Every primitive type, in the order of the model. -/
def all : List Primitive :=
  [.string, .boolean, .byte, .sbyte, .int16, .int32, .int64, .single, .double, .decimal, .guid,
    .date, .timeOfDay, .dateTimeOffset, .duration, .binary, .stream, .untyped]

def name : Primitive → String
  | .string => "String"
  | .boolean => "Boolean"
  | .byte => "Byte"
  | .sbyte => "SByte"
  | .int16 => "Int16"
  | .int32 => "Int32"
  | .int64 => "Int64"
  | .single => "Single"
  | .double => "Double"
  | .decimal => "Decimal"
  | .guid => "Guid"
  | .date => "Date"
  | .timeOfDay => "TimeOfDay"
  | .dateTimeOffset => "DateTimeOffset"
  | .duration => "Duration"
  | .binary => "Binary"
  | .stream => "Stream"
  | .untyped => "Untyped"

/-- The name with its namespace. -/
def edmName (p : Primitive) : String :=
  "Edm." ++ p.name

def ofName? (s : String) : Option Primitive :=
  all.find? (·.name == s)

def ofEdmName? (s : String) : Option Primitive :=
  all.find? (·.edmName == s)

/-- Whether the values are texts, which may be empty. -/
def isTextual (p : Primitive) : Bool :=
  p == .string || p == .guid

end Primitive

end Edm
end EdmCommands
