import EdmCommands.Command.Basic
import EdmCommands.Schema.Basic

/-!
# EdmCommands.Schema.ParameterType

The parameter type of a schema type: types are named with their namespace, and a collection is
wrapped around its element type.
-/

namespace EdmCommands
namespace Schema
namespace Graph

def elementType (g : Graph) : TypeRef → Except Fault ParameterType
  | .primitive p => .ok (.primitive p)
  | .enum id => (g.enumAt id).map fun e => .enum (g.qualify e.name)
  | .structured id =>
    (g.classAt id).map fun c =>
      if c.isEntity then .entity (g.qualify c.name) else .complex (g.qualify c.name)

/-- The parameter type of a value or of a collection of values. -/
def parameterType (g : Graph) (type : TypeRef) (isCollection : Bool) :
    Except Fault ParameterType :=
  (g.elementType type).map fun element => if isCollection then .collection element else element

end Graph
end Schema
end EdmCommands
