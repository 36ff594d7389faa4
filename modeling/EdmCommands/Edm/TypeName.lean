import EdmCommands.Edm.Primitive
import EdmCommands.Text.Trim

/-!
# EdmCommands.Edm.TypeName

The names of types in schema documents: an element type, or `Collection(…)` around one.
-/

namespace EdmCommands
namespace Edm

/-- The name of an element type, and whether a collection of it is meant. -/
structure TypeName where
  element : String
  isCollection : Bool
deriving Repr, DecidableEq

/-- Reads a type name. White space around it and inside the parentheses does not count. -/
def TypeName.ofText (s : String) : TypeName :=
  let trimmed := Text.trimBlank s
  match (Text.stripStart? "Collection(" trimmed).bind (Text.stripEnd? ")") with
  | some inner => ⟨Text.trimBlank inner, true⟩
  | none => ⟨trimmed, false⟩

/-- Whether the name is in the namespace of the primitive types. -/
def isEdmName (s : String) : Bool :=
  "Edm.".toList.isPrefixOf s.toList

end Edm
end EdmCommands
