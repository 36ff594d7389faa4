import EdmCommands.Command.Basic
import EdmCommands.Schema.Basic

/-!
# EdmCommands.Synthesis.Policy

Which operations a property allows. A computed property is never written, whatever its
capabilities say; an immutable one can be given when its owner is created and not changed later.
-/

namespace EdmCommands
namespace Schema
namespace Property

variable (p : Property)

def allowsCreate : Bool :=
  p.capabilities.insert && !p.isComputed

def allowsUpdate : Bool :=
  p.capabilities.update && !p.isComputed && !p.isImmutable

def allowsDelete : Bool :=
  p.capabilities.delete && !p.isComputed

def allowsReferenceCreate : Bool :=
  (p.capabilities.insert || p.capabilities.updateLink) && !p.isComputed

def allowsReferenceDelete : Bool :=
  (p.capabilities.delete || p.capabilities.deleteLink) && !p.isComputed

/-- Whether the value can not be sent with an operation. -/
def isReadOnly : OperationKind → Bool
  | .post => p.isComputed || p.isImmutable
  | .delete => p.isComputed || p.isImmutable
  | .patch => p.isComputed
  | _ => false

end Property
end Schema
end EdmCommands
