import EdmCommands.Synthesis.Methods

/-!
# EdmCommands.Synthesis

The commands of one route, in a fixed order: reading, creating or adding a reference, updating,
deleting or removing a reference, and the methods. References take the place of creating and
deleting where the resource is owned elsewhere.
-/

namespace EdmCommands
namespace Synthesis

open Schema
open Route (Rendered)

/-- The command that creates the resource or adds a reference to it, if the property allows it. -/
def creation (t : Target) : Except Fault (List Command) :=
  if t.property.isReference then
    if t.property.allowsReferenceCreate then (postReference t).map ([·]) else .ok []
  else
    match t.property.type with
    | .structured target =>
      if t.property.allowsCreate then (create t target).map ([·]) else .ok []
    | _ => .ok []

/-- The command that updates the resource, if the property allows it. -/
def updating (t : Target) : Except Fault (List Command) :=
  match t.property.type with
  | .structured target =>
    if t.property.allowsUpdate then (update t target).map ([·]) else .ok []
  | _ => .ok []

/-- The command that deletes the resource or removes a reference to it, if the property allows
it. -/
def deletion (t : Target) : Except Fault (List Command) :=
  if t.property.isReference then
    if t.property.allowsReferenceDelete then (deleteReference t).map ([·]) else .ok []
  else if t.property.allowsDelete then (delete t).map ([·])
  else .ok []

def methodCommands (t : Target) : Except Fault (List Command) :=
  match t.property.type with
  | .structured target => invocations t target
  | _ => .ok []

/-- The commands of a route that ends in a property. -/
def commands (g : Graph) (config : Config) (route : Rendered) (id : PropertyId) :
    Except Fault (List Command) := do
  let property ← g.propertyAt id
  let t : Target := ⟨g, config, route, property⟩
  let read ← getOrSearch t
  let created ← creation t
  let updated ← updating t
  let deleted ← deletion t
  let invoked ← methodCommands t
  return read :: (created ++ updated ++ deleted ++ invoked)

end Synthesis
end EdmCommands
