import EdmCommands.Edm.Primitive
import EdmCommands.Fault
import EdmCommands.Text.Trim

/-!
# EdmCommands.Schema.Basic

The schema graph: classes with their properties and methods, enumerations, and the container that
holds the entry points of the service. Each kind of node lives in a table of the graph and is
named elsewhere by its place there, so a reference can be dangling; looking one up can fail.

* `Graph`: the tables, with the look-ups `classAt`, `propertyAt`, `enumAt` and `methodAt`.
* `Graph.findClass`, `Graph.findEnum`: types by simple or qualified name.
* `Graph.canonicalName`: the identity of a property, `Owner.name`.
-/

namespace EdmCommands
namespace Schema

/-- The place of a class in the graph. -/
structure ClassId where
  index : Nat
deriving Repr, DecidableEq

structure PropertyId where
  index : Nat
deriving Repr, DecidableEq

structure EnumId where
  index : Nat
deriving Repr, DecidableEq

structure MethodId where
  index : Nat
deriving Repr, DecidableEq

/-- The type of a property, a method parameter or a result. -/
inductive TypeRef where
  | primitive (type : Edm.Primitive)
  | enum (id : EnumId)
  | structured (id : ClassId)
deriving Repr, DecidableEq

/-- Entities have an identity and can be navigated to; complex values do not and can not. -/
inductive ClassKind where
  | entity
  | complex
deriving Repr, DecidableEq

/-- What a service allows to be done with the values of a property. -/
structure Capabilities where
  insert : Bool := true
  update : Bool := true
  delete : Bool := true
  updateLink : Bool := true
  deleteLink : Bool := true
deriving Repr, DecidableEq

inductive Owner where
  | container
  | structured (id : ClassId)
deriving Repr, DecidableEq

/-- A member of a class or of the container. -/
structure Property where
  name : String
  type : TypeRef
  owner : Owner := .container
  isCollection : Bool := false
  isComputed : Bool := false
  isImmutable : Bool := false
  /-- The value is a resource owned elsewhere. -/
  isReference : Bool := false
  nullable : Bool := true
  capabilities : Capabilities := {}
  description : Option String := none
deriving Repr, DecidableEq

structure StructuredType where
  name : String
  kind : ClassKind
  base : Option ClassId := none
  isAbstract : Bool := false
  /-- The name of the key property; a class without one has the key of its base. -/
  key : Option String := none
  properties : List PropertyId := []
  methods : List MethodId := []
  derived : List ClassId := []
  description : Option String := none
deriving Repr, DecidableEq

def StructuredType.isEntity (c : StructuredType) : Bool :=
  c.kind == .entity

structure EnumType where
  name : String
  members : List String := []
  isFlags : Bool := false
deriving Repr, DecidableEq

/-- Actions have side effects and functions have none. -/
inductive MethodKind where
  | action
  | function
deriving Repr, DecidableEq

structure MethodParameter where
  name : String
  type : TypeRef
  isCollection : Bool := false
  nullable : Bool := true
deriving Repr, DecidableEq

structure MethodReturn where
  type : TypeRef
  isCollection : Bool := false
deriving Repr, DecidableEq

/-- An action or function bound to a class. -/
structure Method where
  name : String
  kind : MethodKind
  declaring : ClassId := ⟨0⟩
  /-- The method is invoked on a collection and not on one of its items. -/
  boundToCollection : Bool := false
  parameters : List MethodParameter := []
  returns : Option MethodReturn := none
  description : Option String := none
deriving Repr, DecidableEq

def Method.returnsCollection (m : Method) : Bool :=
  m.returns.any (·.isCollection)

/-- The entry points of a service. -/
structure Container where
  name : String
  properties : List PropertyId := []
deriving Repr, DecidableEq

structure Graph where
  namespaceName : String
  container : Container
  classes : Array StructuredType := #[]
  properties : Array Property := #[]
  enums : Array EnumType := #[]
  methods : Array Method := #[]
deriving Repr, DecidableEq

namespace Graph

def empty (spaceName containerName : String) : Graph :=
  { namespaceName := spaceName, container := { name := containerName } }

variable (g : Graph)

def classAt (id : ClassId) : Except Fault StructuredType :=
  match g.classes[id.index]? with
  | some c => .ok c
  | none => .error (.dangling .classes id.index)

theorem classAt_eq_ok_iff {id : ClassId} {c : StructuredType} :
    g.classAt id = .ok c ↔ g.classes[id.index]? = some c := by
  unfold classAt
  cases g.classes[id.index]? <;> simp

def propertyAt (id : PropertyId) : Except Fault Property :=
  match g.properties[id.index]? with
  | some p => .ok p
  | none => .error (.dangling .properties id.index)

theorem propertyAt_eq_ok_iff {id : PropertyId} {p : Property} :
    g.propertyAt id = .ok p ↔ g.properties[id.index]? = some p := by
  unfold propertyAt
  cases g.properties[id.index]? <;> simp

def enumAt (id : EnumId) : Except Fault EnumType :=
  match g.enums[id.index]? with
  | some e => .ok e
  | none => .error (.dangling .enums id.index)

def methodAt (id : MethodId) : Except Fault Method :=
  match g.methods[id.index]? with
  | some m => .ok m
  | none => .error (.dangling .methods id.index)

theorem methodAt_eq_ok_iff {id : MethodId} {m : Method} :
    g.methodAt id = .ok m ↔ g.methods[id.index]? = some m := by
  unfold methodAt
  cases g.methods[id.index]? <;> simp

/-- A type name without the namespace of the graph. -/
def simpleName (name : String) : String :=
  ((Text.stripStart? g.namespaceName name).bind (Text.stripStart? ".")).getD name

/-- The class of a simple or qualified name. -/
def findClass (name : String) : Option ClassId :=
  let simple := g.simpleName name
  (g.classes.findIdx? (·.name == simple)).map ClassId.mk

def findEnum (name : String) : Option EnumId :=
  let simple := g.simpleName name
  (g.enums.findIdx? (·.name == simple)).map EnumId.mk

/-- A name behind the namespace of the graph, if that has one. -/
def qualify (name : String) : String :=
  if g.namespaceName.isEmpty then name else g.namespaceName ++ "." ++ name

def qualifiedName (id : ClassId) : Except Fault String :=
  match g.classAt id with
  | .error fault => .error fault
  | .ok c => .ok (g.qualify c.name)

/-- The identity of a property: the name of its owner and its own. -/
def canonicalName (id : PropertyId) : Except Fault String :=
  match g.propertyAt id with
  | .error fault => .error fault
  | .ok p =>
    match p.owner with
    | .container => .ok (g.container.name ++ "." ++ p.name)
    | .structured owner =>
      match g.classAt owner with
      | .error fault => .error fault
      | .ok c => .ok (c.name ++ "." ++ p.name)

/-- The name of a type, as messages give it. -/
def typeName : TypeRef → Except Fault String
  | .primitive p => .ok p.edmName
  | .enum id => (g.enumAt id).map (·.name)
  | .structured id => (g.classAt id).map (·.name)

def isEntityType : TypeRef → Except Fault Bool
  | .structured id => (g.classAt id).map (·.isEntity)
  | _ => .ok false

end Graph

end Schema
end EdmCommands
