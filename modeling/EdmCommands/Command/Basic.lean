import EdmCommands.Edm.Primitive
import EdmCommands.Fault
import EdmCommands.NameSet
import EdmCommands.Naming

/-!
# EdmCommands.Command.Basic

The command model: what a client can call on a service. A command belongs to one route and groups
its parameters in named sets, of which one is the default. A parameter is stored once and says in
which sets it can be used and in which it must be given.

* `Command`, `Parameter`, `ParameterSet`, `ParameterType`, `SetMembership`.
* `Parameter.joinSet`: one more set, mandatory there or not.
* `Command.addSet`, `Command.addParameter`, `Command.setDefault`: the checked operations.
* `Command.validate`: the rules of the model.
-/

namespace EdmCommands

/-- What a command does with the resource. -/
inductive OperationKind where
  | get
  | search
  | post
  | patch
  | delete
  | postRef
  | deleteRef
  | action
  | function
deriving Repr, DecidableEq

inductive HttpMethod where
  | get
  | post
  | put
  | patch
  | delete
deriving Repr, DecidableEq

/-- The first half of a command name. -/
inductive Verb where
  | get
  | new
  | update
  | remove
  | set
  | invoke
deriving Repr, DecidableEq

/-- Where the value of a parameter goes in the request. -/
inductive ParameterLocation where
  | path
  | query
  | body
  | functionArgument
  /-- The value selects a derived type. -/
  | typeDiscriminator
deriving Repr, DecidableEq

inductive ParameterType where
  | primitive (type : Edm.Primitive)
  | enum (name : String)
  | complex (name : String)
  | entity (name : String)
  | collection (element : ParameterType)
  /-- A flag that is given or not. -/
  | switch
  /-- The address of another resource. -/
  | url
  /-- Values of different kinds. -/
  | object
deriving Repr, DecidableEq

def OperationKind.name : OperationKind → String
  | .get => "Get"
  | .search => "Search"
  | .post => "Post"
  | .patch => "Patch"
  | .delete => "Delete"
  | .postRef => "PostRef"
  | .deleteRef => "DeleteRef"
  | .action => "Action"
  | .function => "Function"

def OperationKind.all : List OperationKind :=
  [.get, .search, .post, .patch, .delete, .postRef, .deleteRef, .action, .function]

def HttpMethod.name : HttpMethod → String
  | .get => "GET"
  | .post => "POST"
  | .put => "PUT"
  | .patch => "PATCH"
  | .delete => "DELETE"

def HttpMethod.all : List HttpMethod :=
  [.get, .post, .put, .patch, .delete]

def Verb.name : Verb → String
  | .get => "Get"
  | .new => "New"
  | .update => "Update"
  | .remove => "Remove"
  | .set => "Set"
  | .invoke => "Invoke"

def Verb.all : List Verb :=
  [.get, .new, .update, .remove, .set, .invoke]

def ParameterLocation.name : ParameterLocation → String
  | .path => "Path"
  | .query => "Query"
  | .body => "Body"
  | .functionArgument => "FunctionArgument"
  | .typeDiscriminator => "TypeDiscriminator"

def ParameterLocation.all : List ParameterLocation :=
  [.path, .query, .body, .functionArgument, .typeDiscriminator]

namespace ParameterType

def text : ParameterType :=
  .primitive .string

/-- Whether values are texts, which may be empty. -/
def isTextual : ParameterType → Bool
  | .primitive p => p.isTextual
  | .url => true
  | _ => false

def display : ParameterType → String
  | .primitive p => p.edmName
  | .enum name => name
  | .complex name => name
  | .entity name => name
  | .collection element => "Collection(" ++ element.display ++ ")"
  | .switch => "Switch"
  | .url => "Url"
  | .object => "Object"

end ParameterType

inductive SetMembership where
  | all
  | only (sets : NameSet)
deriving DecidableEq

namespace SetMembership

def contains : SetMembership → String → Bool
  | .all, _ => true
  | .only sets, set => sets.contains set

def insert : SetMembership → String → SetMembership
  | .all, _ => .all
  | .only sets, set => .only (sets.insert set)

/-- Whether `insert` changes the membership. -/
def gains : SetMembership → String → Bool
  | .all, _ => false
  | .only sets, set => !sets.contains set

/-- Whether every set is meant, also one that does not exist yet. -/
def isAll : SetMembership → Bool
  | .all => true
  | .only _ => false

@[simp] theorem contains_insert {m : SetMembership} {set other : String} :
    (m.insert set).contains other = true ↔ other = set ∨ m.contains other = true := by
  cases m with
  | all => simp [insert, contains]
  | only sets => simp [insert, contains]

end SetMembership

structure Parameter where
  name : String
  /-- The name in the request, when it is another one. -/
  wireName : Option String := none
  type : ParameterType
  location : ParameterLocation
  /-- It must be given in every set that it can be used in. -/
  mandatory : Bool := false
  /-- The sets in which it must be given, when that is not so in all of them. -/
  mandatoryIn : NameSet := .empty
  fromPipelineValue : Bool := false
  fromPipelineByName : Bool := false
  validateNotNull : Bool := false
  validateNotNullOrEmpty : Bool := false
  /-- The only derived type to which it applies. -/
  discriminator : Option String := none
  membership : SetMembership := .all
  description : Option String := none
deriving DecidableEq

namespace Parameter

/-- The parameter made mandatory, and checked for null as its type needs. -/
def asMandatory (p : Parameter) : Parameter :=
  if p.type.isTextual then { p with mandatory := true, validateNotNullOrEmpty := true }
  else if p.type = .switch then { p with mandatory := true }
  else { p with mandatory := true, validateNotNull := true }

def inSets (p : Parameter) (sets : List String) : Parameter :=
  { p with membership := .only (.ofList sets) }

/-- The parameter with a name in the request; its own name needs no mention. -/
def withWireName (p : Parameter) (wire : String) : Parameter :=
  if wire = p.name then p else { p with wireName := some wire }

def withDescription (p : Parameter) (text : String) : Parameter :=
  { p with description := some text }

/-- The name in the request. -/
def effectiveWireName (p : Parameter) : String :=
  p.wireName.getD p.name

/-- Whether it must be given in a set that it belongs to. -/
def isMandatoryIn (p : Parameter) (set : String) : Bool :=
  p.mandatory || p.mandatoryIn.contains set

def isIn (p : Parameter) (set : String) : Bool :=
  p.membership.contains set

/-- The parameter used in one more set, mandatory there or not. In the sets it belonged to before it
stays as mandatory as it was. -/
def joinSet (p : Parameter) (set : String) (mandatory : Bool) : Parameter :=
  let marked :=
    if p.mandatory && !mandatory then
      match p.membership with
      | .only sets => { p with mandatory := false, mandatoryIn := sets }
      | .all => { p with mandatory := false }
    else if mandatory && !p.mandatory then { p with mandatoryIn := p.mandatoryIn.insert set }
    else p
  { marked with membership := p.membership.insert set }

@[simp] theorem isIn_joinSet {p : Parameter} {set other : String} {mandatory : Bool} :
    (p.joinSet set mandatory).isIn other = true ↔ other = set ∨ p.isIn other = true := by
  have kept : (p.joinSet set mandatory).membership = p.membership.insert set := by
    unfold joinSet
    split
    · split <;> simp_all
    · split <;> rfl
  simp only [isIn, kept, SetMembership.contains_insert]

end Parameter

/-- A way to call a command. -/
structure ParameterSet where
  name : String
  isDefault : Bool := false
  /-- The derived type that calling it this way selects. -/
  derivedType : Option String := none
deriving Repr, DecidableEq

structure CommandName where
  verb : Verb
  noun : String
deriving Repr, DecidableEq

/-- The verb and the noun with a hyphen between them. -/
def CommandName.full (n : CommandName) : String :=
  n.verb.name ++ "-" ++ n.noun

/-- An operation that a client can call on a route. -/
structure Command where
  name : CommandName
  operation : OperationKind
  httpMethod : HttpMethod
  /-- The address below the root of the service, with placeholders. -/
  urlTemplate : String
  /-- The route that the command is for. -/
  route : String
  resourceType : Option String := none
  sets : List ParameterSet := []
  parameters : List Parameter := []
  /-- The parameter with the identifier of the addressed entity. -/
  idParameter : Option String := none
  /-- Reference commands may point at what this command addresses. -/
  isReferenceable : Bool := false
  /-- The command that addresses what this reference command can point at. -/
  referenceTarget : Option String := none
  summary : String := ""
  description : Option String := none
deriving DecidableEq

namespace Command

variable (c : Command)

def fault (cause : CommandCause) : Fault :=
  .invalidCommand c.name.full cause

def hasSet (name : String) : Bool :=
  c.sets.any (·.name == name)

def setNames : List String :=
  c.sets.map (·.name)

def parameterNames : List String :=
  c.parameters.map (·.name)

/-- The set that is used when none is chosen. -/
def defaultSet : Option ParameterSet :=
  c.sets.find? (·.isDefault)

def parameter? (name : String) : Option Parameter :=
  c.parameters.find? (·.name == name)

def parametersIn (set : String) : List Parameter :=
  c.parameters.filter (·.isIn set)

/-- Declares a set; its name must be new. -/
def addSet (set : ParameterSet) : Except Fault Command :=
  if c.hasSet set.name then .error (c.fault (.duplicateSet set.name))
  else .ok { c with sets := c.sets ++ [set] }

def setDefault (name : String) : Except Fault Command :=
  if c.hasSet name then
    .ok { c with sets := c.sets.map fun s => { s with isDefault := s.name == name } }
  else .error (c.fault (.unknownDefault name))

/-- Adds a parameter; its name must be new. -/
def addParameter (p : Parameter) : Except Fault Command :=
  match c.parameter? p.name with
  | some _ => .error (c.fault (.duplicateParameter p.name))
  | none => .ok { c with parameters := c.parameters ++ [p] }

def addParameters (c : Command) (ps : List Parameter) : Except Fault Command :=
  ps.foldlM addParameter c

/-- Checks that the sets of a membership exist and that there is one. -/
def checkMembership (sets : List String) (p : Parameter) : Except CommandCause Unit :=
  match p.membership with
  | .all => .ok ()
  | .only members =>
    if members.isEmpty then .error (.inNoSet p.name)
    else
      match members.names.find? (!sets.contains ·) with
      | some unknown => .error (.unknownSet p.name unknown)
      | none => .ok ()

/-- Checks that a parameter is mandatory only in sets that it belongs to. -/
def checkMandatory (p : Parameter) : Except CommandCause Unit :=
  match p.mandatoryIn.names.find? (!p.isIn ·) with
  | some stray => .error (.strayMandatory p.name stray)
  | none => .ok ()

/-- Checks the parameters in order; `seen` are the names of those before. -/
def checkParameters (sets : List String) (seen : List String) :
    List Parameter → Except CommandCause Unit
  | [] => .ok ()
  | p :: rest =>
    if seen.contains p.name then .error (.duplicateParameter p.name)
    else
      match checkMembership sets p with
      | .error cause => .error cause
      | .ok () =>
        match checkMandatory p with
        | .error cause => .error cause
        | .ok () => checkParameters sets (p.name :: seen) rest

def checkId : Except CommandCause Unit :=
  match c.idParameter with
  | none => .ok ()
  | some id => if c.parameterNames.contains id then .ok () else .error (.undeclaredId id)

/-- Checks the rules of the model, up to the first that is broken. -/
def check : Except CommandCause Unit :=
  if c.sets.isEmpty then .error .noSets
  else
    let defaults := c.sets.countP (·.isDefault)
    if defaults ≠ 1 then .error (.defaultCount defaults)
    else
      match Naming.firstRepeated [] c.setNames with
      | some name => .error (.duplicateSet name)
      | none =>
        match checkParameters c.setNames [] c.parameters with
        | .error cause => .error cause
        | .ok () => c.checkId

def validate : Except Fault Unit :=
  c.check.mapError c.fault

end Command

end EdmCommands
