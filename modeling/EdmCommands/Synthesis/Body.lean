import EdmCommands.Naming
import EdmCommands.Schema.Hierarchy
import EdmCommands.Schema.ParameterType
import EdmCommands.Selection
import EdmCommands.Synthesis.Policy

/-!
# EdmCommands.Synthesis.Body

The body of a create or update command. Every concrete type in the hierarchy of the addressed one
has a parameter set, and every one but the addressed type itself a switch that selects it. A
property belongs to the sets of the type that declares it and of the concrete types below, so what
is shared by all is in every set and what only a derived type has is in its own. Resolving a
command a second time changes nothing.

* `hierarchy`: a class and those below it, breadth first.
* `declareTypes`: the sets and switches.
* `mergeProperty`: a body parameter for a property, or more sets for the one that is there.
* `resolve`: all of it; what a fault leaves done is part of the answer.
-/

namespace EdmCommands
namespace Synthesis

open Schema

/-- The classes of a queue and those below, breadth first; a class that comes up twice is a
fault. -/
def hierarchyFrom (g : Graph) : Nat → List ClassId → List ClassId → Except Fault (List ClassId)
  | _, _, [] => .ok []
  | 0, _, _ :: _ => .ok []
  | fuel + 1, seen, current :: queue =>
    match g.classAt current with
    | .error fault => .error fault
    | .ok c =>
      if current ∈ seen then .error (.schema c.name .reachedTwice)
      else
        match hierarchyFrom g fuel (current :: seen) (queue ++ c.derived) with
        | .error fault => .error fault
        | .ok rest => .ok (current :: rest)

/-- A class and those below it, breadth first. -/
def hierarchy (g : Graph) (base : ClassId) : Except Fault (List ClassId) :=
  hierarchyFrom g (g.classes.size + 1) [] [base]

/-- The classes of a queue and those below, breadth first, in a graph without double links. -/
def subtreeFrom (g : Graph) : Nat → List ClassId → List ClassId
  | _, [] => []
  | 0, _ :: _ => []
  | fuel + 1, current :: queue =>
    let derived := match g.classes[current.index]? with
      | some c => c.derived
      | none => []
    current :: subtreeFrom g fuel (queue ++ derived)

def subtree (g : Graph) (id : ClassId) : List ClassId :=
  subtreeFrom g (g.classes.size + 1) [id]

/-- A type that can be sent: its class, and its simple and qualified names. -/
structure ConcreteType where
  id : ClassId
  name : String
  qualified : String
deriving Repr, DecidableEq

def concreteTypes (g : Graph) : List ClassId → Except Fault (List ConcreteType)
  | [] => .ok []
  | id :: rest =>
    match g.classAt id with
    | .error fault => .error fault
    | .ok c =>
      match concreteTypes g rest with
      | .error fault => .error fault
      | .ok others =>
        .ok (if c.isAbstract then others else ⟨id, c.name, g.qualify c.name⟩ :: others)

/-- The set that selects a type: the one there is, or a new one named after the type. -/
def ensureSet (c : Command) (t : ConcreteType) : Command × String :=
  match c.sets.find? (·.derivedType == some t.qualified) with
  | some s => (c, s.name)
  | none =>
    let name := Naming.freshName (Naming.pascalCase t.name) c.setNames
    ({ c with sets := c.sets ++ [{ name := name, derivedType := some t.qualified }] }, name)

def isSwitchFor (qualified : String) (p : Parameter) : Bool :=
  p.location == .typeDiscriminator && p.discriminator == some qualified

def typeSwitch (name set qualified : String) : Parameter :=
  let switch : Parameter :=
    { name := name, type := .switch, location := .typeDiscriminator }
  { ((switch.asMandatory.inSets [set]).withWireName "@odata.type").withDescription
      ("Create the resource as a " ++ qualified) with
    discriminator := some qualified }

def ensureSwitch (c : Command) (set : String) (t : ConcreteType) : Command :=
  if c.parameters.any (isSwitchFor t.qualified) then c
  else
    let name := Naming.freshName set c.parameterNames
    { c with parameters := c.parameters ++ [typeSwitch name set t.qualified] }

/-- The command with the set of a type, and with its switch unless it is the base. -/
def declareType (base : ClassId) (c : Command) (t : ConcreteType) : Command × String :=
  let (declared, set) := ensureSet c t
  (if t.id = base then declared else ensureSwitch declared set t, set)

/-- The command with the sets and switches of the types, and the set of each. -/
def declareTypes (base : ClassId) :
    Command → List ConcreteType → Command × List (ClassId × String)
  | c, [] => (c, [])
  | c, t :: rest =>
    let (declared, set) := declareType base c t
    let (all, sets) := declareTypes base declared rest
    (all, (t.id, set) :: sets)

def setsBelow (g : Graph) (sets : List (ClassId × String)) (id : ClassId) : List String :=
  (subtree g id).filterMap fun current => sets.lookup current

/-- A property to be sent: the sets that it belongs to, and the type that declares it when that is
below the base. -/
structure BodyEntry where
  property : PropertyId
  sets : List String
  discriminator : Option String
deriving Repr, DecidableEq

/-- The properties of the classes that can be sent in some set. The base stands for the inherited
ones too. -/
def bodyEntries (g : Graph) (base : ClassId) (key : Option PropertyId)
    (sets : List (ClassId × String)) : List ClassId → Except Fault (List BodyEntry)
  | [] => .ok []
  | id :: rest =>
    let members := setsBelow g sets id
    let declared :=
      if id = base then (g.allProperties id).map fun ids => (ids, none)
      else (g.classAt id).map fun c => (c.properties, some (g.qualify c.name))
    match members, declared with
    | [], _ => bodyEntries g base key sets rest
    | _ :: _, .error fault => .error fault
    | _ :: _, .ok (ids, discriminator) =>
      match bodyEntries g base key sets rest with
      | .error fault => .error fault
      | .ok others =>
        let own := (ids.filter fun p => some p != key).map fun p => ⟨p, members, discriminator⟩
        .ok (own ++ others)

/-- Whether the value of a property can be sent in the body of an operation. -/
def isEligible (g : Graph) (p : Property) (operation : OperationKind) : Except Fault Bool :=
  if p.isCollection then .ok false
  else
    match g.isEntityType p.type with
    | .error fault => .error fault
    | .ok isEntity => .ok (!isEntity && !p.isReadOnly operation)

/-- Whether the parameter is the field of the body with the given name. -/
def isBodyField (wire : String) (p : Parameter) : Bool :=
  p.location == .body && p.effectiveWireName == wire

/-- A body parameter used in more sets; one that comes in two types takes any value, and one that
is declared by two types is not tied to either. -/
def widen (sets : List String) (type : ParameterType) (discriminator : Option String)
    (p : Parameter) : Parameter :=
  { p with
    membership := sets.foldl SetMembership.insert p.membership
    type := if p.type = type then p.type else .object
    discriminator := if p.discriminator = discriminator then p.discriminator else none }

def modifyFirst {α : Type} (test : α → Bool) (change : α → α) : List α → List α
  | [] => []
  | x :: rest => if test x then change x :: rest else x :: modifyFirst test change rest

/-- The name of the parameter for a field, different from the names in use; `label` tells a renamed
one apart. -/
def fieldName (c : Command) (field label : String) : String :=
  let pascal := Naming.pascalCase field
  if c.parameterNames.contains pascal then
    Naming.freshName (pascal ++ label) c.parameterNames
  else pascal

/-- The command with a body parameter for a property of the given type. -/
def mergeProperty (c : Command) (p : Property) (type : ParameterType) (sets : List String)
    (discriminator : Option String) : Command :=
  if c.parameters.any (isBodyField p.name) then
    { c with
      parameters :=
        modifyFirst (isBodyField p.name) (widen sets type discriminator) c.parameters }
  else
    let plain : Parameter :=
      { name := fieldName c p.name "Property", type := type, location := .body }
    let added :=
      { (plain.withWireName p.name).inSets sets with
        fromPipelineByName := true
        discriminator := discriminator
        description := p.description }
    { c with parameters := c.parameters ++ [added] }

/-- The command with the body parameter of an entry, if its property can be sent. -/
def mergeEntry (g : Graph) (c : Command) (entry : BodyEntry) : Except Fault Command :=
  match g.propertyAt entry.property with
  | .error fault => .error fault
  | .ok p =>
    match isEligible g p c.operation with
    | .error fault => .error fault
    | .ok false => .ok c
    | .ok true =>
      match g.parameterType p.type p.isCollection with
      | .error fault => .error fault
      | .ok type => .ok (mergeProperty c p type entry.sets entry.discriminator)

/-- The command with the body parameters of the entries, up to the first fault. -/
def mergeEntries (g : Graph) : Command → List BodyEntry → Command × Option Fault
  | c, [] => (c, none)
  | c, entry :: rest =>
    match mergeEntry g c entry with
    | .error fault => (c, some fault)
    | .ok merged => mergeEntries g merged rest

/-- A set with the numbers of its parameters. -/
def candidateOf (c : Command) (set : String) : Selection.Candidate :=
  let members := c.parametersIn set
  ⟨set, members.countP (·.isMandatoryIn set), members.length⟩

/-- The command with the best of the sets as its default. -/
def chooseDefault (c : Command) (sets : List String) : Command :=
  match Selection.selectDefault (sets.map (candidateOf c)) with
  | some best => { c with sets := c.sets.map fun s => { s with isDefault := s.name == best.name } }
  | none => c

/-- The command with the body parameters for the hierarchy of `base`, and the fault that stopped
the work, if one did. -/
def resolve (g : Graph) (base : ClassId) (c : Command) : Command × Option Fault :=
  match hierarchy g base with
  | .error fault => (c, some fault)
  | .ok order =>
    match concreteTypes g order with
    | .error fault => (c, some fault)
    | .ok types =>
      let (declared, sets) := declareTypes base c types
      if sets.isEmpty then
        match g.classAt base with
        | .error fault => (c, some fault)
        | .ok b => (c, some (c.fault (.noConcreteType b.name)))
      else
        match g.keyProperty base with
        | .error fault => (declared, some fault)
        | .ok key =>
          match bodyEntries g base key sets order with
          | .error fault => (declared, some fault)
          | .ok entries =>
            match mergeEntries g declared entries with
            | (merged, some fault) => (merged, some fault)
            | (merged, none) => (chooseDefault merged (sets.map (·.2)), none)

/-- The command with the body parameters for the hierarchy of `base`. -/
def withBody (g : Graph) (base : ClassId) (c : Command) : Except Fault Command :=
  match resolve g base c with
  | (done, none) => .ok done
  | (_, some fault) => .error fault

end Synthesis
end EdmCommands
