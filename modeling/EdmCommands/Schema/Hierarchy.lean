import EdmCommands.Schema.Basic

/-!
# EdmCommands.Schema.Hierarchy

Walks along the inheritance of classes: up the chain of bases and down to the derived classes,
breadth first. In a graph that is built by its operations the chains end and the walks meet each
class once; the walks take no such thing for granted and report what they meet.

* `Graph.ancestors`: the bases of a class, nearest first.
* `Graph.walkDown`: the derived classes of a queue of classes, each visited once.
* `Graph.descendants`: the classes below one, breadth first.
* `Graph.allProperties`, `Graph.allMethods`: the members of a class with the inherited ones first.
* `Graph.keyProperty`: the property that identifies the entities of a class.
-/

namespace EdmCommands
namespace Schema
namespace Graph

variable (g : Graph)

/-- The number of links from a class to a derived one. -/
def linkCount : Nat :=
  (g.classes.toList.flatMap (·.derived)).length

/-- The fault of a chain of bases that comes back to itself. -/
def cycleFault {α : Type} (id : ClassId) : Except Fault α :=
  match g.classAt id with
  | .error fault => .error fault
  | .ok c => .error (.schema c.name .baseCycle)

/-- The bases of `id` that follow those in `chain`, where `cursor` is the next one. A chain is no
longer than there are classes. -/
def climb (id : ClassId) : Nat → List ClassId → Option ClassId → Except Fault (List ClassId)
  | _, chain, none => .ok chain
  | 0, _, some _ => g.cycleFault id
  | fuel + 1, chain, some current =>
    if current = id ∨ current ∈ chain then g.cycleFault id
    else
      match g.classAt current with
      | .error fault => .error fault
      | .ok c => climb id fuel (chain ++ [current]) c.base

/-- The bases of a class, nearest first. -/
def ancestors (id : ClassId) : Except Fault (List ClassId) :=
  match g.classAt id with
  | .error fault => .error fault
  | .ok c => g.climb id (g.classes.size + 1) [] c.base

def isSameOrDerivedFrom (id ancestor : ClassId) : Except Fault Bool :=
  if id = ancestor then .ok true
  else (g.ancestors id).map (·.contains ancestor)

/-- What `visit` finds in the classes of the queue and below, breadth first. A class in `seen` is
passed over, so each is visited once. -/
def walkDown {α : Type} (visit : ClassId → StructuredType → Except Fault (List α)) :
    Nat → List ClassId → List ClassId → Except Fault (List α)
  | _, _, [] => .ok []
  | 0, _, _ :: _ => .ok []
  | fuel + 1, seen, current :: queue =>
    if current ∈ seen then walkDown visit fuel seen queue
    else
      match g.classAt current with
      | .error fault => .error fault
      | .ok c =>
        match visit current c with
        | .error fault => .error fault
        | .ok found =>
          match walkDown visit fuel (current :: seen) (queue ++ c.derived) with
          | .error fault => .error fault
          | .ok rest => .ok (found ++ rest)

/-- What `visit` finds below a class, without the classes in `seen`. -/
def collectBelow {α : Type} (visit : ClassId → StructuredType → Except Fault (List α))
    (id : ClassId) (seen : List ClassId) : Except Fault (List α) :=
  match g.classAt id with
  | .error fault => .error fault
  | .ok c => g.walkDown visit (2 * g.linkCount + 1) seen c.derived

/-- Every class below `id`, breadth first. -/
def descendants (id : ClassId) : Except Fault (List ClassId) :=
  g.collectBelow (fun current _ => .ok [current]) id [id]

def gather {α : Type} (part : StructuredType → List α) : List ClassId → Except Fault (List α)
  | [] => .ok []
  | id :: rest =>
    match g.classAt id with
    | .error fault => .error fault
    | .ok c =>
      match gather part rest with
      | .error fault => .error fault
      | .ok others => .ok (part c ++ others)

/-- A class behind its bases, the farthest first. -/
def lineage (id : ClassId) : Except Fault (List ClassId) :=
  (g.ancestors id).map fun chain => chain.reverse ++ [id]

/-- The properties of a class and its bases, those of the farthest base first. -/
def allProperties (id : ClassId) : Except Fault (List PropertyId) :=
  match g.lineage id with
  | .error fault => .error fault
  | .ok chain => g.gather (·.properties) chain

/-- The methods of a class, behind those of its bases if they are wanted. -/
def allMethods (id : ClassId) (inherited : Bool) : Except Fault (List MethodId) :=
  match if inherited then g.lineage id else .ok [id] with
  | .error fault => .error fault
  | .ok chain => g.gather (·.methods) chain

/-- The first key that a class in the list declares. -/
def firstKey : List ClassId → Except Fault (Option String)
  | [] => .ok none
  | id :: rest =>
    match g.classAt id with
    | .error fault => .error fault
    | .ok c =>
      match c.key with
      | some key => .ok (some key)
      | none => firstKey rest

/-- The name of the key of a class: its own, else that of the nearest base that declares one. -/
def keyName (id : ClassId) : Except Fault (Option String) :=
  match g.classAt id with
  | .error fault => .error fault
  | .ok c =>
    match c.key with
    | some key => .ok (some key)
    | none =>
      match g.ancestors id with
      | .error fault => .error fault
      | .ok chain => g.firstKey chain

def findNamed (name : String) : List PropertyId → Except Fault (Option PropertyId)
  | [] => .ok none
  | id :: rest =>
    match g.propertyAt id with
    | .error fault => .error fault
    | .ok p => if p.name == name then .ok (some id) else findNamed name rest

/-- The property that identifies the entities of a class, when a key is declared. -/
def keyProperty (id : ClassId) : Except Fault (Option PropertyId) :=
  match g.keyName id with
  | .error fault => .error fault
  | .ok none => .ok none
  | .ok (some key) =>
    match g.allProperties id with
    | .error fault => .error fault
    | .ok properties =>
      match g.findNamed key properties with
      | .error fault => .error fault
      | .ok (some property) => .ok (some property)
      | .ok none =>
        match g.classAt id with
        | .error fault => .error fault
        | .ok c => .error (.schema c.name (.undeclaredKey key))

end Graph
end Schema
end EdmCommands
