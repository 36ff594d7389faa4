import EdmCommands.Route.Work

/-!
# EdmCommands.Route.Tree

The routes of a service as a tree.

* `Tree.build`: all routes, each directly before those that continue it.
* `Tree.children`, `Tree.ancestors`: the tree seen from one of its places.
-/

namespace EdmCommands
namespace Route

open Schema

/-- All routes of a service, each directly before those that continue it. -/
structure Tree where
  nodes : List Node
deriving Repr, DecidableEq

namespace Tree

/-- The first steps of routes: the entry points. -/
def roots (g : Graph) : Except Fault (List NamedStep) :=
  (nameCandidates g (g.container.properties.map fun p => (p, none))).map fun all =>
    all.map fun c => { name := c.name, step := { property := c.property } }

def build (g : Graph) (config : Config) : Except Fault Tree :=
  match roots g with
  | .error fault => .error fault
  | .ok steps =>
    let work : Work := { stack := [] }
    ((work.push ((stackOrder steps).map (Pending.mk none [] []))).run g config).map Tree.mk

def node (t : Tree) (id : NodeId) : Except Fault Node :=
  match t.nodes[id.index]? with
  | some n => .ok n
  | none => .error (.generation (.danglingNode id.index))

def rootIds (t : Tree) : List NodeId :=
  t.nodes.zipIdx.filterMap fun (n, i) => if n.parent.isNone then some ⟨i⟩ else none

/-- The places of the nodes that continue a node by one step. -/
def children (t : Tree) (id : NodeId) : List NodeId :=
  t.nodes.zipIdx.filterMap fun (n, i) => if n.parent = some id then some ⟨i⟩ else none

/-- The places above `cursor`, nearest first, as far as `fuel` goes. -/
def chainFrom (t : Tree) : Nat → Option NodeId → Except Fault (List NodeId)
  | _, none => .ok []
  | 0, some _ => .ok []
  | fuel + 1, some current =>
    match t.node current with
    | .error fault => .error fault
    | .ok n => (chainFrom t fuel n.parent).map (current :: ·)

/-- The places above a node, nearest first. A parent comes before its children. -/
def ancestors (t : Tree) (id : NodeId) : Except Fault (List NodeId) :=
  match t.node id with
  | .error fault => .error fault
  | .ok n => t.chainFrom (id.index + 1) n.parent

end Tree
end Route
end EdmCommands
