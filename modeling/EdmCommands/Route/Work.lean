import EdmCommands.Route.Step

/-!
# EdmCommands.Route.Work

The search for routes, with a stack of the steps that are still to be looked at. The topmost is
taken off, and when it makes a route, the steps that can follow it are put on top.

* `Node`: a route, in the place where it was found.
* `stackOrder`: the order in which steps are put on the stack.
* `Work.visit`: what is done with one step.
* `Work.run`: all steps in turn. No property is repeated on a route, so there is an end to it:
  `Work.weight` counts the steps that will be taken off the stack, and each look at one makes them
  fewer.
-/

namespace EdmCommands
namespace Route

open Schema

structure NodeId where
  index : Nat
deriving Repr, DecidableEq

/-- A route: the steps of its path and where it hangs in the tree. -/
structure Node where
  parent : Option NodeId
  before : List Step
  step : Step
  /-- The segments that are entity collections. -/
  idSegments : List Nat
deriving Repr, DecidableEq

namespace Node

/-- All steps from the container on. -/
def steps (n : Node) : List Step :=
  n.before ++ [n.step]

/-- The properties from the container on. -/
def path (n : Node) : List PropertyId :=
  n.steps.map (·.property)

def depth (n : Node) : Nat :=
  n.steps.length

/-- The segments that are cast, by the step that follows them. -/
def typecastSegments (n : Node) : List (Nat × Cast) :=
  n.steps.zipIdx.filterMap fun (step, i) => step.cast.map fun cast => (i - 1, cast)

end Node

/-- A step to be looked at, behind the path of its parent. -/
structure Pending where
  parent : Option NodeId
  before : List Step
  /-- The segments of the path that are entity collections. -/
  idSegments : List Nat
  step : Step
deriving Repr, DecidableEq

/-- The steps in descending order of name, those of one name in reverse. Put on a stack one after
the other, they come off in ascending order, and those of one name in the order they had. -/
def stackOrder (steps : List NamedStep) : List Step :=
  (steps.reverse.mergeSort fun a b => b.name ≤ a.name).map (·.step)

/-- The steps to be looked at, the topmost first, and the routes found so far. -/
structure Work where
  stack : List Pending
  nodes : Array Node := #[]

/-- The work with more steps on the stack, the last of them on top. -/
def Work.push (w : Work) (pending : List Pending) : Work :=
  { w with stack := pending.reverse ++ w.stack }

/-- What is left to do after a look at one step. -/
def Work.visit (g : Graph) (config : Config) (w : Work) (next : Pending) : Except Fault Work :=
  match follow g config next.before next.idSegments next.step with
  | .error fault => .error fault
  | .ok none => .ok w
  | .ok (some (ids, following)) =>
    let node : Node := ⟨next.parent, next.before, next.step, ids⟩
    let grown : Work := { w with nodes := w.nodes.push node }
    .ok (grown.push ((stackOrder following).map (Pending.mk (some ⟨w.nodes.size⟩) node.steps ids)))

/-! ## The end of the work -/

/-- The number of properties that are not on a path. -/
def rank (g : Graph) (steps : List Step) : Nat :=
  (List.range g.properties.size).countP fun i => !(steps.map (·.property)).contains ⟨i⟩

/-- The steps that come of one, itself included, where `depth` bounds the length of what follows
it. -/
def tries (g : Graph) (config : Config) :
    (depth : Nat) → (before : List Step) → (idSegments : List Nat) → Step → List Step
  | 0, _, _, step => [step]
  | depth + 1, before, idSegments, step =>
    match follow g config before idSegments step with
    | .ok (some (ids, following)) =>
      step :: following.flatMap fun next => tries g config depth (before ++ [step]) ids next.step
    | _ => [step]

/-- The steps that come of a pending one, itself included. -/
def turns (g : Graph) (config : Config) (p : Pending) : List Step :=
  tries g config (rank g (p.before ++ [p.step]) + 1) p.before p.idSegments p.step

/-- The number of steps that will be taken off the stack. -/
def Work.weight (g : Graph) (config : Config) (w : Work) : Nat :=
  (w.stack.flatMap (turns g config)).length

theorem length_turns_pos (g : Graph) (config : Config) (p : Pending) :
    0 < (turns g config p).length := by
  unfold turns tries
  split <;> simp

/-- In a list without repetition one element more is left out when `a` is. -/
theorem countP_except {l : List Nat} (nodup : l.Nodup) {a : Nat} (ha : a ∈ l) {p : Nat → Bool}
    (hpa : p a = true) : l.countP (fun i => p i && i != a) + 1 = l.countP p := by
  induction l with
  | nil => cases ha
  | cons b rest ih =>
    obtain ⟨hb, hrest⟩ := List.nodup_cons.1 nodup
    rw [List.countP_cons, List.countP_cons]
    rcases List.mem_cons.1 ha with rfl | ha
    · have same : rest.countP (fun i => p i && i != a) = rest.countP p := by
        refine List.countP_congr fun i hi => ?_
        have : i ≠ a := fun heq => hb (heq ▸ hi)
        simp [this]
      simp [same, hpa]
    · have hne : b ≠ a := fun heq => hb (heq ▸ ha)
      have := ih hrest ha
      simp only [bne_iff_ne, ne_eq, hne, not_false_eq_true, Bool.and_eq_true, and_true]
      omega

theorem rank_append {g : Graph} {steps : List Step} {step : Step}
    (known : step.property.index < g.properties.size)
    (fresh : step.property ∉ steps.map (·.property)) :
    rank g (steps ++ [step]) + 1 = rank g steps := by
  unfold rank
  have left : (!(steps.map (·.property)).contains (⟨step.property.index⟩ : PropertyId)) = true := by
    simpa using fresh
  rw [← countP_except List.nodup_range (List.mem_range.2 known)
    (p := fun i => !(steps.map (·.property)).contains (⟨i⟩ : PropertyId)) left]
  congr 1
  refine List.countP_congr fun i _ => ?_
  have : (⟨i⟩ : PropertyId) = step.property ↔ i = step.property.index := by
    cases step.property
    simp
  simp [List.contains_eq_mem, this]

theorem rank_of_mem_follow {g : Graph} {config : Config} {before : List Step}
    {idSegments ids : List Nat} {step : Step} {following : List NamedStep}
    (h : follow g config before idSegments step = .ok (some (ids, following))) {next : NamedStep}
    (hnext : next ∈ following) :
    rank g (before ++ [step] ++ [next.step]) + 1 = rank g (before ++ [step]) := by
  unfold follow at h
  split at h
  · cases h
  · cases h
  · split at h
    · cases h
    · rename_i hcont
      cases h
      obtain ⟨known, fresh⟩ := fresh_of_mem_continuations hcont hnext
      exact rank_append known fresh

theorem stackOrder_perm (steps : List NamedStep) :
    (stackOrder steps).Perm (steps.map (·.step)) :=
  (((List.mergeSort_perm _ _).trans (List.reverse_perm _)).map _)

theorem turns_eq {g : Graph} {config : Config} {p : Pending} {ids : List Nat}
    {following : List NamedStep}
    (h : follow g config p.before p.idSegments p.step = .ok (some (ids, following)))
    (parent : Option NodeId) :
    (turns g config p).length =
      1 + ((stackOrder following).flatMap fun step =>
        turns g config ⟨parent, p.before ++ [p.step], ids, step⟩).length := by
  have child : ∀ next ∈ following,
      turns g config ⟨parent, p.before ++ [p.step], ids, next.step⟩ =
        tries g config (rank g (p.before ++ [p.step])) (p.before ++ [p.step]) ids next.step := by
    intro next hnext
    rw [← rank_of_mem_follow h hnext]
    rfl
  rw [((stackOrder_perm following).flatMap_right _).length_eq, List.flatMap_map, List.flatMap_def,
    List.map_congr_left child, ← List.flatMap_def, turns, tries, h]
  simp [Nat.add_comm]

/-- A look at the topmost step leaves fewer to be looked at. -/
theorem Work.weight_visit_lt {g : Graph} {config : Config} {next : Pending} {rest : List Pending}
    {nodes : Array Node} {w : Work} (h : Work.visit g config ⟨rest, nodes⟩ next = .ok w) :
    w.weight g config < Work.weight g config ⟨next :: rest, nodes⟩ := by
  have weight_cons : Work.weight g config ⟨next :: rest, nodes⟩ =
      (turns g config next).length + Work.weight g config ⟨rest, nodes⟩ := by
    simp only [weight, List.flatMap_cons, List.length_append]
  unfold visit at h
  split at h
  · cases h
  · cases h
    have := length_turns_pos g config next
    omega
  · rename_i ids following hfollow
    cases h
    have := turns_eq hfollow (some ⟨nodes.size⟩)
    have order : ∀ pending : List Pending, (pending.reverse.flatMap (turns g config)).length =
        (pending.flatMap (turns g config)).length :=
      fun pending => ((List.reverse_perm pending).flatMap_right _).length_eq
    rw [weight_cons, this]
    simp only [weight, push, List.flatMap_append, List.length_append, order, List.flatMap_map,
      Node.steps]
    omega

/-- All steps on the stack in turn, each followed by those that it leads to. -/
def Work.run (g : Graph) (config : Config) : Work → Except Fault (List Node)
  | ⟨[], nodes⟩ => .ok nodes.toList
  | ⟨next :: rest, nodes⟩ =>
    match h : Work.visit g config ⟨rest, nodes⟩ next with
    | .error fault => .error fault
    | .ok w =>
      have := weight_visit_lt h
      run g config w
termination_by w => w.weight g config

end Route
end EdmCommands
