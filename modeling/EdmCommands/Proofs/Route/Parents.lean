import EdmCommands.Proofs.Route.Routes

/-!
# EdmCommands.Proofs.Route.Parents

The links from a node of the tree to its parent. A node stores the path of its parent, so that the
links are not needed to know its steps; here the two are shown to agree.

* `Node.Extends`: a node goes on from a path by one step.
* `Linked`: the nodes of a list, each below the path before them or below an earlier node.
* `linked_of_explores`: what the search finds is linked.
* `parent_of_build`: so for the tree of a schema.
* `ancestors_of_build`: the steps of a node are those met on the way up to an entry point.
-/

namespace EdmCommands
namespace Route

open Schema

/-- A node goes on from a path by one step, and marks no other segment than that. -/
structure Node.Extends (n : Node) (path : List Step) (ids : List Nat) : Prop where
  before : n.before = path
  idSegments : n.idSegments = ids ∨ n.idSegments = ids ++ [path.length]

/-- Every node of the list hangs below `parent` and goes on from its path, or does so with an
earlier node of the list, where the first has the number `next`. -/
def Linked (parent : Option NodeId) (before : List Step) (idSegments : List Nat) (next : Nat)
    (nodes : List Node) : Prop :=
  ∀ (i : Nat) (n : Node), nodes[i]? = some n →
    (n.parent = parent ∧ n.Extends before idSegments) ∨
      ∃ j m, j < i ∧ nodes[j]? = some m ∧ n.parent = some ⟨next + j⟩ ∧
        n.Extends m.steps m.idSegments

variable {g : Graph} {config : Config} {parent : Option NodeId} {before : List Step}
  {idSegments ids : List Nat} {next : Nat} {tree : Tree}

/-! ## The search -/

theorem ids_of_accept {step : Step}
    (h : accept g config before idSegments step = .ok (some ids)) :
    ids = idSegments ∨ ids = idSegments ++ [before.length] := by
  unfold accept at h
  split at h
  · cases h
  split at h
  · cases h
  split at h
  · cases h
  · cases h
    exact .inr rfl
  · cases h
    exact .inl rfl

theorem Linked.visit {step : Step} {below others : List Node}
    (hids : ids = idSegments ∨ ids = idSegments ++ [before.length])
    (hbelow : Linked (some ⟨next⟩) (before ++ [step]) ids (next + 1) below)
    (hothers : Linked parent before idSegments (next + 1 + below.length) others) :
    Linked parent before idSegments next (⟨parent, before, step, ids⟩ :: (below ++ others)) := by
  intro i n hn
  cases i with
  | zero =>
    cases hn
    exact .inl ⟨rfl, rfl, hids⟩
  | succ i =>
    rw [List.getElem?_cons_succ] at hn
    by_cases hi : i < below.length
    · rw [List.getElem?_append_left hi] at hn
      rcases hbelow i n hn with ⟨hparent, hextends⟩ | ⟨j, m, hj, hm, hparent, hextends⟩
      · exact .inr ⟨0, _, Nat.succ_pos i, rfl, hparent, hextends⟩
      · have hjm : (below ++ others)[j]? = some m := by
          rw [List.getElem?_append_left (by omega), hm]
        exact .inr ⟨j + 1, m, by omega, hjm, by rw [hparent, Nat.add_right_comm, Nat.add_assoc],
          hextends⟩
    · rw [List.getElem?_append_right (by omega)] at hn
      rcases hothers _ n hn with h | ⟨j, m, hj, hm, hparent, hextends⟩
      · exact .inl h
      · have hjm : (below ++ others)[below.length + j]? = some m := by
          rw [List.getElem?_append_right (by omega), Nat.add_sub_cancel_left, hm]
        refine .inr ⟨below.length + j + 1, m, by omega, hjm, ?_, hextends⟩
        rw [hparent, Nat.add_assoc next, Nat.add_comm 1, Nat.add_assoc, Nat.add_right_comm]

theorem linked_of_explores {steps : List Step} {nodes : List Node}
    (h : Explores g config parent before idSegments next steps nodes) :
    Linked parent before idSegments next nodes := by
  induction h with
  | done => intro i n hn; simp at hn
  | skip _ _ ih => exact ih
  | visit hfollow _ _ ihb iho => exact .visit (ids_of_accept (follow_eq_some hfollow).2.1) ihb iho

/-! ## The tree of a schema -/

theorem node_eq_ok_iff {id : NodeId} {n : Node} :
    tree.node id = .ok n ↔ tree.nodes[id.index]? = some n := by
  unfold Tree.node
  cases tree.nodes[id.index]? <;> simp

/-- A node of the tree is an entry point, or it goes on from its parent, which comes before it. -/
theorem parent_of_build (h : Tree.build g config = .ok tree) {i : Nat} {n : Node}
    (hn : tree.nodes[i]? = some n) :
    (n.parent = none ∧ n.Extends [] []) ∨
      ∃ j m, j < i ∧ n.parent = some ⟨j⟩ ∧ tree.node ⟨j⟩ = .ok m ∧
        n.Extends m.steps m.idSegments := by
  obtain ⟨_, _, hexplores⟩ := build_eq_ok_iff.1 h
  rcases linked_of_explores hexplores i n hn with hroot | ⟨j, m, hj, hm, hparent, hextends⟩
  · exact .inl hroot
  · exact .inr ⟨j, m, hj, by rw [hparent, Nat.zero_add], node_eq_ok_iff.2 hm, hextends⟩

/-- The way up from a node ends at an entry point, however far it may go on, and meets the steps of
the node. -/
theorem chainFrom_of_build (h : Tree.build g config = .ok tree) {i : Nat} {n : Node}
    (hn : tree.nodes[i]? = some n) {fuel : Nat} (hfuel : i ≤ fuel) :
    ∃ chain above, tree.chainFrom fuel n.parent = .ok chain ∧ chain.mapM tree.node = .ok above ∧
      n.steps = (n :: above).reverse.map (·.step) := by
  induction i using Nat.strongRecOn generalizing n fuel with
  | ind i ih =>
    rcases parent_of_build h hn with ⟨hparent, hbefore, _⟩ | ⟨j, m, hj, hparent, hm, hbefore, _⟩
    · rw [hparent]
      exact ⟨[], [], by cases fuel <;> rfl, rfl, by rw [Node.steps, hbefore]; rfl⟩
    · obtain ⟨fuel, rfl⟩ : ∃ k, fuel = k + 1 := ⟨fuel - 1, by omega⟩
      obtain ⟨chain, above, hchain, habove, hsteps⟩ :=
        ih j hj (node_eq_ok_iff.1 hm) (show j ≤ fuel by omega)
      refine ⟨⟨j⟩ :: chain, m :: above, ?_, ?_, ?_⟩
      · rw [hparent, Tree.chainFrom, hm]
        exact Fallible.map_eq_ok_iff.2 ⟨chain, hchain, rfl⟩
      · rw [Fallible.mapM_eq_ok_iff] at habove ⊢
        exact .cons hm habove
      · rw [Node.steps, hbefore, hsteps]
        simp

theorem ancestors_eq {i : Nat} {n : Node} (hn : tree.nodes[i]? = some n) :
    tree.ancestors ⟨i⟩ = tree.chainFrom (i + 1) n.parent := by
  have hnode : tree.node ⟨i⟩ = .ok n := node_eq_ok_iff.2 hn
  rw [Tree.ancestors, hnode]

theorem ancestors_of_build (h : Tree.build g config = .ok tree) {i : Nat} {n : Node}
    (hn : tree.nodes[i]? = some n) :
    ∃ chain above, tree.ancestors ⟨i⟩ = .ok chain ∧ chain.mapM tree.node = .ok above ∧
      n.steps = (n :: above).reverse.map (·.step) := by
  rw [ancestors_eq hn]
  exact chainFrom_of_build h hn (Nat.le_succ i)

end Route
end EdmCommands
