import EdmCommands.Proofs.Fallible
import EdmCommands.Route.Tree

/-!
# EdmCommands.Proofs.Route.Exploration

The search for routes without its stack. What the stack holds of one parent is worked off as a
whole before what lies below it, so the search is a recursion over the steps that can follow a
path.

* `Explores`: the routes that come of several steps behind one path.
* `explores_of_run`, `run_of_explores`: the steps of one parent on top of a stack, by what comes
  of them.
* `build_eq_ok_iff`: the routes of a schema are what comes of the entry points.
* `pairwise_reverse_stackOrder`: steps come off the stack in ascending order of name, and those of
  one name in the order in which they were found.
-/

namespace EdmCommands
namespace Route

open Schema

/-- The routes that come of several steps behind one path, each before those that continue it,
where the first gets the number `next`. -/
inductive Explores (g : Graph) (config : Config) :
    (parent : Option NodeId) → (before : List Step) → (idSegments : List Nat) → (next : Nat) →
      List Step → List Node → Prop where
  | done {parent : Option NodeId} {before : List Step} {idSegments : List Nat} {next : Nat} :
      Explores g config parent before idSegments next [] []
  | skip {parent : Option NodeId} {before : List Step} {idSegments : List Nat} {next : Nat}
      {step : Step} {rest : List Step} {nodes : List Node} :
      follow g config before idSegments step = .ok none →
      Explores g config parent before idSegments next rest nodes →
      Explores g config parent before idSegments next (step :: rest) nodes
  | visit {parent : Option NodeId} {before : List Step} {idSegments ids : List Nat} {next : Nat}
      {step : Step} {rest : List Step} {following : List NamedStep} {below others : List Node} :
      follow g config before idSegments step = .ok (some (ids, following)) →
      Explores g config (some ⟨next⟩) (before ++ [step]) ids (next + 1)
        (stackOrder following).reverse below →
      Explores g config parent before idSegments (next + 1 + below.length) rest others →
      Explores g config parent before idSegments next (step :: rest)
        (⟨parent, before, step, ids⟩ :: (below ++ others))

variable {g : Graph} {config : Config} {parent : Option NodeId} {before : List Step}
  {idSegments : List Nat}

/-! ## The stack -/

theorem run_nil {nodes : Array Node} : Work.run g config ⟨[], nodes⟩ = .ok nodes.toList := by
  rw [Work.run]

theorem run_cons {next : Pending} {rest : List Pending} {nodes : Array Node} :
    Work.run g config ⟨next :: rest, nodes⟩ =
      (Work.visit g config ⟨rest, nodes⟩ next >>= Work.run g config) := by
  rw [Work.run]
  split
  · rename_i h
    rw [h]
    rfl
  · rename_i h
    simp [h, bind, Except.bind]

theorem visit_eq_ok_iff {w w' : Work} {next : Pending} :
    w.visit g config next = .ok w' ↔
      (follow g config next.before next.idSegments next.step = .ok none ∧ w' = w) ∨
      ∃ ids following,
        follow g config next.before next.idSegments next.step = .ok (some (ids, following)) ∧
        w' = ⟨(stackOrder following).reverse.map
            (Pending.mk (some ⟨w.nodes.size⟩) (next.before ++ [next.step]) ids) ++ w.stack,
          w.nodes.push ⟨next.parent, next.before, next.step, ids⟩⟩ := by
  unfold Work.visit
  cases hfollow : follow g config next.before next.idSegments next.step with
  | error fault => simp
  | ok found =>
    cases found with
    | none => simp [eq_comm]
    | some found =>
      obtain ⟨ids, following⟩ := found
      simp only [Except.ok.injEq, reduceCtorEq, false_and, false_or, Option.some.injEq,
        Prod.mk.injEq, Work.push, Node.steps, List.map_reverse]
      constructor
      · rintro rfl
        exact ⟨ids, following, ⟨rfl, rfl⟩, rfl⟩
      · rintro ⟨_, _, ⟨rfl, rfl⟩, rfl⟩
        rfl

theorem weight_lt_cons {next : Pending} {rest : List Pending} {nodes nodes' : Array Node} :
    Work.weight g config ⟨rest, nodes'⟩ < Work.weight g config ⟨next :: rest, nodes⟩ := by
  have := length_turns_pos g config next
  simp only [Work.weight, List.flatMap_cons, List.length_append]
  omega

/-- Steps of one parent on top of a stack are worked off before what lies below them. -/
theorem explores_of_run {steps : List Step} {rest : List Pending} {nodes : Array Node}
    {result : List Node}
    (h : Work.run g config ⟨steps.map (Pending.mk parent before idSegments) ++ rest, nodes⟩ =
      .ok result) :
    ∃ found, Explores g config parent before idSegments nodes.size steps found ∧
      Work.run g config ⟨rest, nodes ++ found.toArray⟩ = .ok result := by
  -- what lies above the rest of the stack is not fixed by its height, so the induction is on the
  -- number of looks that are left
  generalize hn : Work.weight g config
    ⟨steps.map (Pending.mk parent before idSegments) ++ rest, nodes⟩ = n
  induction n using Nat.strongRecOn generalizing parent before idSegments steps rest nodes with
  | ind n ih =>
    cases steps with
    | nil => exact ⟨[], .done, by simpa using h⟩
    | cons step steps =>
      rw [List.map_cons, List.cons_append, run_cons] at h
      obtain ⟨w, hw, h⟩ := Fallible.bind_eq_ok_iff.1 h
      have hlt := Work.weight_visit_lt hw
      rw [← List.cons_append, ← List.map_cons, hn] at hlt
      rcases visit_eq_ok_iff.1 hw with ⟨hnone, rfl⟩ | ⟨ids, following, hfollow, rfl⟩
      · obtain ⟨found, hfound, hrest⟩ := ih _ hlt h rfl
        exact ⟨found, .skip hnone hfound, hrest⟩
      · obtain ⟨below, hbelow, h⟩ := ih _ hlt h rfl
        have hrest : Work.weight g config ⟨steps.map (Pending.mk parent before idSegments) ++ rest,
            nodes.push ⟨parent, before, step, ids⟩ ++ below.toArray⟩ < n := by
          rw [← hn]
          exact weight_lt_cons
        obtain ⟨others, hothers, h⟩ := ih _ hrest h rfl
        have size : (nodes.push ⟨parent, before, step, ids⟩ ++ below.toArray).size =
            nodes.size + 1 + below.length := by
          simp only [Array.size_append, Array.size_push, List.size_toArray]
        rw [Array.size_push] at hbelow
        rw [size] at hothers
        refine ⟨_, .visit hfollow hbelow hothers, ?_⟩
        rw [← h]
        simp

theorem run_of_explores {steps : List Step} {next : Nat} {found : List Node}
    (hfound : Explores g config parent before idSegments next steps found) {rest : List Pending}
    {nodes : Array Node} (hnext : nodes.size = next) :
    Work.run g config ⟨steps.map (Pending.mk parent before idSegments) ++ rest, nodes⟩ =
      Work.run g config ⟨rest, nodes ++ found.toArray⟩ := by
  induction hfound generalizing rest nodes with
  | done => simp
  | @skip parent before idSegments next step steps found hnone _ ih =>
    rw [List.map_cons, List.cons_append, run_cons,
      visit_eq_ok_iff.2 (.inl ⟨hnone, rfl⟩), ← ih hnext]
    rfl
  | @visit parent before idSegments ids next step steps following below others hfollow _ _ ihb
      iho =>
    rw [List.map_cons, List.cons_append, run_cons,
      visit_eq_ok_iff.2 (.inr ⟨ids, following, hfollow, rfl⟩)]
    subst hnext
    have size : (nodes.push ⟨parent, before, step, ids⟩ ++ below.toArray).size =
        nodes.size + 1 + below.length := by
      simp only [Array.size_append, Array.size_push, List.size_toArray]
    refine (ihb (Array.size_push _)).trans ((iho size).trans ?_)
    simp

/-! ## The order of the stack -/

theorem name_le_trans (a b c : NamedStep) :
    decide (b.name ≤ a.name) = true → decide (c.name ≤ b.name) = true →
      decide (c.name ≤ a.name) = true := by
  simp only [decide_eq_true_eq]
  exact fun hba hcb => String.le_trans hcb hba

theorem name_le_total (a b : NamedStep) :
    (decide (b.name ≤ a.name) || decide (a.name ≤ b.name)) = true := by
  simpa using String.le_total b.name a.name

/-- Sorting keeps the order of the steps of one name. -/
theorem filter_mergeSort (steps : List NamedStep) (name : String) :
    (steps.mergeSort fun a b => b.name ≤ a.name).filter (·.name == name) =
      steps.filter (·.name == name) := by
  have same : (steps.filter (·.name == name)).Pairwise fun a b => decide (b.name ≤ a.name) := by
    refine List.Pairwise.imp_of_mem (R := fun _ _ => True) ?_
      (List.pairwise_of_forall fun _ _ => trivial)
    intro a b ha hb _
    have ha := (List.mem_filter.1 ha).2
    have hb := (List.mem_filter.1 hb).2
    rw [beq_iff_eq] at ha hb
    simp [ha, hb]
  have sub := (List.sublist_mergeSort name_le_trans name_le_total same
    List.filter_sublist).filter (·.name == name)
  rw [List.filter_filter] at sub
  simp only [Bool.and_self] at sub
  refine (sub.eq_of_length ?_).symm
  exact ((List.mergeSort_perm _ _).filter _).length_eq.symm

/-- Steps come off the stack in ascending order of name, and those of one name in the order in
which they were found. -/
theorem pairwise_reverse_stackOrder {steps : List NamedStep} {R : Step → Step → Prop}
    {S : NamedStep → NamedStep → Prop} (found : steps.Pairwise S)
    (asc : ∀ a ∈ steps, ∀ b ∈ steps, a.name < b.name → R a.step b.step)
    (kept : ∀ a ∈ steps, ∀ b ∈ steps, a.name = b.name → S a b → R a.step b.step) :
    (stackOrder steps).reverse.Pairwise R := by
  unfold stackOrder
  rw [List.pairwise_reverse, List.pairwise_map, List.pairwise_iff_forall_sublist]
  intro a b hab
  have sorted := List.pairwise_mergeSort name_le_trans name_le_total steps.reverse
  have hle : b.name ≤ a.name := by
    simpa using List.pairwise_iff_forall_sublist.1 sorted hab
  have ha : a ∈ steps := by simpa using hab.subset List.mem_cons_self
  have hb : b ∈ steps := by simpa using hab.subset (List.mem_cons_of_mem _ List.mem_cons_self)
  by_cases heq : b.name = a.name
  · refine kept b hb a ha heq ?_
    have sub := hab.filter (·.name == a.name)
    rw [filter_mergeSort] at sub
    have sub : [a, b].Sublist steps.reverse := by
      simpa [heq] using sub.trans List.filter_sublist
    exact List.pairwise_iff_forall_sublist.1 found (by simpa using sub.reverse)
  · exact asc b hb a ha (Std.lt_of_le_of_ne hle heq)

/-- The routes of a schema are what comes of the entry points. -/
theorem build_eq_ok_iff {tree : Tree} :
    Tree.build g config = .ok tree ↔
      ∃ steps, Tree.roots g = .ok steps ∧
        Explores g config none [] [] 0 (stackOrder steps).reverse tree.nodes := by
  unfold Tree.build
  cases Tree.roots g with
  | error fault => simp
  | ok steps =>
    obtain ⟨nodes⟩ := tree
    have stack : Work.push ⟨[], #[]⟩ ((stackOrder steps).map (Pending.mk none [] [])) =
        ⟨(stackOrder steps).reverse.map (Pending.mk none [] []) ++ [], #[]⟩ := by
      simp [Work.push]
    simp only [Except.ok.injEq, exists_eq_left', stack, Fallible.map_eq_ok_iff, Tree.mk.injEq]
    constructor
    · rintro ⟨result, h, rfl⟩
      obtain ⟨found, hfound, h⟩ := explores_of_run h
      rw [run_nil] at h
      cases h
      simpa using hfound
    · intro h
      exact ⟨nodes, by rw [run_of_explores h rfl, run_nil]; simp, rfl⟩

/-! ## A search by recursion -/

/-- A step in its place among steps in ascending order of name. -/
def insertStep (step : NamedStep) : List NamedStep → List NamedStep
  | [] => [step]
  | other :: rest =>
    if step.name ≤ other.name then step :: other :: rest else other :: insertStep step rest

/-- The steps in ascending order of name; those of one name keep their order. -/
def byName : List NamedStep → List NamedStep
  | [] => []
  | step :: rest => insertStep step (byName rest)

/-- The routes that come of several steps, where `fuel` bounds their number. -/
def search (g : Graph) (config : Config) :
    (fuel : Nat) → (parent : Option NodeId) → (before : List Step) → (idSegments : List Nat) →
      (next : Nat) → List Step → Option (List Node)
  | _, _, _, _, _, [] => some []
  | 0, _, _, _, _, _ :: _ => none
  | fuel + 1, parent, before, idSegments, next, step :: rest =>
    match follow g config before idSegments step with
    | .error _ => none
    | .ok none => search g config fuel parent before idSegments next rest
    | .ok (some (ids, following)) => do
      let below ← search g config fuel (some ⟨next⟩) (before ++ [step]) ids (next + 1)
        ((byName following).map (·.step))
      let others ← search g config fuel parent before idSegments (next + 1 + below.length) rest
      some (⟨parent, before, step, ids⟩ :: (below ++ others))

theorem filter_insertStep {step : NamedStep} {steps : List NamedStep} {name : String} :
    (insertStep step steps).filter (·.name == name) =
      (step :: steps).filter (·.name == name) := by
  induction steps with
  | nil => rfl
  | cons other rest ih =>
    unfold insertStep
    split
    · rfl
    · rename_i hle
      have hne : step.name ≠ other.name := fun heq => hle (heq ▸ String.le_refl _)
      simp only [List.filter_cons, ih]
      by_cases hstep : step.name = name <;> by_cases hother : other.name = name <;>
        simp [hstep, hother]
      exact absurd (hstep.trans hother.symm) hne

theorem filter_byName {steps : List NamedStep} {name : String} :
    (byName steps).filter (·.name == name) = steps.filter (·.name == name) := by
  induction steps with
  | nil => rfl
  | cons step rest ih => rw [byName, filter_insertStep, List.filter_cons, List.filter_cons, ih]

theorem mem_insertStep {step s : NamedStep} {steps : List NamedStep}
    (h : s ∈ insertStep step steps) : s = step ∨ s ∈ steps := by
  induction steps with
  | nil => simpa [insertStep] using h
  | cons other rest ih =>
    unfold insertStep at h
    split at h
    · simpa using h
    · rcases List.mem_cons.1 h with rfl | h
      · simp
      · rcases ih h with rfl | h
        · simp
        · simp [h]

theorem sorted_insertStep {step : NamedStep} {steps : List NamedStep}
    (h : steps.Pairwise fun a b => a.name ≤ b.name) :
    (insertStep step steps).Pairwise fun a b => a.name ≤ b.name := by
  induction steps with
  | nil => simp [insertStep]
  | cons other rest ih =>
    obtain ⟨hother, hrest⟩ := List.pairwise_cons.1 h
    unfold insertStep
    split
    · rename_i hle
      refine List.pairwise_cons.2 ⟨?_, h⟩
      rw [List.forall_mem_cons]
      exact ⟨hle, fun s hs => String.le_trans hle (hother s hs)⟩
    · rename_i hle
      refine List.pairwise_cons.2 ⟨fun s hs => ?_, ih hrest⟩
      rcases mem_insertStep hs with rfl | hs
      · exact (String.le_total _ _).resolve_left hle
      · exact hother s hs

theorem sorted_byName {steps : List NamedStep} :
    (byName steps).Pairwise fun a b => a.name ≤ b.name := by
  induction steps with
  | nil => exact .nil
  | cons step rest ih => exact sorted_insertStep ih

/-- Steps in order of name are fixed by the order of those of one name. -/
theorem eq_of_sorted {xs ys : List NamedStep} (hx : xs.Pairwise fun a b => a.name ≤ b.name)
    (hy : ys.Pairwise fun a b => a.name ≤ b.name)
    (same : ∀ name, xs.filter (·.name == name) = ys.filter (·.name == name)) : xs = ys := by
  induction xs generalizing ys with
  | nil =>
    cases ys with
    | nil => rfl
    | cons y ys => simpa using same y.name
  | cons x xs ih =>
    cases ys with
    | nil => simpa using same x.name
    | cons y ys =>
      obtain ⟨hxs, hxrest⟩ := List.pairwise_cons.1 hx
      obtain ⟨hys, hyrest⟩ := List.pairwise_cons.1 hy
      have hle : x.name ≤ y.name := by
        have hmem : y ∈ (x :: xs).filter (·.name == y.name) := by rw [same]; simp
        rcases List.mem_cons.1 (List.mem_filter.1 hmem).1 with rfl | hmem
        · exact String.le_refl _
        · exact hxs y hmem
      have hge : y.name ≤ x.name := by
        have hmem : x ∈ (y :: ys).filter (·.name == x.name) := by rw [← same]; simp
        rcases List.mem_cons.1 (List.mem_filter.1 hmem).1 with rfl | hmem
        · exact String.le_refl _
        · exact hys x hmem
      have hname := String.le_antisymm hle hge
      have heq : x = y := by
        have := same x.name
        simp only [List.filter_cons, beq_self_eq_true, if_true, hname] at this
        exact (List.cons.inj this).1
      subst heq
      congr 1
      refine ih hxrest hyrest fun name => ?_
      have := same name
      rw [List.filter_cons, List.filter_cons] at this
      split at this
      · exact (List.cons.inj this).2
      · exact this

theorem reverse_stackOrder (steps : List NamedStep) :
    (stackOrder steps).reverse = (byName steps).map (·.step) := by
  rw [stackOrder, ← List.map_reverse]
  congr 1
  refine eq_of_sorted ?_ sorted_byName fun name => ?_
  · rw [List.pairwise_reverse]
    exact (List.pairwise_mergeSort name_le_trans name_le_total _).imp fun h => by simpa using h
  · rw [List.filter_reverse, filter_mergeSort, List.filter_reverse, List.reverse_reverse,
      filter_byName]

theorem explores_of_search {fuel : Nat} {next : Nat} {steps : List Step} {nodes : List Node}
    (h : search g config fuel parent before idSegments next steps = some nodes) :
    Explores g config parent before idSegments next steps nodes := by
  induction fuel generalizing parent before idSegments next steps nodes with
  | zero =>
    cases steps with
    | nil => cases h; exact .done
    | cons step rest => cases h
  | succ fuel ih =>
    cases steps with
    | nil => cases h; exact .done
    | cons step rest =>
      unfold search at h
      split at h
      · cases h
      · rename_i hfollow
        exact .skip hfollow (ih h)
      · rename_i ids following hfollow
        obtain ⟨below, hbelow, h⟩ := Option.bind_eq_some_iff.1 h
        obtain ⟨others, hothers, h⟩ := Option.bind_eq_some_iff.1 h
        cases h
        rw [← reverse_stackOrder] at hbelow
        exact .visit hfollow (ih hbelow) (ih hothers)

/-- The tree of a schema, when the recursion finds one. -/
theorem build_of_search {fuel : Nat} {steps : List NamedStep} {nodes : List Node}
    (hroots : Tree.roots g = .ok steps)
    (h : search g config fuel none [] [] 0 ((byName steps).map (·.step)) = some nodes) :
    Tree.build g config = .ok ⟨nodes⟩ := by
  rw [← reverse_stackOrder] at h
  exact build_eq_ok_iff.2 ⟨steps, hroots, explores_of_search h⟩

end Route
end EdmCommands
