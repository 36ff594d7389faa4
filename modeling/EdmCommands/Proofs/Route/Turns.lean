import EdmCommands.Proofs.Route.Routes
import EdmCommands.Proofs.Schema.Operations

/-!
# EdmCommands.Proofs.Route.Turns

The loop that looks for routes, turn by turn. Classes may refer to themselves and to each other, and
no limit need be set: what stops the loop is that a property is not put on a path a second time.

* `Turn`, `Turns`: one turn of the loop, and several.
* `Over`: where the loop stops, and with what.
* `Halts`: it stops after turns whose number is known before.
* `Advances`: behind its entry point a path goes along entity properties of classes, none twice.
* `advances_of_turn`, `advances_of_turns`: so for all that is ever on the stack.
* `halts_of_built`: the loop of a schema stops, and its paths are not longer than its entity
  properties allow.
-/

namespace EdmCommands
namespace Route

open Schema

/-- The properties of classes whose values are entities. -/
def entityProperties (g : Graph) : List PropertyId :=
  ((List.range g.properties.size).map PropertyId.mk).filter fun p =>
    g.isNavigation p && g.properties[p.index]?.any (·.owner != .container)

/-- What the loop starts with: the entry points. -/
def Work.start (steps : List NamedStep) : Work :=
  (Work.mk [] #[]).push ((stackOrder steps).map (Pending.mk none [] []))

/-- The path that a pending step is at the end of. -/
def Pending.path (p : Pending) : List Step :=
  p.before ++ [p.step]

/-- One turn of the loop: the topmost step is taken off the stack and looked at. -/
inductive Turn (g : Graph) (config : Config) : Work → Work → Prop where
  | look {next : Pending} {rest : List Pending} {nodes : Array Node} {w : Work} :
      Work.visit g config ⟨rest, nodes⟩ next = .ok w → Turn g config ⟨next :: rest, nodes⟩ w

/-- Several turns, one after the other. -/
inductive Turns (g : Graph) (config : Config) : Nat → Work → Work → Prop where
  | none (w : Work) : Turns g config 0 w w
  | turn {n : Nat} {w w' w'' : Work} :
      Turn g config w w' → Turns g config n w' w'' → Turns g config (n + 1) w w''

/-- The loop stops: nothing is left on the stack, or there is a fault with the topmost step. -/
inductive Over (g : Graph) (config : Config) : Work → Except Fault (List Node) → Prop where
  | done (nodes : Array Node) : Over g config ⟨[], nodes⟩ (.ok nodes.toList)
  | failed {next : Pending} {rest : List Pending} {nodes : Array Node} {fault : Fault} :
      Work.visit g config ⟨rest, nodes⟩ next = .error fault →
      Over g config ⟨next :: rest, nodes⟩ (.error fault)

/-- The loop stops, and there are never more turns than its start allows. -/
structure Halts (g : Graph) (config : Config) (start : Work) : Prop where
  stops : ∃ n w, Turns g config n start w ∧ Over g config w (start.run g config)
  bounded : ∀ n w, Turns g config n start w → n ≤ start.weight g config

/-- Behind its entry point the path goes along entity properties of classes, and along none of them
twice. -/
def Advances (g : Graph) (path : List Step) : Prop :=
  ∃ entry rest, path = entry :: rest ∧ (rest.map (·.property)).Nodup ∧
    ∀ step ∈ rest, step.property ∈ entityProperties g

variable {g : Graph} {config : Config} {w w' : Work} {n : Nat} {path : List Step}

/-! ## Turns -/

theorem weight_lt_of_turn (h : Turn g config w w') : w'.weight g config < w.weight g config := by
  cases h with
  | look hvisit => exact Work.weight_visit_lt hvisit

theorem weight_le_of_turns (h : Turns g config n w w') :
    n + w'.weight g config ≤ w.weight g config := by
  induction h with
  | none => exact Nat.le_of_eq (Nat.zero_add _)
  | turn hturn _ ih =>
    have := weight_lt_of_turn hturn
    omega

/-- Wherever the loop starts, it comes to where it stops, with the result of the whole work. -/
theorem exists_over (g : Graph) (config : Config) (w : Work) :
    ∃ n w', Turns g config n w w' ∧ Over g config w' (w.run g config) := by
  -- the stack may grow from turn to turn, so the induction is on the number of looks left
  induction hweight : w.weight g config using Nat.strongRecOn generalizing w with
  | ind k ih =>
    obtain ⟨stack, nodes⟩ := w
    cases stack with
    | nil =>
      rw [run_nil]
      exact ⟨0, _, .none _, .done nodes⟩
    | cons next rest =>
      rw [run_cons]
      cases hvisit : Work.visit g config ⟨rest, nodes⟩ next with
      | error fault => exact ⟨0, _, .none _, .failed hvisit⟩
      | ok w =>
        obtain ⟨n, w', hturns, hover⟩ := ih _ (hweight ▸ Work.weight_visit_lt hvisit) w rfl
        exact ⟨n + 1, w', .turn (.look hvisit) hturns, hover⟩

theorem halts (g : Graph) (config : Config) (start : Work) : Halts g config start where
  stops := exists_over g config start
  bounded n w h := by
    have := weight_le_of_turns h
    omega

/-! ## Paths -/

theorem Advances.length_le (h : Advances g path) :
    path.length ≤ 1 + (entityProperties g).length := by
  obtain ⟨entry, rest, rfl, nodup, hrest⟩ := h
  have sub : rest.map (·.property) ⊆ entityProperties g := by
    intro p hp
    obtain ⟨step, hstep, rfl⟩ := List.mem_map.1 hp
    exact hrest step hstep
  have := (nodup.subperm sub).length_le
  rw [List.length_map] at this
  rw [List.length_cons]
  omega

theorem Advances.append {step : Step} (h : Advances g path)
    (fresh : step.property ∉ path.map (·.property))
    (entity : step.property ∈ entityProperties g) : Advances g (path ++ [step]) := by
  obtain ⟨entry, rest, rfl, nodup, hrest⟩ := h
  rw [List.map_cons, List.mem_cons, not_or] at fresh
  refine ⟨entry, rest ++ [step], rfl, ?_, ?_⟩
  · rw [List.map_append, List.map_singleton, ← List.concat_eq_append]
    exact nodup.concat fresh.2
  · rw [List.forall_mem_append, List.forall_mem_singleton]
    exact ⟨hrest, entity⟩

/-- What can follow a property goes along an entity property of a class. -/
theorem entity_of_continues (hw : g.WellOwned) {last : PropertyId} {leg : Leg}
    (h : Continues g last leg) : leg.property ∈ entityProperties g := by
  obtain ⟨target, _, hnavigation, howned⟩ := h
  have declared : ∃ owner, leg.property ∈ g.ownProperties owner := by
    cases hcast : leg.cast with
    | none =>
      rw [hcast] at howned
      obtain ⟨owner, _, hmem⟩ := howned
      exact ⟨owner, hmem⟩
    | some c =>
      rw [hcast] at howned
      exact ⟨c, howned.2⟩
  obtain ⟨owner, hmem⟩ := declared
  obtain ⟨q, hq, howner⟩ := hw.own_known hmem
  have known := (Array.getElem?_eq_some_iff.1 hq).1
  refine List.mem_filter.2 ⟨List.mem_map.2 ⟨_, List.mem_range.2 known, rfl⟩, ?_⟩
  simp [hnavigation, hq, howner]

/-- A turn puts paths on the stack that advance, if those on it do. -/
theorem advances_of_turn (hf : g.Forest) (hw : g.WellOwned) (h : Turn g config w w')
    (before : ∀ p ∈ w.stack, Advances g p.path) : ∀ p ∈ w'.stack, Advances g p.path := by
  cases h with
  | @look next rest nodes _ hvisit =>
  rw [List.forall_mem_cons] at before
  rcases visit_eq_ok_iff.1 hvisit with ⟨_, rfl⟩ | ⟨ids, following, hfollow, rfl⟩
  · exact before.2
  · rw [List.forall_mem_append]
    refine ⟨fun p hp => ?_, before.2⟩
    obtain ⟨step, hstep, rfl⟩ := List.mem_map.1 hp
    obtain ⟨_, _, hcont⟩ := follow_eq_some hfollow
    have hleg : step.leg ∈ following.map (·.step.leg) :=
      mem_legs_reverse_stackOrder.1 (List.mem_map_of_mem hstep)
    obtain ⟨hcontinues, hfresh, _⟩ := (mem_continuations_iff hf hcont).1 hleg
    exact before.1.append hfresh (entity_of_continues hw hcontinues)

theorem advances_of_turns (hf : g.Forest) (hw : g.WellOwned) (h : Turns g config n w w')
    (start : ∀ p ∈ w.stack, Advances g p.path) : ∀ p ∈ w'.stack, Advances g p.path := by
  induction h with
  | none => exact start
  | turn hturn _ ih => exact ih (advances_of_turn hf hw hturn start)

theorem advances_of_start {steps : List NamedStep} :
    ∀ p ∈ (Work.start steps).stack, Advances g p.path := by
  intro p hp
  simp only [Work.start, Work.push, List.append_nil, List.mem_reverse, List.mem_map] at hp
  obtain ⟨step, _, rfl⟩ := hp
  exact ⟨step, [], rfl, List.nodup_nil, by simp⟩

/-! ## The loop of a schema -/

theorem exists_roots (hw : g.WellOwned) : ∃ steps, Tree.roots g = .ok steps := by
  have named : ∀ ids : List PropertyId, (∀ p ∈ ids, ∃ q, g.propertyAt p = .ok q) →
      ∃ all, nameCandidates g (ids.map fun p => (p, none)) = .ok all := by
    intro ids known
    induction ids with
    | nil => exact ⟨[], rfl⟩
    | cons id rest ih =>
      rw [List.forall_mem_cons] at known
      obtain ⟨q, hq⟩ := known.1
      obtain ⟨all, hall⟩ := ih known.2
      rw [List.map_cons, nameCandidates, hq, hall]
      exact ⟨_, rfl⟩
  obtain ⟨all, hall⟩ := named g.container.properties fun p hp => by
    obtain ⟨q, hq, _⟩ := hw.entry_known hp
    exact ⟨q, (g.propertyAt_eq_ok_iff).2 hq⟩
  rw [Tree.roots, hall]
  exact ⟨_, rfl⟩

/-- Whatever a schema built by the operations refers to and whatever the settings are, the loop that
looks for its routes stops. No path that it puts on the stack has more segments behind its entry
point than classes have entity properties. -/
theorem halts_of_built (hb : g.Built) (config : Config) :
    ∃ steps, Tree.roots g = .ok steps ∧
      Tree.build g config = ((Work.start steps).run g config).map Tree.mk ∧
      Halts g config (Work.start steps) ∧
      ∀ n w, Turns g config n (Work.start steps) w →
        ∀ p ∈ w.stack, p.path.length ≤ 1 + (entityProperties g).length := by
  obtain ⟨steps, hroots⟩ := exists_roots hb.wellOwned
  refine ⟨steps, hroots, ?_, halts g config _, ?_⟩
  · rw [Tree.build, hroots]
    rfl
  · intro n w hturns p hp
    exact (advances_of_turns hb.forest hb.wellOwned hturns advances_of_start p hp).length_le

theorem halts_of_built_library :
    Graph.library.Built ∧ (entityProperties Graph.library).length = 3 ∧
      ∃ steps, Tree.roots Graph.library = .ok steps ∧
        Tree.build Graph.library {} = ((Work.start steps).run Graph.library {}).map Tree.mk ∧
        Halts Graph.library {} (Work.start steps) ∧
        ∀ n w, Turns Graph.library {} n (Work.start steps) w →
          ∀ p ∈ w.stack, p.path.length ≤ 1 + (entityProperties Graph.library).length :=
  ⟨Graph.library_built, by decide +kernel, halts_of_built Graph.library_built {}⟩

end Route
end EdmCommands
