import EdmCommands.Proofs.Schema.Operations
import EdmCommands.Proofs.Synthesis.Hierarchy

/-!
# EdmCommands.Proofs.Schema.Runs

Runs of operations of which some are refused. A refused operation leaves the graph as it was, so
whatever is tried, the graph stays one that can be built, and its inheritance is in order.

* `Operation.attempt`: an operation that may be refused.
* `built_of_attempts`: a run of them, by induction on the run.
* `Linked`: what the links of inheritance and the walks along them satisfy.
* `linked_of_attempts`: every run leads to such links.
-/

namespace EdmCommands
namespace Schema
namespace Graph

variable {g : Graph} {ops : List Operation} {spaceName containerName : String}

/-- The graph after an operation, the one before it when the operation is refused. -/
def Operation.attempt (g : Graph) (op : Operation) : Graph :=
  match op.apply g with
  | .ok grown => grown
  | .error _ => g

theorem Built.attempt (built : g.Built) {op : Operation} (fresh : op.AddsFresh) :
    (op.attempt g).Built := by
  unfold Operation.attempt
  split
  · rename_i grown happly
    exact built.apply fresh happly
  · exact built

theorem built_of_attempts (built : g.Built) (fresh : ∀ op ∈ ops, op.AddsFresh) :
    (ops.foldl Operation.attempt g).Built := by
  induction ops generalizing g with
  | nil => exact built
  | cons op rest ih =>
    rw [List.forall_mem_cons] at fresh
    exact ih (built.attempt fresh.1) fresh.2

/-- The two copies of each link agree, no class is below itself, and the walks up and down from a
class come to an end and find what the links say, level by level. -/
structure Linked (g : Graph) : Prop where
  acyclic : ∀ id, ¬ g.Derives id id
  listed : ∀ d b, (g.derivedOf b).count d = if g.baseOf d = some b then 1 else 0
  up : ∀ id, g.IsClass id → ∃ above, g.ancestors id = .ok above ∧ g.BaseChain id above
  down : ∀ id, g.IsClass id → Synthesis.hierarchy g id = .ok (id :: g.below id) ∧
    Synthesis.subtree g id = id :: g.below id
  found : ∀ b, g.IsClass b → g.descendants b = .ok (g.below b)
  once : ∀ b, (g.below b).Nodup
  below : ∀ b d, d ∈ g.below b ↔ ∃ above, g.ancestors d = .ok above ∧ b ∈ above

namespace Forest

theorem count_derivedOf (hf : g.Forest) (d b : ClassId) :
    (g.derivedOf b).count d = if g.baseOf d = some b then 1 else 0 := by
  by_cases h : g.baseOf d = some b
  · rw [if_pos h]
    have hmem : d ∈ g.derivedOf b := hf.mem_derivedOf_iff.2 h
    exact List.count_eq_one_of_mem (hf.derived_nodup b) hmem
  · rw [if_neg h, List.count_eq_zero]
    exact fun hmem => h (hf.mem_derivedOf_iff.1 hmem)

theorem exists_ancestors (hf : g.Forest) {id : ClassId} (known : g.IsClass id) :
    ∃ above, g.ancestors id = .ok above ∧ g.BaseChain id above := by
  obtain ⟨above, hchain⟩ := hf.chain id
  exact ⟨above, ancestors_eq hf known hchain, hchain⟩

theorem mem_below_iff_ancestors (hf : g.Forest) (b d : ClassId) :
    d ∈ g.below b ↔ ∃ above, g.ancestors d = .ok above ∧ b ∈ above := by
  constructor
  · intro hd
    obtain ⟨above, habove, hchain⟩ := hf.exists_ancestors (isClass_of_mem_below hf hd)
    have hderives : g.Derives d b := (mem_below_iff hf).1 hd
    exact ⟨above, habove, hchain.mem_iff.2 hderives⟩
  · rintro ⟨above, habove, hb⟩
    have hderives : g.Derives d b := (mem_ancestors_iff hf habove).1 hb
    exact (mem_below_iff hf).2 hderives

theorem linked (hf : g.Forest) : g.Linked where
  acyclic _ := hf.not_derives_self
  listed := hf.count_derivedOf
  up _ known := hf.exists_ancestors known
  down _ known := ⟨Synthesis.hierarchy_eq hf known, Synthesis.subtree_eq hf known⟩
  found _ known := descendants_eq hf known
  once _ := nodup_below hf
  below := hf.mem_below_iff_ancestors

end Forest

/-- Whatever operations are tried, in whatever order and however many of them are refused, the
inheritance of the graph is in order. -/
theorem linked_of_attempts (spaceName containerName : String)
    (fresh : ∀ op ∈ ops, op.AddsFresh) :
    (ops.foldl Operation.attempt (Graph.empty spaceName containerName)).Linked := by
  have built := built_of_attempts (.empty spaceName containerName) fresh
  exact built.forest.linked

/-- A class is linked, hung under another class and linked there again; a link that closes a cycle
and one to a class that is not there are tried too. -/
def rehanging : List Operation :=
  [.addClass { name := "Item", kind := .entity },
    .addClass { name := "Book", kind := .entity },
    .addClass { name := "Atlas", kind := .entity },
    .setBase ⟨2⟩ ⟨0⟩,
    .setBase ⟨1⟩ ⟨0⟩,
    .setBase ⟨2⟩ ⟨1⟩,
    .setBase ⟨0⟩ ⟨2⟩,
    .setBase ⟨2⟩ ⟨1⟩,
    .setBase ⟨1⟩ ⟨7⟩]

theorem linked_of_rehanging :
    (∀ op ∈ rehanging, op.AddsFresh) ∧
      (rehanging.foldl Operation.attempt (Graph.empty "shop" "Shop")).below ⟨0⟩ = [⟨1⟩, ⟨2⟩] ∧
      (rehanging.foldl Operation.attempt (Graph.empty "shop" "Shop")).Linked := by
  have fresh : ∀ op ∈ rehanging, op.AddsFresh := by
    simp only [rehanging, List.forall_mem_cons, Operation.AddsFresh, List.not_mem_nil,
      false_imp_iff, implies_true, and_true]
    exact ⟨⟨rfl, rfl, rfl, rfl⟩, ⟨rfl, rfl, rfl, rfl⟩, ⟨rfl, rfl, rfl, rfl⟩⟩
  exact ⟨fresh, by decide +kernel, linked_of_attempts "shop" "Shop" fresh⟩

end Graph
end Schema
end EdmCommands
