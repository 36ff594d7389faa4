import EdmCommands.Proofs.Schema.Built
import EdmCommands.Synthesis.Body

/-!
# EdmCommands.Proofs.Synthesis.Hierarchy

The classes that a body is resolved for, in a forest: the walks of the resolver meet a class and
those below it level by level, and the concrete ones keep that order.

* `hierarchy_eq`, `subtree_eq`: what the two walks answer.
* `Graph.concrete`: the concrete classes of a hierarchy, breadth first.
* `concreteTypes_eq`, `concreteTypes_of_hierarchy`: the types that can be sent are these.
-/

namespace EdmCommands
namespace Schema
namespace Graph

/-- There is a class at the place and it is not abstract. -/
def isConcrete (g : Graph) (id : ClassId) : Bool :=
  g.classes[id.index]?.any (!·.isAbstract)

/-- The concrete classes among a class and those below it, breadth first. -/
def concrete (g : Graph) (base : ClassId) : List ClassId :=
  (base :: g.below base).filter g.isConcrete

variable {g : Graph} {base d : ClassId}

theorem nodup_hierarchy (hf : g.Forest) : (base :: g.below base).Nodup :=
  List.nodup_cons.2 ⟨self_not_mem_below hf, nodup_below hf⟩

theorem mem_hierarchy_iff (hf : g.Forest) : d ∈ base :: g.below base ↔ g.Within d base := by
  rw [List.mem_cons, mem_below_iff hf]
  rfl

theorem nodup_concrete (hf : g.Forest) : (g.concrete base).Nodup :=
  (nodup_hierarchy hf).filter _

theorem mem_concrete_iff (hf : g.Forest) :
    d ∈ g.concrete base ↔ g.Within d base ∧ g.isConcrete d = true := by
  rw [concrete, List.mem_filter, mem_hierarchy_iff hf]

theorem concrete_eq_nil_iff (hf : g.Forest) :
    g.concrete base = [] ↔ ∀ d, g.Within d base → g.isConcrete d = false := by
  simp only [concrete, List.filter_eq_nil_iff, mem_hierarchy_iff hf, Bool.not_eq_true]

end Graph
end Schema

namespace Synthesis

open Schema

variable {g : Graph} {base : ClassId}

theorem isClass_of_mem_hierarchy (hf : g.Forest) (known : g.IsClass base) :
    ∀ x ∈ base :: g.below base, g.IsClass x := by
  intro x hx
  rcases List.mem_cons.1 hx with rfl | hx
  · exact known
  · exact Graph.isClass_of_mem_below hf hx

theorem length_hierarchy_le (hf : g.Forest) (known : g.IsClass base) :
    (base :: g.below base).length ≤ g.classes.size :=
  Graph.length_le_of_nodup (Graph.nodup_hierarchy hf) (isClass_of_mem_hierarchy hf known)

theorem hierarchyFrom_eq {fuel : Nat} {seen queue order : List ClassId}
    (h : Graph.Bfs g queue order) (known : ∀ x ∈ order, g.IsClass x) (nodup : order.Nodup)
    (unseen : ∀ x ∈ order, x ∉ seen) (fuel_le : order.length ≤ fuel) :
    hierarchyFrom g fuel seen queue = .ok order := by
  induction h generalizing fuel seen with
  | done => cases fuel <;> rfl
  | @visit id queue order _ ih =>
    cases fuel with
    | zero => simp at fuel_le
    | succ fuel =>
      rw [List.forall_mem_cons] at known unseen
      obtain ⟨hid, hnodup⟩ := List.nodup_cons.1 nodup
      obtain ⟨c, hc⟩ := Graph.isClass_iff.1 known.1
      have unseen' : ∀ x ∈ order, x ∉ id :: seen := by
        intro x hx hmem
        rcases List.mem_cons.1 hmem with rfl | hmem
        · exact hid hx
        · exact unseen.2 x hx hmem
      have rest := ih known.2 hnodup unseen' (by simpa using fuel_le)
      rw [Graph.derivedOf_of_classAt hc] at rest
      rw [hierarchyFrom, hc]
      simp only
      rw [if_neg unseen.1, rest]

theorem hierarchy_eq (hf : g.Forest) (known : g.IsClass base) :
    hierarchy g base = .ok (base :: g.below base) := by
  have := length_hierarchy_le hf known
  exact hierarchyFrom_eq (Graph.bfs_below hf) (isClass_of_mem_hierarchy hf known)
    (Graph.nodup_hierarchy hf) (by simp) (by omega)

/-- Where the walk starts there is a class, or it fails. -/
theorem isClass_of_hierarchy {order : List ClassId} (h : hierarchy g base = .ok order) :
    g.IsClass base := by
  unfold hierarchy hierarchyFrom at h
  split at h
  · cases h
  · rename_i c hc
    exact Graph.isClass_iff.2 ⟨c, hc⟩

theorem subtreeFrom_cons (fuel : Nat) (id : ClassId) (queue : List ClassId) :
    subtreeFrom g (fuel + 1) (id :: queue) =
      id :: subtreeFrom g fuel (queue ++ g.derivedOf id) := by
  rw [subtreeFrom, Graph.derivedOf]
  cases g.classes[id.index]? <;> rfl

theorem subtreeFrom_eq {fuel : Nat} {queue order : List ClassId} (h : Graph.Bfs g queue order)
    (fuel_le : order.length ≤ fuel) : subtreeFrom g fuel queue = order := by
  induction h generalizing fuel with
  | done => cases fuel <;> rfl
  | @visit id queue order _ ih =>
    cases fuel with
    | zero => simp at fuel_le
    | succ fuel =>
      rw [subtreeFrom_cons, ih (by simpa using fuel_le)]

theorem subtree_eq (hf : g.Forest) (known : g.IsClass base) :
    subtree g base = base :: g.below base := by
  have := length_hierarchy_le hf known
  exact subtreeFrom_eq (Graph.bfs_below hf) (by omega)

/-! ## Concrete types -/

def concreteType (g : Graph) (id : ClassId) : ConcreteType :=
  ⟨id, g.className id, g.qualify (g.className id)⟩

theorem concreteTypes_eq {ids : List ClassId} {types : List ConcreteType}
    (h : concreteTypes g ids = .ok types) :
    types = (ids.filter g.isConcrete).map (concreteType g) := by
  induction ids generalizing types with
  | nil =>
    cases h
    rfl
  | cons id rest ih =>
    unfold concreteTypes at h
    split at h
    · cases h
    rename_i c hc
    split at h
    · cases h
    rename_i others hothers
    cases h
    have hclass := (Graph.classAt_eq_ok_iff g).1 hc
    have name := Graph.className_of_classAt hc
    by_cases habstract : c.isAbstract
    · have : g.isConcrete id = false := by simp [Graph.isConcrete, hclass, habstract]
      simp [this, habstract, ih hothers]
    · have : g.isConcrete id = true := by simp [Graph.isConcrete, hclass, habstract]
      simp [this, habstract, ih hothers, concreteType, name]

theorem concreteTypes_of_hierarchy (hf : g.Forest) {order : List ClassId}
    {types : List ConcreteType} (horder : hierarchy g base = .ok order)
    (htypes : concreteTypes g order = .ok types) :
    types = (g.concrete base).map (concreteType g) := by
  rw [hierarchy_eq hf (isClass_of_hierarchy horder)] at horder
  cases horder
  exact concreteTypes_eq htypes

end Synthesis
end EdmCommands
