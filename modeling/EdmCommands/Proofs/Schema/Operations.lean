import EdmCommands.Proofs.Schema.Built

/-!
# EdmCommands.Proofs.Schema.Operations

The operations that build a graph as data, and runs of them.

* `Operation.apply`: what an operation makes of a graph.
* `Built.applyAll`: a run of operations makes a graph of the built ones.
* `library`: a small schema made by a run.
* `twins`: two classes of one name made by a run.
-/

namespace EdmCommands
namespace Schema
namespace Graph

variable {g g' : Graph}

inductive Operation where
  | addClass (c : StructuredType)
  | addEnum (e : EnumType)
  | setBase (derived base : ClassId)
  | addProperty (owner : ClassId) (p : Property)
  | addContainerProperty (p : Property)
  | addMethod (owner : ClassId) (m : Method)

namespace Operation

def apply (g : Graph) : Operation → Except Fault Graph
  | addClass c => (g.addClass c).map (·.1)
  | addEnum e => (g.addEnum e).map (·.1)
  | setBase derived base => g.setBase derived base
  | addProperty owner p => (g.addProperty owner p).map (·.1)
  | addContainerProperty p => (g.addContainerProperty p).map (·.1)
  | addMethod owner m => (g.addMethod owner m).map (·.1)

/-- A class that is added is not linked to anything yet. -/
def AddsFresh : Operation → Prop
  | addClass c => c.IsFresh
  | _ => True

end Operation

theorem Built.apply (built : g.Built) {op : Operation} (fresh : op.AddsFresh)
    (h : op.apply g = .ok g') : g'.Built := by
  cases op with
  | addClass c =>
    obtain ⟨⟨_, id⟩, hadd, rfl⟩ := Fallible.map_eq_ok_iff.1 h
    exact built.addClass fresh hadd
  | addEnum e =>
    obtain ⟨⟨_, id⟩, hadd, rfl⟩ := Fallible.map_eq_ok_iff.1 h
    exact built.addEnum hadd
  | setBase derived base => exact Built.setBase built h
  | addProperty owner p =>
    obtain ⟨⟨_, id⟩, hadd, rfl⟩ := Fallible.map_eq_ok_iff.1 h
    exact built.addProperty hadd
  | addContainerProperty p =>
    obtain ⟨⟨_, id⟩, hadd, rfl⟩ := Fallible.map_eq_ok_iff.1 h
    exact built.addContainerProperty hadd
  | addMethod owner m =>
    obtain ⟨⟨_, id⟩, hadd, rfl⟩ := Fallible.map_eq_ok_iff.1 h
    exact built.addMethod hadd

theorem Built.applyAll (built : g.Built) {ops : List Operation} (fresh : ∀ op ∈ ops, op.AddsFresh)
    (h : ops.foldlM Operation.apply g = .ok g') : g'.Built := by
  induction ops generalizing g with
  | nil => cases h; exact built
  | cons op rest ih =>
    rw [List.foldlM_cons] at h
    obtain ⟨g₁, hop, h⟩ := Fallible.bind_eq_ok_iff.1 h
    rw [List.forall_mem_cons] at fresh
    exact ih (built.apply fresh.1 hop) fresh.2 h

/-- The schema of a small library: items are books or discs, whose makers are people, and a person
has a favorite item. -/
def library : Graph :=
  { namespaceName := "library"
    container := { name := "Library", properties := [⟨6⟩, ⟨7⟩] }
    classes := #[
      { name := "Item", kind := .entity, isAbstract := true, key := some "id"
        properties := [⟨0⟩, ⟨1⟩], methods := [⟨0⟩], derived := [⟨1⟩, ⟨2⟩] },
      { name := "Book", kind := .entity, base := some ⟨0⟩, properties := [⟨2⟩] },
      { name := "Disc", kind := .entity, base := some ⟨0⟩, properties := [⟨3⟩] },
      { name := "Person", kind := .entity, key := some "id", properties := [⟨4⟩, ⟨5⟩] }]
    properties := #[
      { name := "id", type := .primitive .string, owner := .structured ⟨0⟩ },
      { name := "title", type := .primitive .string, owner := .structured ⟨0⟩, nullable := false },
      { name := "makers", type := .structured ⟨3⟩, owner := .structured ⟨1⟩, isCollection := true },
      { name := "makers", type := .structured ⟨3⟩, owner := .structured ⟨2⟩, isCollection := true },
      { name := "id", type := .primitive .string, owner := .structured ⟨3⟩ },
      { name := "favorite", type := .structured ⟨0⟩, owner := .structured ⟨3⟩ },
      { name := "people", type := .structured ⟨3⟩, isCollection := true },
      { name := "items", type := .structured ⟨0⟩, isCollection := true }]
    methods := #[
      { name := "renew", kind := .action, declaring := ⟨0⟩
        parameters := [{ name := "days", type := .primitive .int32 }] }] }

def libraryOperations : List Operation :=
  [.addClass { name := "Item", kind := .entity, isAbstract := true, key := some "id" },
    .addClass { name := "Book", kind := .entity },
    .addClass { name := "Disc", kind := .entity },
    .addClass { name := "Person", kind := .entity, key := some "id" },
    .setBase ⟨1⟩ ⟨0⟩,
    .setBase ⟨2⟩ ⟨0⟩,
    .addProperty ⟨0⟩ { name := "id", type := .primitive .string },
    .addProperty ⟨0⟩ { name := "title", type := .primitive .string, nullable := false },
    .addProperty ⟨1⟩ { name := "makers", type := .structured ⟨3⟩, isCollection := true },
    .addProperty ⟨2⟩ { name := "makers", type := .structured ⟨3⟩, isCollection := true },
    .addProperty ⟨3⟩ { name := "id", type := .primitive .string },
    .addProperty ⟨3⟩ { name := "favorite", type := .structured ⟨0⟩ },
    .addContainerProperty { name := "people", type := .structured ⟨3⟩, isCollection := true },
    .addContainerProperty { name := "items", type := .structured ⟨0⟩, isCollection := true },
    .addMethod ⟨0⟩
      { name := "renew", kind := .action
        parameters := [{ name := "days", type := .primitive .int32 }] }]

theorem library_built : library.Built := by
  have fresh : ∀ op ∈ libraryOperations, op.AddsFresh := by
    simp only [libraryOperations, List.forall_mem_cons, Operation.AddsFresh, List.not_mem_nil,
      false_imp_iff, implies_true, and_true]
    exact ⟨⟨rfl, rfl, rfl, rfl⟩, ⟨rfl, rfl, rfl, rfl⟩, ⟨rfl, rfl, rfl, rfl⟩, ⟨rfl, rfl, rfl, rfl⟩⟩
  exact (Built.empty "library" "Library").applyAll fresh (by decide +kernel)

/-- Two classes of one name, one below the other. The name has the namespace in front, so what
`addClass` looks for is "Item", and no class is called that. -/
def twins : Graph :=
  { namespaceName := "shop"
    container := { name := "Shop" }
    classes := #[
      { name := "shop.Item", kind := .entity, properties := [⟨0⟩], derived := [⟨1⟩] },
      { name := "shop.Item", kind := .entity, base := some ⟨0⟩, properties := [⟨1⟩] }]
    properties := #[
      { name := "title", type := .primitive .string, owner := .structured ⟨0⟩ },
      { name := "pages", type := .primitive .int32, owner := .structured ⟨1⟩ }] }

/-- The operations that make two classes of one name. -/
def twinsOperations : List Operation :=
  [.addClass { name := "shop.Item", kind := .entity },
    .addClass { name := "shop.Item", kind := .entity },
    .setBase ⟨1⟩ ⟨0⟩,
    .addProperty ⟨0⟩ { name := "title", type := .primitive .string },
    .addProperty ⟨1⟩ { name := "pages", type := .primitive .int32 }]

theorem twins_built : twins.Built := by
  have fresh : ∀ op ∈ twinsOperations, op.AddsFresh := by
    simp only [twinsOperations, List.forall_mem_cons, Operation.AddsFresh, List.not_mem_nil,
      false_imp_iff, implies_true, and_true]
    exact ⟨⟨rfl, rfl, rfl, rfl⟩, ⟨rfl, rfl, rfl, rfl⟩⟩
  exact (Built.empty "shop" "Shop").applyAll fresh (by decide +kernel)

end Graph
end Schema
end EdmCommands
