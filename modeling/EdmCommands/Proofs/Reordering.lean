import EdmCommands.Generation
import EdmCommands.Proofs.Document.Reordered
import EdmCommands.Proofs.Synthesis.Renumbering

/-!
# EdmCommands.Proofs.Reordering

Generations do not depend on the order in which entry points and navigation properties are declared.

* `run_relocate`: a generation from a graph with the properties at other places.
* `exists_run_of_reordered`: the generation from a reordered document is that from the document.
-/

namespace EdmCommands
namespace Generation

open Schema
open Route (Rendered)

variable {g : Graph} {table : Array Property} {place : PropertyId → PropertyId} {config : Config}
  {output : Output}

theorem linkReferences_withProperties (g : Graph) (table : Array Property)
    (commands : List Command) :
    linkReferences (g.withProperties table) commands = linkReferences g commands := by
  have hlink : ∀ targets, linkReference (g.withProperties table) targets =
      linkReference g targets := by
    intro targets
    funext c
    unfold linkReference
    simp only [Graph.ancestors_withProperties]
    rfl
  unfold linkReferences
  rw [hlink]
  rfl

section Renumbered

variable (h : g.Renumbers table place) (built : g.Built)
include h built

theorem routeCommands_relocate {route : Rendered} {property : PropertyId} {cs : List Command}
    (hcommands : routeCommands g config route property = .ok cs) :
    routeCommands (g.withProperties table) config route (place property) = .ok cs := by
  obtain ⟨made, hmade, hcommands⟩ := Fallible.bind_eq_ok_iff.1 hcommands
  have hmade' := Synthesis.commands_relocate h built (Fallible.mapError_eq_ok_iff.1 hmade)
  exact Fallible.bind_eq_ok_iff.2 ⟨made, Fallible.mapError_eq_ok_iff.2 hmade', hcommands⟩

/-- The routes at the new places have the same names and the same commands. -/
theorem renderNodes_relocate {seen : List String} {nodes : List Route.Node}
    {blocks : List (Rendered × List Command)}
    (hrender : renderNodes g config seen nodes = .ok blocks) :
    renderNodes (g.withProperties table) config seen (nodes.map (Route.Node.relocate place)) =
      .ok blocks := by
  induction nodes generalizing seen blocks with
  | nil => exact hrender
  | cons n rest ih =>
    unfold renderNodes at hrender
    obtain ⟨route, hroute, hrender⟩ := Fallible.bind_eq_ok_iff.1 hrender
    split at hrender
    · cases hrender
    rename_i hfresh
    obtain ⟨cs, hcommands, hrender⟩ := Fallible.bind_eq_ok_iff.1 hrender
    obtain ⟨others, hothers, hrender⟩ := Fallible.bind_eq_ok_iff.1 hrender
    rw [List.map_cons, renderNodes]
    refine Fallible.bind_eq_ok_iff.2 ⟨route, Route.ofNode_relocate h built hroute, ?_⟩
    rw [if_neg hfresh]
    refine Fallible.bind_eq_ok_iff.2 ⟨cs, routeCommands_relocate h built hcommands, ?_⟩
    exact Fallible.bind_eq_ok_iff.2 ⟨others, ih hothers, hrender⟩

/-- The properties of a graph can stand at other places without a difference to a generation. -/
theorem run_relocate (hrun : run g config = .ok output) :
    run (g.withProperties table) config = .ok output := by
  unfold run at hrun ⊢
  obtain ⟨_, hvalid, hrun⟩ := Fallible.bind_eq_ok_iff.1 hrun
  obtain ⟨tree, htree, hrun⟩ := Fallible.bind_eq_ok_iff.1 hrun
  obtain ⟨blocks, hblocks, hrun⟩ := Fallible.bind_eq_ok_iff.1 hrun
  refine Fallible.bind_eq_ok_iff.2 ⟨_, hvalid, ?_⟩
  refine Fallible.bind_eq_ok_iff.2 ⟨_, Route.build_relocate h built htree, ?_⟩
  refine Fallible.bind_eq_ok_iff.2 ⟨blocks, renderNodes_relocate h built hblocks, ?_⟩
  rw [linkReferences_withProperties]
  exact hrun

end Renumbered

/-- The order of declaration does not matter: where a document has a generation, so has every
document with its entry points in another order and, within each class, its navigation properties
at each other's places, and the routes and commands are the same in the same order. -/
theorem exists_run_of_reordered {doc doc' : Document} (h : doc.Reordered doc')
    (hdoc : Graph.ofDocument doc = .ok g) (hrun : run g config = .ok output) :
    ∃ g', Graph.ofDocument doc' = .ok g' ∧ run g' config = .ok output := by
  obtain ⟨built, table, place, hdoc', hrenumbers⟩ := h.exists_ofDocument hdoc
  exact ⟨g.withProperties table, hdoc', run_relocate hrenumbers built hrun⟩

/-- A loan is of a copy of a book, and there is a spare one. -/
def loans : Document where
  namespaceName := "lib"
  container :=
    { name := "Library"
      properties := [
        { name := "books", typeName := "Collection(lib.Book)" },
        { name := "loans", typeName := "Collection(lib.Loan)" }] }
  classes := [
    { name := "Book", key := some "id"
      properties := [{ name := "id", typeName := "Edm.String" }] },
    { name := "Loan", key := some "id"
      properties := [
        { name := "spare", typeName := "Book" },
        { name := "id", typeName := "Edm.Int32" },
        { name := "copy", typeName := "lib.Book", isReference := true }] }]

/-- The loans with the two books and the two sets in the other order. -/
def loansTurned : Document where
  namespaceName := "lib"
  container :=
    { name := "Library"
      properties := [
        { name := "loans", typeName := "Collection(lib.Loan)" },
        { name := "books", typeName := "Collection(lib.Book)" }] }
  classes := [
    { name := "Book", key := some "id"
      properties := [{ name := "id", typeName := "Edm.String" }] },
    { name := "Loan", key := some "id"
      properties := [
        { name := "copy", typeName := "lib.Book", isReference := true },
        { name := "id", typeName := "Edm.Int32" },
        { name := "spare", typeName := "Book" }] }]

def loansGraph : Graph :=
  (Graph.ofDocument loans).toOption.getD (Graph.empty "lib" "Library")

def loansTree : Route.Tree :=
  ⟨((Route.search loansGraph {} 20 none [] [] 0 [⟨⟨4⟩, none⟩, ⟨⟨5⟩, none⟩]).getD [])⟩

theorem build_loans : Route.Tree.build loansGraph {} = .ok loansTree := by
  have roots : Route.Tree.roots loansGraph =
      .ok [⟨"books", ⟨⟨4⟩, none⟩⟩, ⟨"loans", ⟨⟨5⟩, none⟩⟩] := by decide +kernel
  have found : Route.search loansGraph {} 20 none [] [] 0
      ((Route.byName [⟨"books", ⟨⟨4⟩, none⟩⟩, ⟨"loans", ⟨⟨5⟩, none⟩⟩]).map (·.step)) =
        some loansTree.nodes := by decide +kernel
  exact Route.build_of_search roots found

theorem reordered_loans : loans.Reordered loansTurned where
  namespaceName := rfl
  containerName := rfl
  enums := rfl
  classes := by
    refine .cons ⟨rfl, .rfl, .cons (.inl rfl) .nil⟩ (.cons ⟨rfl, ?_, ?_⟩ .nil)
    · decide +kernel
    · have moved : loans.isEntityTyped { name := "spare", typeName := "Book" } = true ∧
          loans.isEntityTyped { name := "copy", typeName := "lib.Book", isReference := true } =
            true := by decide +kernel
      exact .cons (.inr moved) (.cons (.inl rfl) (.cons (.inr moved.symm) .nil))
  entries := .swap _ _ _

theorem exists_run_of_reordered_loans :
    loans.Reordered loansTurned ∧ Graph.ofDocument loans = .ok loansGraph ∧
      ∃ output, run loansGraph {} = .ok output ∧
        output.routes.map (·.filePath) = ["books", "loans", "loans/copy", "loans/spare"] ∧
        ∃ g', Graph.ofDocument loansTurned = .ok g' ∧ g' ≠ loansGraph ∧
          run g' {} = .ok output := by
  have drawn : Graph.ofDocument loans = .ok loansGraph := by decide +kernel
  have differ : (Graph.ofDocument loansTurned).toOption ≠ some loansGraph := by decide +kernel
  have routes : (run loansGraph {}).map (·.routes.map (·.filePath)) =
      .ok ["books", "loans", "loans/copy", "loans/spare"] := by
    unfold run
    rw [build_loans]
    decide +kernel
  obtain ⟨output, hrun, hroutes⟩ := Fallible.map_eq_ok_iff.1 routes
  obtain ⟨g', hturned, hrun'⟩ := exists_run_of_reordered reordered_loans drawn hrun
  refine ⟨reordered_loans, drawn, output, hrun, hroutes, g', hturned, ?_, hrun'⟩
  rintro rfl
  rw [hturned] at differ
  exact differ rfl

end Generation
end EdmCommands
