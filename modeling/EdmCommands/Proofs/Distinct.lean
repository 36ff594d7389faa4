import EdmCommands.Proofs.Faults
import EdmCommands.Proofs.Route.Siblings
import Mathlib.Data.List.Pairwise

/-!
# EdmCommands.Proofs.Distinct

Whether the text of a route is its own. Placeholders are named along each route by itself, so two
routes may get the same ones; they do where classes whose names differ in spelling alone declare
properties of one name, and only there.

* `HasRivals`: two routes part along such properties.
* `hasRivals_of_parts_eq`: routes with the same parts part at rivals.
* `toldApart_of_before_eq`: routes that end in different steps behind one path are told apart.
* `texts_of_build`: what that makes of the texts of a tree, and of a generation that says that a
  route is produced twice.
-/

namespace EdmCommands
namespace Generation

open Schema
open Route (Node Step Tree Rendered Parted ToldApart Rivals parts)

/-- Two routes behind the same path go on along rival steps. -/
def HasRivals (g : Graph) (nodes : List Node) : Prop :=
  ∃ n ∈ nodes, ∃ m ∈ nodes, n ≠ m ∧ n.before = m.before ∧ Rivals g n.step m.step

instance (g : Graph) (nodes : List Node) : Decidable (HasRivals g nodes) :=
  inferInstanceAs (Decidable (∃ n ∈ nodes, ∃ m ∈ nodes, _))

def TextsDiffer (g : Graph) (config : Config) (nodes : List Node) : Prop :=
  nodes.Pairwise fun n m => ∀ r s, Rendered.ofNode g config n = .ok r →
    Rendered.ofNode g config m = .ok s → r.text ≠ s.text

variable {g : Graph} {config : Config} {tree : Tree} {nodes : List Node} {n m : Node}

theorem hasRivals_of_parts_eq (names : g.NamesUnmarked)
    (letter : ∃ c ∈ config.typecastSuffix.toList, c.isDigit = false) (parted : Parted g nodes n m)
    (h : parts g config [] n.steps = parts g config [] m.steps) : HasRivals g nodes := by
  rcases parted with ⟨⟨rest, hm⟩, hne⟩ | ⟨top, htop, other, hother, hbefore, apart, hn, hm⟩
  · -- a route that goes on has more parts
    cases rest with
    | nil => exact absurd (by simpa using hm) hne
    | cons next rest =>
      rw [← hm] at h
      exact absurd h Route.parts_ne_of_continued
  · obtain ⟨rest, hn⟩ := hn
    obtain ⟨rest', hm⟩ := hm
    rw [← hn, ← hm, Node.steps, Node.steps, ← hbefore, List.append_assoc, List.append_assoc] at h
    have rivals := Route.rivals_of_parts_eq names letter apart h
    refine ⟨top, htop, other, hother, ?_, hbefore, rivals⟩
    rintro rfl
    exact apart.ne rfl

theorem textsDiffer_of_not_hasRivals (built : g.Built) (names : g.NamesUnmarked)
    (valid : config.validate = .ok ())
    (letter : ∃ c ∈ config.typecastSuffix.toList, c.isDigit = false)
    (h : Tree.build g config = .ok tree) (none : ¬ HasRivals g tree.nodes) :
    TextsDiffer g config tree.nodes := by
  have addressed := Route.addressed_of_build built h
  refine (Route.parted_of_build built h).imp_of_mem ?_
  intro n m hn hm parted r s hr hs htext
  rw [Route.text_eq_of_ofNode (addressed n hn).marks hr,
    Route.text_eq_of_ofNode (addressed m hm).marks hs] at htext
  have hparts := Route.parts_eq_of_text_eq names valid (by simp [Node.steps])
    (by simp [Node.steps]) htext
  exact none (hasRivals_of_parts_eq names letter parted hparts)

theorem toldApart_of_parted (parted : Parted g nodes n m) (hbefore : n.before = m.before) :
    ToldApart g n.before n.step m.step := by
  have hlength : n.steps.length = m.steps.length := by simp [Node.steps, hbefore]
  rcases parted with ⟨hstart, hne⟩ | ⟨top, _, other, _, htops, apart, hn, hm⟩
  · exact absurd (hstart.eq_of_length hlength) hne
  have htops_length : top.steps.length = other.steps.length := by simp [Node.steps, htops]
  rcases List.prefix_concat_iff.1 hn with htop | htop
  · obtain ⟨hfront, hstep⟩ := List.append_inj' htop rfl
    have hlast : other.steps.length = m.steps.length := by
      rw [← htops_length, ← hlength, htop, Node.steps]
    have hstep' := (List.append_inj' (hm.eq_of_length hlast) rfl).2
    rw [List.cons.injEq] at hstep hstep'
    rw [← hfront, ← hstep.1, ← hstep'.1]
    exact apart
  · -- below the place where they part two paths do not meet again
    rcases List.prefix_concat_iff.1 hm with hother | hother
    · have hlast : top.steps.length = n.before.length + 1 := by
        rw [htops_length, hother, hbefore, List.length_append, List.length_singleton]
      have := htop.length_le
      omega
    · rw [← hbefore] at hother
      have hsame : top.steps = other.steps :=
        (List.prefix_of_prefix_length_le htop hother (by omega)).eq_of_length htops_length
      have hstep := (List.append_inj' hsame rfl).2
      rw [List.cons.injEq] at hstep
      exact absurd hstep.1 apart.ne

theorem toldApart_of_before_eq (built : g.Built) (h : Tree.build g config = .ok tree)
    (hn : n ∈ tree.nodes) (hm : m ∈ tree.nodes) (hne : n ≠ m) (hbefore : n.before = m.before) :
    ToldApart g n.before n.step m.step := by
  have either : tree.nodes.Pairwise fun n m =>
      Parted g tree.nodes n m ∨ Parted g tree.nodes m n :=
    (Route.parted_of_build built h).imp Or.inl
  have symm : Std.Symm fun n m => Parted g tree.nodes n m ∨ Parted g tree.nodes m n :=
    ⟨fun _ _ => Or.symm⟩
  rcases either.forall hn hm hne with hnm | hmn
  · exact toldApart_of_parted hnm hbefore
  · rw [hbefore]
    exact (toldApart_of_parted hmn hbefore.symm).symm

theorem text_eq_of_rivals (built : g.Built) (h : Tree.build g config = .ok tree)
    (hn : n ∈ tree.nodes) (hm : m ∈ tree.nodes) (hne : n ≠ m) (hbefore : n.before = m.before)
    (rivals : Rivals g n.step m.step)
    (kind : g.isEntitySet n.step.property = g.isEntitySet m.step.property) {r s : Rendered}
    (hr : Rendered.ofNode g config n = .ok r) (hs : Rendered.ofNode g config m = .ok s) :
    r.text = s.text := by
  have addressed := Route.addressed_of_build built h
  have apart := toldApart_of_before_eq built h hn hm hne hbefore
  rw [Route.text_eq_of_ofNode (addressed n hn).marks hr,
    Route.text_eq_of_ofNode (addressed m hm).marks hs, Node.steps, Node.steps,
    Route.parts_eq_of_rivals apart rivals kind, hbefore]

theorem hasRivals_of_run (built : g.Built) (names : g.NamesUnmarked)
    (valid : config.validate = .ok ())
    (letter : ∃ c ∈ config.typecastSuffix.toList, c.isDigit = false) {text : String}
    (h : run g config = .error (.generation (.routeTwice text))) :
    ∃ tree, Tree.build g config = .ok tree ∧ HasRivals g tree.nodes := by
  obtain ⟨tree, htree, front, n, back, r, hnodes, hr, htext, m, hm, s, hs, htext'⟩ :=
    repeated_of_run h
  refine ⟨tree, htree, ?_⟩
  by_contra none
  have differ := textsDiffer_of_not_hasRivals built names valid letter htree none
  rw [TextsDiffer, hnodes, List.pairwise_append] at differ
  exact differ.2.2 m hm n List.mem_cons_self s r hs hr (htext'.trans htext.symm)

/-- Every route of a tree has a text where the types of the properties are there. The texts differ
unless routes part at rivals, and those rivals whose values are both entity collections or both not
do have the same text. A generation finds a route twice only where there are rivals. The suffix of
typecasts must not be a number, which could be read as one that tells placeholders apart. -/
theorem texts_of_build (built : g.Built) (names : g.NamesUnmarked)
    (valid : config.validate = .ok ())
    (letter : ∃ c ∈ config.typecastSuffix.toList, c.isDigit = false) :
    (∀ tree, Tree.build g config = .ok tree →
      (g.TypesKnown → ∀ n ∈ tree.nodes, ∃ r, Rendered.ofNode g config n = .ok r) ∧
      (¬ HasRivals g tree.nodes → TextsDiffer g config tree.nodes) ∧
      ∀ n ∈ tree.nodes, ∀ m ∈ tree.nodes, n ≠ m → n.before = m.before → Rivals g n.step m.step →
        g.isEntitySet n.step.property = g.isEntitySet m.step.property →
        ∀ r s, Rendered.ofNode g config n = .ok r → Rendered.ofNode g config m = .ok s →
          r.text = s.text) ∧
    ∀ text, run g config = .error (.generation (.routeTwice text)) →
      ∃ tree, Tree.build g config = .ok tree ∧ HasRivals g tree.nodes := by
  refine ⟨fun tree h => ⟨fun types n hn => ?_, ?_, ?_⟩, ?_⟩
  · obtain ⟨marks, supplied⟩ := Route.addressed_of_build built h n hn
    obtain ⟨segments, hsegments⟩ := Route.exists_renderFrom types marks supplied
    exact ⟨⟨segments⟩, Fallible.map_eq_ok_iff.2 ⟨segments, hsegments, rfl⟩⟩
  · exact textsDiffer_of_not_hasRivals built names valid letter h
  · intro n hn m hm hne hbefore rivals kind r s hr hs
    exact text_eq_of_rivals built h hn hm hne hbefore rivals kind hr hs
  · exact fun text h => hasRivals_of_run built names valid letter h

theorem texts_of_build_library :
    Tree.build Graph.library Route.libraryLimits = .ok Route.libraryTree ∧
      Graph.library.Built ∧ Graph.library.NamesUnmarked ∧
      Route.libraryLimits.validate = .ok () ∧
      (∃ c ∈ Route.libraryLimits.typecastSuffix.toList, c.isDigit = false) ∧
      (∀ n ∈ Route.libraryTree.nodes, ∃ r,
        Rendered.ofNode Graph.library Route.libraryLimits n = .ok r) ∧
      TextsDiffer Graph.library Route.libraryLimits Route.libraryTree.nodes ∧
      ∀ text, run Graph.library Route.libraryLimits ≠ .error (.generation (.routeTwice text)) := by
  have names : Graph.library.NamesUnmarked := by
    have classes : ∀ c ∈ Graph.library.classes, Text.IsIdentifier c.name := by decide +kernel
    have properties : ∀ p ∈ Graph.library.properties, Text.IsIdentifier p.name := by
      decide +kernel
    exact ⟨fun c hc => .of_isIdentifier (classes c hc),
      fun p hp => .of_isIdentifier (properties p hp)⟩
  have valid : Route.libraryLimits.validate = .ok () := by decide +kernel
  have letter : ∃ c ∈ Route.libraryLimits.typecastSuffix.toList, c.isDigit = false :=
    ⟨'T', by decide, by decide⟩
  have none : ¬ HasRivals Graph.library Route.libraryTree.nodes := by decide +kernel
  have types : Graph.library.TypesKnown := by decide +kernel
  obtain ⟨trees, repeated⟩ := texts_of_build Graph.library_built names valid letter
  obtain ⟨renders, differ, _⟩ := trees _ Route.build_library
  refine ⟨Route.build_library, Graph.library_built, names, valid, letter, renders types,
    differ none, fun text h => ?_⟩
  obtain ⟨tree, htree, rivals⟩ := repeated text h
  rw [Route.build_library] at htree
  cases htree
  exact none rivals

/-- A shop whose items are audio books of two kinds, in classes whose names differ in the case of
one letter. -/
def audioShop : Graph :=
  { namespaceName := "shop"
    container := { name := "Shop", properties := [⟨4⟩] }
    classes := #[
      { name := "Item", kind := .entity, key := some "id", properties := [⟨0⟩]
        derived := [⟨1⟩, ⟨2⟩] },
      { name := "audioBook", kind := .entity, base := some ⟨0⟩, properties := [⟨1⟩] },
      { name := "AudioBook", kind := .entity, base := some ⟨0⟩, properties := [⟨2⟩] },
      { name := "Person", kind := .entity, key := some "id", properties := [⟨3⟩] }]
    properties := #[
      { name := "id", type := .primitive .string, owner := .structured ⟨0⟩ },
      { name := "reader", type := .structured ⟨3⟩, owner := .structured ⟨1⟩ },
      { name := "reader", type := .structured ⟨3⟩, owner := .structured ⟨2⟩ },
      { name := "id", type := .primitive .string, owner := .structured ⟨3⟩ },
      { name := "items", type := .structured ⟨0⟩, isCollection := true }] }

def audioShopOperations : List Graph.Operation :=
  [.addClass { name := "Item", kind := .entity, key := some "id" },
    .addClass { name := "audioBook", kind := .entity },
    .addClass { name := "AudioBook", kind := .entity },
    .addClass { name := "Person", kind := .entity, key := some "id" },
    .setBase ⟨1⟩ ⟨0⟩,
    .setBase ⟨2⟩ ⟨0⟩,
    .addProperty ⟨0⟩ { name := "id", type := .primitive .string },
    .addProperty ⟨1⟩ { name := "reader", type := .structured ⟨3⟩ },
    .addProperty ⟨2⟩ { name := "reader", type := .structured ⟨3⟩ },
    .addProperty ⟨3⟩ { name := "id", type := .primitive .string },
    .addContainerProperty { name := "items", type := .structured ⟨0⟩, isCollection := true }]

theorem audioShop_built : audioShop.Built := by
  have fresh : ∀ op ∈ audioShopOperations, op.AddsFresh := by
    simp only [audioShopOperations, List.forall_mem_cons, Graph.Operation.AddsFresh,
      List.not_mem_nil, false_imp_iff, implies_true, and_true]
    exact ⟨⟨rfl, rfl, rfl, rfl⟩, ⟨rfl, rfl, rfl, rfl⟩, ⟨rfl, rfl, rfl, rfl⟩, ⟨rfl, rfl, rfl, rfl⟩⟩
  exact (Graph.Built.empty "shop" "Shop").applyAll fresh (by decide +kernel)

def audioShopTree : Tree :=
  ⟨((Route.search audioShop {} 20 none [] [] 0 [⟨⟨4⟩, none⟩]).getD [])⟩

theorem build_audioShop : Tree.build audioShop {} = .ok audioShopTree := by
  have roots : Tree.roots audioShop = .ok [⟨"items", ⟨⟨4⟩, none⟩⟩] := by decide +kernel
  have found : Route.search audioShop {} 20 none [] [] 0
      ((Route.byName [⟨"items", ⟨⟨4⟩, none⟩⟩]).map (·.step)) = some audioShopTree.nodes := by
    decide +kernel
  exact Route.build_of_search roots found

/-- The readers of the two kinds have the same text, which the generation refuses. -/
theorem texts_collide_audioShop :
    audioShop.Built ∧ (∀ c ∈ audioShop.classes, Text.IsIdentifier c.name) ∧
      (∀ p ∈ audioShop.properties, Text.IsIdentifier p.name) ∧
      ({} : Config).validate = .ok () ∧ Tree.build audioShop {} = .ok audioShopTree ∧
      (∃ n ∈ audioShopTree.nodes, ∃ m ∈ audioShopTree.nodes, n ≠ m ∧ ∃ r s,
        Rendered.ofNode audioShop {} n = .ok r ∧ Rendered.ofNode audioShop {} m = .ok s ∧
          r.text = s.text) ∧
      run audioShop {} = .error (.generation
        (.routeTwice "items/\x7bItemId\x7d/\x7bAudioBookTypeCast\x7d/reader")) := by
  have valid : ({} : Config).validate = .ok () := by decide +kernel
  refine ⟨audioShop_built, by decide +kernel, by decide +kernel, valid, build_audioShop, ?_, ?_⟩
  · let reading (p : PropertyId) (c : ClassId) : Node :=
      ⟨some ⟨0⟩, [⟨⟨4⟩, none⟩], ⟨p, some ⟨c, true⟩⟩, [0]⟩
    have text : ∀ n ∈ [reading ⟨1⟩ ⟨1⟩, reading ⟨2⟩ ⟨2⟩],
        (Rendered.ofNode audioShop {} n).map (·.text) =
          .ok "items/\x7bItemId\x7d/\x7bAudioBookTypeCast\x7d/reader" := by
      decide +kernel
    obtain ⟨r, hr, hrtext⟩ := Fallible.map_eq_ok_iff.1 (text (reading ⟨1⟩ ⟨1⟩) (by simp))
    obtain ⟨s, hs, hstext⟩ := Fallible.map_eq_ok_iff.1 (text (reading ⟨2⟩ ⟨2⟩) (by simp))
    exact ⟨reading ⟨1⟩ ⟨1⟩, by decide +kernel, reading ⟨2⟩ ⟨2⟩, by decide +kernel,
      by decide +kernel, r, s, hr, hs, hrtext.trans hstext.symm⟩
  · unfold run
    rw [valid, build_audioShop]
    decide +kernel

end Generation
end EdmCommands
