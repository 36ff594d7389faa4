import EdmCommands.Proofs.Generation
import EdmCommands.Proofs.Route.Siblings
import EdmCommands.Proofs.Synthesis.Defects

/-!
# EdmCommands.Proofs.Clashes

When a generation stops with a command that is not valid. The settings choose what placeholders end
in and one name of a parameter, and other parameters have names that never change, so settings that
fit together may still give a parameter the name of a placeholder before it.

* `Config.Separated`: settings whose placeholders end in what no fixed name ends in.
* `routed_of_build`: the routes of a tree are such as the commands need.
* `defect_of_run`, `not_defect_of_run`: what stops the generation is a defect on a route, and any
  one does.
* `not_clash_of_separated`: no clashes under settings that are separated.
* `invalidCommand_of_run`: all of it.
-/

namespace EdmCommands

/-- No name that is fixed beforehand ends in a suffix of the placeholders, but for the numbers
behind both. -/
def Config.Separated (config : Config) : Prop :=
  ∀ word ∈ config.referenceUrl ::
      (Synthesis.projectionOptions ++ Synthesis.collectionOptions).map (·.name),
    ∀ suffix ∈ [config.idSuffix, config.typecastSuffix],
      ¬ Naming.unnumbered suffix <:+ Naming.unnumbered word

instance (config : Config) : Decidable config.Separated :=
  inferInstanceAs (Decidable (∀ word ∈ _, ∀ suffix ∈ _, ¬ _))

namespace Generation

open Schema
open Route (Node Rendered Tree)
open Synthesis (Clash Defect Target)

variable {g : Graph} {config : Config} {tree : Tree} {n : Node} {r : Rendered} {p : Property}

/-! ## Routes of a tree -/

theorem routed_of_build (built : g.Built) (h : Tree.build g config = .ok tree)
    (hn : n ∈ tree.nodes) (hr : Rendered.ofNode g config n = .ok r)
    (hp : g.propertyAt n.step.property = .ok p) : (Target.mk g config r p).Routed := by
  have hterminal := Route.terminalId_isSome_of_build built h hn hr
  obtain ⟨segments, hsegments, rfl⟩ := Fallible.map_eq_ok_iff.1 hr
  refine ⟨built.forest, (Route.fresh_of_renderFrom hsegments).1, fun b hb hid => ?_⟩
  have hset : g.isEntitySet n.step.property = true := hterminal.symm.trans hid
  obtain ⟨hcollection, hnavigation⟩ := Bool.and_eq_true_iff.1 hset
  have hcollection : p.isCollection = true := by
    simpa [(g.propertyAt_eq_ok_iff).1 hp] using hcollection
  rw [Target.isEntityCollection, if_pos hcollection] at hb
  rw [Route.isEntityType_eq hp hb, hnavigation]

/-! ## Defects -/

/-- The commands that are made obey the rules, so it is the making that fails. -/
theorem routeCommands_eq_error {property : PropertyId} {command : String} {cause : CommandCause}
    (h : routeCommands g config r property = .error (.invalidCommand command cause)) :
    Synthesis.commands g config r property = .error (.invalidCommand command cause) := by
  rcases Fallible.bind_eq_error_iff.1 h with h | ⟨commands, hmade, h⟩
  · obtain ⟨fault, hfault, hroute⟩ := Fallible.mapError_eq_error_iff.1 h
    cases fault with
    | invalidCommand command cause =>
      cases hroute
      exact hfault
    | _ => cases hroute
  rcases Fallible.bind_eq_error_iff.1 h with h | ⟨_, _, h⟩
  · obtain ⟨c, hc, h⟩ := Fallible.exists_error_of_forM_eq_error h
    obtain ⟨_, hmade⟩ := Synthesis.made_of_commands (Fallible.mapError_eq_ok_iff.1 hmade)
    obtain ⟨_, _, _, hmade⟩ := hmade c hc
    rw [Command.validate_eq_ok_iff.2 hmade.valid] at h
    cases h
  · cases h

theorem defect_of_renderNodes {seen : List String} {nodes : List Node}
    {command : String} {cause : CommandCause}
    (routed : ∀ n ∈ nodes, ∀ r p, Rendered.ofNode g config n = .ok r →
      g.propertyAt n.step.property = .ok p → (Target.mk g config r p).Routed)
    (h : renderNodes g config seen nodes = .error (.invalidCommand command cause)) :
    ∃ n ∈ nodes, ∃ r p, Rendered.ofNode g config n = .ok r ∧
      g.propertyAt n.step.property = .ok p ∧ Defect ⟨g, config, r, p⟩ cause := by
  induction nodes generalizing seen with
  | nil => cases h
  | cons n rest ih =>
    rw [List.forall_mem_cons] at routed
    unfold renderNodes at h
    rcases Fallible.bind_eq_error_iff.1 h with h | ⟨r, hr, h⟩
    · cases Route.isSchema_of_ofNode h
    split at h
    · cases h
    rcases Fallible.bind_eq_error_iff.1 h with h | ⟨commands, _, h⟩
    · have h := routeCommands_eq_error h
      cases hp : g.propertyAt n.step.property with
      | error fault =>
        unfold Synthesis.commands at h
        rw [hp] at h
        cases h
        cases Graph.isSchema_of_propertyAt hp
      | ok p =>
        have hdefect := (Synthesis.commands_ends hp (routed.1 r p hr hp)).fault _ h
        exact ⟨n, List.mem_cons_self, r, p, hr, hp, hdefect⟩
    rcases Fallible.bind_eq_error_iff.1 h with h | ⟨others, _, h⟩
    · obtain ⟨m, hm, hfound⟩ := ih routed.2 h
      exact ⟨m, List.mem_cons_of_mem _ hm, hfound⟩
    · cases h

theorem defect_of_run (built : g.Built) {command : String} {cause : CommandCause}
    (h : run g config = .error (.invalidCommand command cause)) :
    ∃ tree, Tree.build g config = .ok tree ∧ ∃ n ∈ tree.nodes, ∃ r p,
      Rendered.ofNode g config n = .ok r ∧ g.propertyAt n.step.property = .ok p ∧
        Defect ⟨g, config, r, p⟩ cause := by
  unfold run at h
  rcases Fallible.bind_eq_error_iff.1 h with h | ⟨_, _, h⟩
  · obtain ⟨cause, _, hcause⟩ := Fallible.mapError_eq_error_iff.1 h
    cases hcause
  rcases Fallible.bind_eq_error_iff.1 h with h | ⟨tree, htree, h⟩
  · cases Route.isSchema_of_build h
  rcases Fallible.bind_eq_error_iff.1 h with h | ⟨blocks, _, h⟩
  · refine ⟨tree, htree, defect_of_renderNodes (fun n hn r p hr hp => ?_) h⟩
    exact routed_of_build built htree hn hr hp
  rcases Fallible.bind_eq_error_iff.1 h with h | ⟨commands, _, h⟩
  · cases isSchema_of_linkReferences h
  · cases h

theorem not_defect_of_run (built : g.Built) {output : Output} (h : run g config = .ok output)
    (htree : Tree.build g config = .ok tree) (hn : n ∈ tree.nodes)
    (hr : Rendered.ofNode g config n = .ok r) (hp : g.propertyAt n.step.property = .ok p)
    (cause : CommandCause) : ¬ Defect ⟨g, config, r, p⟩ cause := by
  unfold run at h
  obtain ⟨_, _, h⟩ := Fallible.bind_eq_ok_iff.1 h
  obtain ⟨tree', htree', h⟩ := Fallible.bind_eq_ok_iff.1 h
  rw [htree] at htree'
  cases htree'
  obtain ⟨blocks, hrender, _⟩ := Fallible.bind_eq_ok_iff.1 h
  obtain ⟨r', cs, hr', hcommands⟩ := commands_of_renderNodes hrender n hn
  rw [hr] at hr'
  cases hr'
  have routed := routed_of_build built htree hn hr hp
  exact (Synthesis.commands_ends hp routed).result cs hcommands cause

/-! ## Clashes -/

theorem not_clash_of_separated (separated : config.Separated)
    (hr : Rendered.ofNode g config n = .ok r) (name : String) :
    ¬ Clash ⟨g, config, r, p⟩ name := by
  obtain ⟨segments, hsegments, rfl⟩ := Fallible.map_eq_ok_iff.1 hr
  have suffix := Route.suffix_of_renderFrom hsegments
  rintro (⟨hplaceholder, hoption⟩ | ⟨hplaceholder, _, rfl⟩)
  · obtain ⟨suffix, hsuffix, hends⟩ := suffix name hplaceholder
    have hword := List.mem_cons_of_mem config.referenceUrl (Synthesis.readOptions_subset p hoption)
    exact separated name hword suffix hsuffix hends
  · have hplaceholder := (Synthesis.pathParameters_sublist false segments).subset hplaceholder
    obtain ⟨suffix, hsuffix, hends⟩ := suffix _ hplaceholder
    exact separated _ List.mem_cons_self suffix hsuffix hends

/-- A generation stops with an invalid command only because of a defect on a route: nothing can be
sent for the class at its end, or a placeholder clashes with another parameter. Where there is a
defect nothing is generated. Under settings that are separated there are no clashes, and then a
command is invalid only because of a class without a concrete one at or below it. -/
theorem invalidCommand_of_run (built : g.Built) :
    (∀ command cause, run g config = .error (.invalidCommand command cause) →
      ∃ tree, Tree.build g config = .ok tree ∧ ∃ n ∈ tree.nodes, ∃ r p,
        Rendered.ofNode g config n = .ok r ∧ g.propertyAt n.step.property = .ok p ∧
          Defect ⟨g, config, r, p⟩ cause) ∧
    (∀ tree, Tree.build g config = .ok tree → ∀ n ∈ tree.nodes, ∀ r p,
      Rendered.ofNode g config n = .ok r → g.propertyAt n.step.property = .ok p →
        ∀ cause, Defect ⟨g, config, r, p⟩ cause → ∀ output, run g config ≠ .ok output) ∧
    (config.Separated → ∀ command cause,
      run g config = .error (.invalidCommand command cause) →
        ∃ base b, g.classAt base = .ok b ∧ cause = .noConcreteType b.name ∧
          ∀ d, g.Within d base → g.isConcrete d = false) := by
  refine ⟨fun command cause h => defect_of_run built h, ?_, fun separated command cause h => ?_⟩
  · intro tree htree n hn r p hr hp cause hdefect output h
    exact not_defect_of_run built h htree hn hr hp cause hdefect
  · obtain ⟨tree, _, n, _, r, p, hr, _, hdefect⟩ := defect_of_run built h
    cases hdefect with
    | noConcreteType _ _ declared abstract => exact ⟨_, _, declared, rfl, abstract⟩
    | clash hclash => exact absurd hclash (not_clash_of_separated separated hr _)

example : ({} : Config).Separated := by decide

/-- A shop whose items refer to a similar one, with two entry points. -/
def similarShop : Graph :=
  { namespaceName := "shop"
    container := { name := "Shop", properties := [⟨2⟩, ⟨3⟩] }
    classes := #[
      { name := "Item", kind := .entity, key := some "id", properties := [⟨0⟩, ⟨1⟩] }]
    properties := #[
      { name := "id", type := .primitive .string, owner := .structured ⟨0⟩ },
      { name := "similar", type := .structured ⟨0⟩, isReference := true, owner := .structured ⟨0⟩ },
      { name := "items", type := .structured ⟨0⟩, isCollection := true },
      { name := "se", type := .structured ⟨0⟩, isCollection := true }] }

def similarShopOperations : List Graph.Operation :=
  [.addClass { name := "Item", kind := .entity, key := some "id" },
    .addProperty ⟨0⟩ { name := "id", type := .primitive .string },
    .addProperty ⟨0⟩ { name := "similar", type := .structured ⟨0⟩, isReference := true },
    .addContainerProperty { name := "items", type := .structured ⟨0⟩, isCollection := true },
    .addContainerProperty { name := "se", type := .structured ⟨0⟩, isCollection := true }]

theorem similarShop_built : similarShop.Built := by
  have fresh : ∀ op ∈ similarShopOperations, op.AddsFresh := by
    simp only [similarShopOperations, List.forall_mem_cons, Graph.Operation.AddsFresh,
      List.not_mem_nil, false_imp_iff, implies_true, and_true]
    exact ⟨rfl, rfl, rfl, rfl⟩
  exact (Graph.Built.empty "shop" "Shop").applyAll fresh (by decide +kernel)

def similarShopTree : Tree :=
  ⟨((Route.search similarShop {} 20 none [] [] 0 [⟨⟨2⟩, none⟩, ⟨⟨3⟩, none⟩]).getD [])⟩

/-- The routes do not depend on the settings that name parameters. -/
theorem build_similarShop (settings : Config)
    (h : settings = { referenceUrl := "ItemId" } ∨ settings = { idSuffix := "lect" }) :
    Tree.build similarShop settings = .ok similarShopTree := by
  have roots : Tree.roots similarShop =
      .ok [⟨"items", ⟨⟨2⟩, none⟩⟩, ⟨"se", ⟨⟨3⟩, none⟩⟩] := by decide +kernel
  have found : Route.search similarShop settings 20 none [] [] 0
      ((Route.byName [⟨"items", ⟨⟨2⟩, none⟩⟩, ⟨"se", ⟨⟨3⟩, none⟩⟩]).map (·.step)) =
        some similarShopTree.nodes := by
    rcases h with rfl | rfl <;> decide +kernel
  exact Route.build_of_search roots found

theorem run_similarShop_itemId :
    run similarShop { referenceUrl := "ItemId" } = .error
      (.invalidCommand "Set-ItemsSimilarReference" (.duplicateParameter "ItemId")) := by
  have valid : ({ referenceUrl := "ItemId" } : Config).validate = .ok () := by decide +kernel
  unfold run
  rw [valid, build_similarShop _ (.inl rfl)]
  decide +kernel

theorem invalidCommand_of_run_similarShop :
    similarShop.Built ∧
      (∃ tree, Tree.build similarShop { referenceUrl := "ItemId" } = .ok tree ∧
        ∃ n ∈ tree.nodes, ∃ r p,
          Rendered.ofNode similarShop { referenceUrl := "ItemId" } n = .ok r ∧
          similarShop.propertyAt n.step.property = .ok p ∧
            Defect ⟨similarShop, { referenceUrl := "ItemId" }, r, p⟩
              (.duplicateParameter "ItemId")) ∧
      ({} : Config).Separated ∧
      ∀ command cause, run similarShop {} ≠ .error (.invalidCommand command cause) := by
  have separated : ({} : Config).Separated := by decide
  refine ⟨similarShop_built, ?_, separated, fun command cause h => ?_⟩
  · exact (invalidCommand_of_run similarShop_built).1 _ _ run_similarShop_itemId
  · obtain ⟨base, b, hb, _, abstract⟩ :=
      (invalidCommand_of_run similarShop_built).2.2 separated command cause h
    have concrete : ∀ c ∈ similarShop.classes, c.isAbstract = false := by decide
    have hbase := abstract base (.inl rfl)
    rw [Graph.classAt_eq_ok_iff] at hb
    have hb' := concrete b (Array.mem_of_getElem? hb)
    simp [Graph.isConcrete, hb, hb'] at hbase

/-- Settings that fit together, over a schema in which everything can be sent: some whose parameter
for references is spelled like the placeholder of an item, and some whose suffix makes the
placeholder of the other entry point a query option. The generation refuses the commands. -/
theorem names_clash_similarShop :
    similarShop.Built ∧ (∀ c ∈ similarShop.classes, Text.IsIdentifier c.name) ∧
      (∀ p ∈ similarShop.properties, Text.IsIdentifier p.name) ∧
      (∀ c ∈ similarShop.classes, c.isAbstract = false) ∧
      ({ referenceUrl := "ItemId" } : Config).validate = .ok () ∧
      run similarShop { referenceUrl := "ItemId" } = .error
        (.invalidCommand "Set-ItemsSimilarReference" (.duplicateParameter "ItemId")) ∧
      ({ idSuffix := "lect" } : Config).validate = .ok () ∧
      run similarShop { idSuffix := "lect" } = .error
        (.invalidCommand "Get-Se" (.duplicateParameter "Select")) := by
  have valid : ({ idSuffix := "lect" } : Config).validate = .ok () := by decide +kernel
  refine ⟨similarShop_built, by decide +kernel, by decide +kernel, by decide, by decide +kernel,
    run_similarShop_itemId, valid, ?_⟩
  unfold run
  rw [valid, build_similarShop _ (.inr rfl)]
  decide +kernel

end Generation
end EdmCommands
