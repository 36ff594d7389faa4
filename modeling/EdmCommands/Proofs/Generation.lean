import EdmCommands.Generation
import EdmCommands.Proofs.Route.Routes
import EdmCommands.Proofs.Synthesis.Address

/-!
# EdmCommands.Proofs.Generation

What a generation yields, followed back to the routes of the tree.

* `SameRequest`: two commands that differ in name and link only.
* `nodes_of_run`, `made_of_run`: the commands are made for the nodes of the tree, up to that.
* `blocks_of_run`, `run_eq_ok`: they are those of the routes, and no two routes have the same text.
* `agreesOn_of_run`: the address of each command agrees with its path parameters.
-/

namespace EdmCommands
namespace Generation

open Schema
open Route (Rendered)

variable {g : Graph} {config : Config} {output : Output} {c c' : Command}

/-- The commands differ in their names and links only. -/
def SameRequest (c c' : Command) : Prop :=
  c' = { c with name := c'.name, referenceTarget := c'.referenceTarget }

theorem SameRequest.trans {c₁ c₂ c₃ : Command} (h₁ : SameRequest c₁ c₂)
    (h₂ : SameRequest c₂ c₃) : SameRequest c₁ c₃ := by
  rw [SameRequest, h₂, h₁]

/-! ## Names and links -/

/-- The commands differ in their names only. -/
def Renamed (c c' : Command) : Prop :=
  c' = { c with name := c'.name }

theorem Renamed.sameRequest (h : Renamed c c') : SameRequest c c' := by
  rw [h]
  rfl

/-- The commands differ in their nouns only. -/
def SameButNoun (c c' : Command) : Prop :=
  c' = { c with name := ⟨c.name.verb, c'.name.noun⟩ }

theorem SameButNoun.renamed (h : SameButNoun c c') : Renamed c c' := by
  rw [h]
  rfl

theorem sameButNoun_renameRepeated (taken seen : List String) (commands : List Command) :
    List.Forall₂ SameButNoun commands (renameRepeated taken seen commands) := by
  induction commands generalizing taken seen with
  | nil => exact .nil
  | cons c rest ih =>
    unfold renameRepeated
    split
    · exact .cons rfl (ih _ _)
    · exact .cons rfl (ih _ _)

theorem renamed_renameRepeated (taken seen : List String) (commands : List Command) :
    List.Forall₂ Renamed commands (renameRepeated taken seen commands) :=
  (sameButNoun_renameRepeated taken seen commands).imp fun _ _ => SameButNoun.renamed

/-- The commands differ in their links only. -/
def Relinked (c c' : Command) : Prop :=
  c' = { c with referenceTarget := c'.referenceTarget }

theorem relinked_of_linkReference {targets : List (ClassId × String)}
    (h : linkReference g targets c = .ok c') : Relinked c c' := by
  unfold linkReference at h
  split at h
  · split at h
    · cases h
      rfl
    · obtain ⟨above, _, rfl⟩ := Fallible.map_eq_ok_iff.1 h
      rfl
  · cases h
    rfl

theorem Relinked.sameRequest (h : Relinked c c') : SameRequest c c' := by
  rw [h]
  rfl

/-! ## Routes -/

theorem commands_of_routeCommands {route : Rendered} {property : PropertyId} {cs : List Command}
    (h : routeCommands g config route property = .ok cs) :
    Synthesis.commands g config route property = .ok cs := by
  obtain ⟨made, hmade, h⟩ := Fallible.bind_eq_ok_iff.1 h
  obtain ⟨_, _, h⟩ := Fallible.bind_eq_ok_iff.1 h
  cases h
  exact Fallible.mapError_eq_ok_iff.1 hmade

/-- The routes have distinct texts, and the commands of each are what is made for it. -/
theorem renderNodes_eq_ok {seen : List String} {nodes : List Route.Node}
    {blocks : List (Rendered × List Command)} (h : renderNodes g config seen nodes = .ok blocks) :
    (blocks.map (·.1.text)).Nodup ∧ (∀ block ∈ blocks, block.1.text ∉ seen) ∧
      ∀ block ∈ blocks, ∃ n ∈ nodes, Rendered.ofNode g config n = .ok block.1 ∧
        Synthesis.commands g config block.1 n.step.property = .ok block.2 := by
  induction nodes generalizing seen blocks with
  | nil =>
    cases h
    simp
  | cons n rest ih =>
    unfold renderNodes at h
    obtain ⟨route, hroute, h⟩ := Fallible.bind_eq_ok_iff.1 h
    split at h
    · cases h
    rename_i hfresh
    obtain ⟨cs, hcommands, h⟩ := Fallible.bind_eq_ok_iff.1 h
    obtain ⟨others, hothers, h⟩ := Fallible.bind_eq_ok_iff.1 h
    cases h
    obtain ⟨hnodup, hnew, hblocks⟩ := ih hothers
    refine ⟨?_, ?_, ?_⟩
    · refine List.nodup_cons.2 ⟨fun hmem => ?_, hnodup⟩
      obtain ⟨block, hblock, htext⟩ := List.mem_map.1 hmem
      exact hnew block hblock (htext ▸ List.mem_cons_self)
    · rw [List.forall_mem_cons]
      refine ⟨by simpa using hfresh, fun block hblock hseen => ?_⟩
      exact hnew block hblock (List.mem_cons_of_mem _ hseen)
    · rw [List.forall_mem_cons]
      refine ⟨⟨n, List.mem_cons_self, hroute, commands_of_routeCommands hcommands⟩, ?_⟩
      intro block hblock
      obtain ⟨n', hn', hof, hmade⟩ := hblocks block hblock
      exact ⟨n', List.mem_cons_of_mem _ hn', hof, hmade⟩

/-- Where the routes are rendered, each has its commands. -/
theorem commands_of_renderNodes {seen : List String} {nodes : List Route.Node}
    {blocks : List (Rendered × List Command)} (h : renderNodes g config seen nodes = .ok blocks) :
    ∀ n ∈ nodes, ∃ r cs, Rendered.ofNode g config n = .ok r ∧
      Synthesis.commands g config r n.step.property = .ok cs := by
  induction nodes generalizing seen blocks with
  | nil => simp
  | cons n rest ih =>
    unfold renderNodes at h
    obtain ⟨r, hr, h⟩ := Fallible.bind_eq_ok_iff.1 h
    split at h
    · cases h
    obtain ⟨cs, hcommands, h⟩ := Fallible.bind_eq_ok_iff.1 h
    obtain ⟨others, hothers, _⟩ := Fallible.bind_eq_ok_iff.1 h
    rw [List.forall_mem_cons]
    exact ⟨⟨r, cs, hr, commands_of_routeCommands hcommands⟩, ih hothers⟩

/-- A generation renders the nodes of the tree and makes the commands of each; then the names are
made distinct and the links are set. -/
theorem nodes_of_run (h : run g config = .ok output) :
    config.validate = .ok () ∧ ∃ tree, Route.Tree.build g config = .ok tree ∧
      ∃ blocks : List (Rendered × List Command),
        output.routes = blocks.map (·.1) ∧ (blocks.map (·.1.text)).Nodup ∧
        (∀ block ∈ blocks, ∃ n ∈ tree.nodes, Rendered.ofNode g config n = .ok block.1 ∧
          Synthesis.commands g config block.1 n.step.property = .ok block.2) ∧
        linkReferences g (distinctNames (blocks.flatMap (·.2))) = .ok output.commands := by
  unfold run at h
  obtain ⟨_, hvalid, h⟩ := Fallible.bind_eq_ok_iff.1 h
  obtain ⟨tree, htree, h⟩ := Fallible.bind_eq_ok_iff.1 h
  obtain ⟨blocks, hrender, h⟩ := Fallible.bind_eq_ok_iff.1 h
  obtain ⟨commands, hlink, h⟩ := Fallible.bind_eq_ok_iff.1 h
  cases h
  obtain ⟨hnodup, _, hblocks⟩ := renderNodes_eq_ok hrender
  exact ⟨hvalid, tree, htree, blocks, rfl, hnodup, hblocks, hlink⟩

theorem blocks_of_run (h : run g config = .ok output) :
    config.validate = .ok () ∧ ∃ blocks : List (Rendered × List Command),
      output.routes = blocks.map (·.1) ∧ (blocks.map (·.1.text)).Nodup ∧
      (∀ block ∈ blocks, ∃ n property, Rendered.ofNode g config n = .ok block.1 ∧
        Synthesis.commands g config block.1 property = .ok block.2) ∧
      linkReferences g (distinctNames (blocks.flatMap (·.2))) = .ok output.commands := by
  obtain ⟨hvalid, _, _, blocks, hroutes, hnodup, hblocks, hlink⟩ := nodes_of_run h
  refine ⟨hvalid, blocks, hroutes, hnodup, fun block hblock => ?_, hlink⟩
  obtain ⟨n, _, hof, hmade⟩ := hblocks block hblock
  exact ⟨n, _, hof, hmade⟩

/-- Every command of a generation was made for a node of the tree, up to its name and its link. -/
theorem made_of_run (h : run g config = .ok output) :
    ∃ tree, Route.Tree.build g config = .ok tree ∧
      ∀ c' ∈ output.commands, ∃ n ∈ tree.nodes, ∃ route ∈ output.routes,
        Rendered.ofNode g config n = .ok route ∧
        ∃ cs, Synthesis.commands g config route n.step.property = .ok cs ∧
          ∃ c ∈ cs, SameRequest c c' := by
  obtain ⟨_, tree, htree, blocks, hroutes, _, hblocks, hlink⟩ := nodes_of_run h
  refine ⟨tree, htree, fun c' hc' => ?_⟩
  obtain ⟨c₁, hc₁, hlinked⟩ := Fallible.forall_ok_of_mapM_eq_ok hlink hc'
  obtain ⟨c, hc, hrenamed⟩ := Fallible.exists_of_mem_right (renamed_renameRepeated _ _ _) hc₁
  obtain ⟨block, hblock, hmem⟩ := List.mem_flatMap.1 hc
  obtain ⟨n, hn, hof, hmade⟩ := hblocks block hblock
  exact ⟨n, hn, block.1, hroutes ▸ List.mem_map_of_mem hblock, hof, block.2, hmade, c, hmem,
    hrenamed.sameRequest.trans (relinked_of_linkReference hlinked).sameRequest⟩

/-- The commands of a generation are those of its routes, and no two routes have the same text. -/
theorem run_eq_ok (h : run g config = .ok output) :
    config.validate = .ok () ∧ (output.routes.map (·.text)).Nodup ∧
      ∀ c' ∈ output.commands, ∃ route ∈ output.routes, ∃ cs, ∃ c ∈ cs, SameRequest c c' ∧
        ∃ n property, Rendered.ofNode g config n = .ok route ∧
          Synthesis.commands g config route property = .ok cs := by
  obtain ⟨hvalid, blocks, hroutes, hnodup, _, _⟩ := blocks_of_run h
  obtain ⟨tree, _, hcommands⟩ := made_of_run h
  refine ⟨hvalid, ?_, fun c' hc' => ?_⟩
  · rw [hroutes, List.map_map]
    exact hnodup
  · obtain ⟨n, _, route, hroute, hof, cs, hmade, c, hc, hsame⟩ := hcommands c' hc'
    exact ⟨route, hroute, cs, c, hc, hsame, n, _, hof, hmade⟩

/-- The text of the address does not depend on names and links. -/
theorem SameRequest.agreesOn {route : Rendered} (h : SameRequest c c')
    (agrees : Synthesis.AgreesOn route c) : Synthesis.AgreesOn route c' := by
  rw [h]
  obtain ⟨hfits, hnames, hdistinct, hid⟩ := agrees
  refine ⟨hfits.imp fun token p hp => ?_, hnames, hdistinct, hid⟩
  exact ⟨hp.name, hp.mandatory, hp.everywhere, hp.getting⟩

/-- The address of each command agrees with its path parameters and with its identifier, where the
names of the schema have no braces. -/
theorem agreesOn_of_run (hg : Route.NamesFree g) (h : run g config = .ok output) :
    ∀ c ∈ output.commands, ∃ route ∈ output.routes, c.route = route.text ∧
      (∀ other ∈ output.routes, c.route = other.text → other = route) ∧
      Synthesis.AgreesOn route c := by
  obtain ⟨hvalid, hnodup, hcommands⟩ := run_eq_ok h
  intro c' hc'
  obtain ⟨route, hroute, cs, c, hc, hsame, n, property, hof, hmade⟩ := hcommands c' hc'
  obtain ⟨p, hmade⟩ := Synthesis.made_of_commands hmade
  have hmade := hmade c hc
  have htext : c'.route = route.text := by
    obtain ⟨_, _, _, hmade⟩ := hmade
    rw [hsame]
    exact hmade.addressed.route
  refine ⟨route, hroute, htext, fun other hother heq => ?_, ?_⟩
  · exact List.inj_on_of_nodup_map hnodup hother hroute (heq.symm.trans htext)
  · exact hsame.agreesOn
      (Synthesis.agreesOn_of_isMade hg (Route.wellNamed_of_ofNode hg hvalid hof) hmade)

theorem agreesOn_of_run_library :
    Route.NamesFree Graph.library ∧
      ∃ output, run Graph.library Route.libraryLimits = .ok output ∧
        output.commands.length = 27 ∧
        ∀ c ∈ output.commands, ∃ route ∈ output.routes, c.route = route.text ∧
          (∀ other ∈ output.routes, c.route = other.text → other = route) ∧
          Synthesis.AgreesOn route c := by
  have free : Route.NamesFree Graph.library :=
    ⟨by decide +kernel, by decide +kernel, by decide +kernel, by decide +kernel⟩
  have valid : Route.libraryLimits.validate = .ok () := by decide +kernel
  have count : (run Graph.library Route.libraryLimits).map (·.commands.length) = .ok 27 := by
    unfold run
    rw [valid, Route.build_library]
    decide +kernel
  obtain ⟨output, hrun, hcount⟩ := Fallible.map_eq_ok_iff.1 count
  exact ⟨free, output, hrun, hcount, agreesOn_of_run free hrun⟩

end Generation
end EdmCommands
