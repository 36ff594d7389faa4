import EdmCommands.Proofs.Route.Parents
import EdmCommands.Proofs.Route.Rendered
import EdmCommands.Proofs.Synthesis.Commands

/-!
# EdmCommands.Proofs.Stability

The names of a route in the routes that continue it. Every route is named by itself, from the left,
and a name is never taken back for one that comes later. So what is named of a route does not
depend on what follows, and a placeholder keeps its name all the way down the tree.

* `Prolongs`: segments with others behind them, for which the last may be cast.
* `exists_renderFrom_front`: a path is rendered where one that continues it by a step is, to the
  same segments.
* `prolongs_parent`, `prolongs_of_mem_chain`: so for a node and its parent, and for all nodes on the
  way up.
* `stable_of_build`: what that means for the commands.
-/

namespace EdmCommands
namespace Route

open Schema

/-- The second segments are the first ones with `rest` behind them, where the last of the first may
get a typecast for that. -/
def Prolongs (first second rest : List Segment) : Prop :=
  ∃ front last typecast, first = front ++ [last] ∧ last.typecast = none ∧
    second = front ++ { last with typecast := typecast } :: rest

variable {g : Graph} {config : Config} {tree : Tree} {taken : List String}

theorem Prolongs.trans {a b c rest more : List Segment} (hab : Prolongs a b rest)
    (hne : rest ≠ []) (hbc : Prolongs b c more) : ∃ rest, rest ≠ [] ∧ Prolongs a c rest := by
  obtain ⟨front, last, typecast, rfl, huncast, rfl⟩ := hab
  obtain ⟨front', last', typecast', hb, _, rfl⟩ := hbc
  obtain ⟨mid, final, rfl⟩ : ∃ mid final, rest = mid ++ [final] :=
    ⟨_, _, (List.dropLast_concat_getLast hne).symm⟩
  rw [← List.cons_append, ← List.append_assoc] at hb
  obtain ⟨rfl, hlast⟩ := List.append_inj' hb rfl
  exact ⟨mid ++ { last' with typecast := typecast' } :: more, by simp, front, last, typecast, rfl,
    huncast, by simp⟩

/-! ## A path and one that continues it -/

/-- What a path is rendered to is found in every path that continues it by a step. The two may
differ in what they mark behind the shorter one. -/
theorem exists_renderFrom_front {ids ids' : List Nat} {index : Nat} {front : List Step}
    {last next : Step} {segments : List Segment}
    (marks : ∀ i < index + (front ++ [last]).length, ids.contains i = ids'.contains i)
    (h : renderFrom g config ids' index taken (front ++ [last] ++ [next]) = .ok segments) :
    ∃ first own, renderFrom g config ids index taken (front ++ [last]) = .ok first ∧
      Prolongs first segments [own] := by
  induction front generalizing index taken segments with
  | nil =>
    obtain ⟨p, id, typecast, others, hp, hsome, hid, _, _, hothers, rfl⟩ :=
      renderFrom_cons_eq_ok_iff.1 h
    obtain ⟨q, id', typecast', _, _, _, _, _, _, hrest, rfl⟩ := renderFrom_cons_eq_ok_iff.1 hothers
    cases hrest
    rw [← marks index (by simp)] at hsome
    refine ⟨[⟨p.name, id, none⟩], ⟨q.name, id', typecast'⟩, ?_, [], ⟨p.name, id, none⟩, typecast,
      rfl, rfl, rfl⟩
    exact renderFrom_cons_eq_ok_iff.2
      ⟨p, id, none, [], hp, hsome, hid, rfl, by simp, rfl, rfl⟩
  | cons step front ih =>
    rw [List.cons_append, List.cons_append] at h
    obtain ⟨p, id, typecast, others, hp, hsome, hid, hcast, hcasts, hothers, rfl⟩ :=
      renderFrom_cons_eq_ok_iff.1 h
    rw [← marks index (by simp)] at hsome
    have hrest : ∀ i < index + 1 + (front ++ [last]).length, ids.contains i = ids'.contains i :=
      fun i hi => marks i (by simp at hi ⊢; omega)
    obtain ⟨first, own, hfirst, front', last', typecast', rfl, huncast, rfl⟩ := ih hrest hothers
    -- the step behind the first is the same in both paths
    have hhead : (front ++ [last] ++ [next]).head? = (front ++ [last]).head? := by
      cases front <;> rfl
    rw [hhead] at hcast hcasts
    exact ⟨⟨p.name, id, typecast⟩ :: (front' ++ [last']), own,
      renderFrom_cons_eq_ok_iff.2
        ⟨p, id, typecast, _, hp, hsome, hid, hcast, hcasts, hfirst, rfl⟩,
      ⟨p.name, id, typecast⟩ :: front', last', typecast', rfl, huncast, rfl⟩

/-! ## The tree -/

theorem prolongs_parent {n m : Node} (hextends : n.Extends m.steps m.idSegments) {r : Rendered}
    (hr : Rendered.ofNode g config n = .ok r) :
    ∃ s own, Rendered.ofNode g config m = .ok s ∧ Prolongs s.segments r.segments [own] := by
  obtain ⟨segments, hsegments, rfl⟩ := Fallible.map_eq_ok_iff.1 hr
  obtain ⟨hbefore, hself⟩ := hextends
  rw [Node.steps, hbefore, Node.steps] at hsegments
  have marks : ∀ i < 0 + (m.before ++ [m.step]).length,
      m.idSegments.contains i = n.idSegments.contains i := by
    intro i hi
    have hne : i ≠ m.steps.length := by simp only [Node.steps]; omega
    rcases hself with hself | hself <;> rw [hself]
    simp [hne]
  obtain ⟨first, own, hfirst, hprolongs⟩ := exists_renderFrom_front marks hsegments
  exact ⟨⟨first⟩, own, Fallible.map_eq_ok_iff.2 ⟨first, hfirst, rfl⟩, hprolongs⟩

/-- A node is rendered to what any node on the way up is rendered to, and more. -/
theorem prolongs_of_mem_chain (h : Tree.build g config = .ok tree) {i : Nat} {n : Node}
    (hn : tree.nodes[i]? = some n) {r : Rendered} (hr : Rendered.ofNode g config n = .ok r)
    {fuel : Nat} {chain : List NodeId} (hchain : tree.chainFrom fuel n.parent = .ok chain) :
    ∀ id ∈ chain, ∃ m s rest, tree.node id = .ok m ∧ Rendered.ofNode g config m = .ok s ∧
      rest ≠ [] ∧ Prolongs s.segments r.segments rest := by
  induction fuel generalizing i n r chain with
  | zero =>
    have : chain = [] := by
      cases hparent : n.parent <;> rw [hparent] at hchain <;> cases hchain <;> rfl
    simp [this]
  | succ fuel ih =>
    rcases parent_of_build h hn with ⟨hparent, _⟩ | ⟨j, m, _, hparent, hm, hextends⟩
    · rw [hparent] at hchain
      cases hchain
      simp
    · obtain ⟨s, own, hs, hprolongs⟩ := prolongs_parent hextends hr
      rw [hparent, Tree.chainFrom, hm] at hchain
      obtain ⟨above, habove, rfl⟩ := Fallible.map_eq_ok_iff.1 hchain
      rw [List.forall_mem_cons]
      refine ⟨⟨m, s, [own], hm, hs, by simp, hprolongs⟩, fun id hid => ?_⟩
      obtain ⟨top, t, rest, htop, ht, hne, hfirst⟩ := ih (node_eq_ok_iff.1 hm) hs habove id hid
      obtain ⟨more, hmore, hall⟩ := hfirst.trans hne hprolongs
      exact ⟨top, t, more, htop, ht, hmore, hall⟩

end Route

namespace Synthesis

open Schema
open Route (Rendered Segment Node Tree Prolongs)

variable {g : Graph} {config : Config} {tree : Tree} {c : Command} {cs : List Command}

/-! ## The commands -/

theorem idParameter_mem_pathParameters {terminalId : Bool} {s : Segment} {id : Route.IdPlaceholder}
    (hid : s.id = some id) (front : List Segment) {rest : List Segment} (hrest : rest ≠ []) :
    idParameter s.name id ∈ pathParameters terminalId (front ++ s :: rest) := by
  induction front with
  | nil => simp [pathParameters, hid, hrest]
  | cons _ front ih =>
    rw [List.cons_append, pathParameters]
    exact List.mem_append_right _ ih

/-- The identifiers of a route have their parameters in those that continue it. -/
theorem idParameter_mem_of_prolongs {terminalId : Bool} {first second rest : List Segment}
    (h : Prolongs first second rest) (hrest : rest ≠ []) {s : Segment} (hs : s ∈ first)
    {id : Route.IdPlaceholder} (hid : s.id = some id) :
    idParameter s.name id ∈ pathParameters terminalId second := by
  obtain ⟨front, last, typecast, rfl, _, rfl⟩ := h
  rcases List.mem_append.1 hs with hs | hs
  · obtain ⟨before, behind, rfl⟩ := List.append_of_mem hs
    rw [List.append_assoc, List.cons_append]
    exact idParameter_mem_pathParameters hid before (by simp)
  · obtain rfl := List.mem_singleton.1 hs
    exact idParameter_mem_pathParameters (s := { s with typecast := typecast }) hid front hrest

theorem pathParameters_subset_addressParameters {t : Target} {terminal : Route.TerminalId}
    {p : Parameter} (h : ∀ terminalId, p ∈ pathParameters terminalId t.route.segments) :
    p ∈ addressParameters t terminal := by
  cases terminal with
  | omitted => exact h false
  | mandatory => exact h true
  | optional => exact List.mem_append_left _ (h false)

/-- Every command of a route that continues another has the parameters of its identifiers. -/
theorem idParameter_mem_of_commands {route above : Rendered} {rest : List Segment}
    {property : PropertyId} (h : commands g config route property = .ok cs) (hc : c ∈ cs)
    (hprolongs : Prolongs above.segments route.segments rest) (hrest : rest ≠ []) {s : Segment}
    (hs : s ∈ above.segments) {id : Route.IdPlaceholder} (hid : s.id = some id) :
    idParameter s.name id ∈ c.pathParameters := by
  obtain ⟨p, hmade⟩ := made_of_commands h
  obtain ⟨_, _, _, hmade⟩ := hmade c hc
  rw [hmade.addressed.path]
  exact pathParameters_subset_addressParameters fun _ =>
    idParameter_mem_of_prolongs hprolongs hrest hs hid

/-- What a command names as the identifier of what it addresses is that of the last segment. -/
theorem idParameter_of_commands {route : Rendered} {property : PropertyId}
    (h : commands g config route property = .ok cs) (hc : c ∈ cs) {name : String}
    (hname : c.idParameter = some name) :
    ∃ s ∈ route.segments, ∃ id, s.id = some id ∧ id.name = name := by
  obtain ⟨p, hmade⟩ := made_of_commands h
  obtain ⟨terminal, _, _, hmade⟩ := hmade c hc
  rw [hmade.addressed.id] at hname
  have hid : ∃ id, route.terminalId = some id ∧ id.name = name := by
    cases terminal with
    | omitted => cases hname
    | mandatory => exact Option.map_eq_some_iff.1 hname
    | optional => exact Option.map_eq_some_iff.1 hname
  obtain ⟨id, hid, rfl⟩ := hid
  obtain ⟨s, hs, hid⟩ := Option.bind_eq_some_iff.1 hid
  exact ⟨s, List.mem_of_getLast? hs, id, hid, rfl⟩

/-- The placeholders of a route are told apart. In front of its own segment a route has those of its
parent, which is cast at most; and all its commands have the identifiers of the routes above as
parameters, under the names that these have in the commands of those routes. -/
theorem stable_of_build (h : Tree.build g config = .ok tree) {i : Nat} {n : Node}
    (hn : tree.nodes[i]? = some n) {r : Rendered} (hr : Rendered.ofNode g config n = .ok r) :
    (Route.placeholderNames r.segments).Nodup ∧
    (∀ parent, n.parent = some parent → ∃ m s own, tree.node parent = .ok m ∧
      Rendered.ofNode g config m = .ok s ∧ Prolongs s.segments r.segments [own]) ∧
    ∃ chain, tree.ancestors ⟨i⟩ = .ok chain ∧ ∀ id ∈ chain, ∃ m s, tree.node id = .ok m ∧
      Rendered.ofNode g config m = .ok s ∧
      ∀ cs, commands g config r n.step.property = .ok cs → ∀ c ∈ cs,
        (∀ segment ∈ s.segments, ∀ id, segment.id = some id →
          idParameter segment.name id ∈ c.pathParameters) ∧
        ∀ ds, commands g config s m.step.property = .ok ds → ∀ d ∈ ds, ∀ name,
          d.idParameter = some name → name ∈ c.pathParameters.map (·.name) := by
  refine ⟨?_, fun parent hparent => ?_, ?_⟩
  · obtain ⟨segments, hsegments, rfl⟩ := Fallible.map_eq_ok_iff.1 hr
    exact (Route.fresh_of_renderFrom hsegments).1
  · rcases Route.parent_of_build h hn with ⟨hnone, _⟩ | ⟨j, m, _, hsome, hm, hextends⟩
    · rw [hnone] at hparent
      cases hparent
    · rw [hsome] at hparent
      cases hparent
      obtain ⟨s, own, hs, hprolongs⟩ := Route.prolongs_parent hextends hr
      exact ⟨m, s, own, hm, hs, hprolongs⟩
  · obtain ⟨chain, _, hchain, _⟩ := Route.ancestors_of_build h hn
    refine ⟨chain, hchain, fun id hid => ?_⟩
    rw [Route.ancestors_eq hn] at hchain
    obtain ⟨m, s, rest, hm, hs, hrest, hprolongs⟩ :=
      Route.prolongs_of_mem_chain h hn hr hchain id hid
    refine ⟨m, s, hm, hs, fun cs hcs c hc => ?_⟩
    have inherits : ∀ segment ∈ s.segments, ∀ id, segment.id = some id →
        idParameter segment.name id ∈ c.pathParameters := fun segment hsegment id hid =>
      idParameter_mem_of_commands hcs hc hprolongs hrest hsegment hid
    refine ⟨inherits, fun ds hds d hd name hname => ?_⟩
    obtain ⟨segment, hsegment, id, hid, rfl⟩ := idParameter_of_commands hds hd hname
    exact List.mem_map.2 ⟨_, inherits segment hsegment id hid, by simp⟩

def makersRoute : Rendered :=
  ⟨[⟨"items", some ⟨"ItemId", "id", .primitive .string⟩, some ⟨"BookTypeCast", "library.Book"⟩⟩,
    ⟨"makers", some ⟨"MakerId", "id", .primitive .string⟩, none⟩]⟩

def favoriteRoute : Rendered :=
  ⟨makersRoute.segments ++ [⟨"favorite", none, none⟩]⟩

/-- The favorite of a maker of a book, two steps below the items of the library. The commands of the
makers name one of them by `MakerId`, and all those of the favorite take that name. -/
theorem stable_of_library :
    Tree.build Graph.library Route.libraryLimits = .ok Route.libraryTree ∧
      ∃ n r, Route.libraryTree.nodes[2]? = some n ∧
        Rendered.ofNode Graph.library Route.libraryLimits n = .ok r ∧
        r.text = "items/\x7bItemId\x7d/\x7bBookTypeCast\x7d/makers/\x7bMakerId\x7d/favorite" ∧
        (Route.placeholderNames r.segments).Nodup ∧
        (∀ parent, n.parent = some parent → ∃ m s own, Route.libraryTree.node parent = .ok m ∧
          Rendered.ofNode Graph.library Route.libraryLimits m = .ok s ∧
          Prolongs s.segments r.segments [own]) ∧
        (∃ chain, Route.libraryTree.ancestors ⟨2⟩ = .ok chain ∧ ∀ id ∈ chain, ∃ m s,
          Route.libraryTree.node id = .ok m ∧
          Rendered.ofNode Graph.library Route.libraryLimits m = .ok s ∧
          ∀ cs, commands Graph.library Route.libraryLimits r n.step.property = .ok cs →
            ∀ c ∈ cs,
              (∀ segment ∈ s.segments, ∀ id, segment.id = some id →
                idParameter segment.name id ∈ c.pathParameters) ∧
              ∀ ds, commands Graph.library Route.libraryLimits s m.step.property = .ok ds →
                ∀ d ∈ ds, ∀ name, d.idParameter = some name →
                  name ∈ c.pathParameters.map (·.name)) ∧
        ∃ m s cs ds, Route.libraryTree.node ⟨1⟩ = .ok m ∧
          Rendered.ofNode Graph.library Route.libraryLimits m = .ok s ∧
          commands Graph.library Route.libraryLimits r n.step.property = .ok cs ∧ cs.length = 5 ∧
          commands Graph.library Route.libraryLimits s m.step.property = .ok ds ∧
          (∃ d ∈ ds, d.idParameter = some "MakerId") ∧
          ∀ c ∈ cs, "MakerId" ∈ c.pathParameters.map (·.name) := by
  have hn : Route.libraryTree.nodes[2]? = some Route.favoriteNode := by decide +kernel
  have hm : Route.libraryTree.node ⟨1⟩ = .ok Route.makersNode := by decide +kernel
  have hr : Rendered.ofNode Graph.library Route.libraryLimits Route.favoriteNode =
      .ok favoriteRoute := by
    decide +kernel
  have hs : Rendered.ofNode Graph.library Route.libraryLimits Route.makersNode =
      .ok makersRoute := by
    decide +kernel
  have made : (commands Graph.library Route.libraryLimits favoriteRoute
      Route.favoriteNode.step.property).map List.length = .ok 5 := by
    decide +kernel
  have named : (commands Graph.library Route.libraryLimits makersRoute
      Route.makersNode.step.property).map
        (fun ds => decide (∃ d ∈ ds, d.idParameter = some "MakerId")) = .ok true := by
    decide +kernel
  have up : Route.libraryTree.ancestors ⟨2⟩ = .ok [⟨1⟩, ⟨0⟩] := by decide +kernel
  obtain ⟨cs, hcs, hlength⟩ := Fallible.map_eq_ok_iff.1 made
  obtain ⟨ds, hds, hnamed⟩ := Fallible.map_eq_ok_iff.1 named
  obtain ⟨d, hd, hid⟩ := of_decide_eq_true hnamed
  obtain ⟨hnodup, hparent, chain, hchain, hstable⟩ := stable_of_build Route.build_library hn hr
  refine ⟨Route.build_library, Route.favoriteNode, favoriteRoute, hn, hr, by decide +kernel, hnodup,
    hparent, ⟨chain, hchain, hstable⟩, Route.makersNode, makersRoute, cs, ds, hm, hs, hcs, hlength,
    hds, ⟨d, hd, hid⟩, fun c hc => ?_⟩
  cases hchain.symm.trans up
  obtain ⟨m, s, hm', hs', hall⟩ := hstable ⟨1⟩ (by simp)
  cases hm'.symm.trans hm
  cases hs'.symm.trans hs
  exact (hall cs hcs c hc).2 ds hds d hd "MakerId" hid

end Synthesis
end EdmCommands
