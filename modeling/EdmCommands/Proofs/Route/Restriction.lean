import EdmCommands.Proofs.Route.Siblings
import EdmCommands.Proofs.Text.Trim

/-!
# EdmCommands.Proofs.Route.Restriction

What a limit of segments and exclusions leave of the routes of a schema. The search does not look
behind a step that it leaves out, and yet the routes that it finds are those of the search without
limit and exclusions that keep to them one by one: what continues an excluded route is excluded
too, and what continues a long one is longer.

* `Config.unrestricted`: the settings without a limit and without exclusions.
* `Node.isKept`: a route keeps to the limit and is not excluded itself.
* `follow_restricted`: what the settings change about one step of the search.
* `explores_restricted`: what they change about the search as a whole.
* `build_restricted`: so for the tree of a schema.
-/

namespace EdmCommands
namespace Config

variable {config : Config}

/-- The settings without a limit of segments and without exclusions. -/
def unrestricted (config : Config) : Config :=
  { config with maxRouteDepth := none, excludeRoutes := [] }

theorem isRouteExcluded_unrestricted (path : String) :
    config.unrestricted.isRouteExcluded path = false := rfl

theorem isUnder_append {start path : String} (h : isUnder start path = true) (rest : String) :
    isUnder start (path ++ "/" ++ rest) = true := by
  simp only [isUnder, Bool.or_eq_true, beq_iff_eq, Option.any_eq_true,
    Text.stripStart?_eq_some_iff] at h ⊢
  rcases h with rfl | ⟨tail, rfl, hslash⟩
  · exact .inr ⟨"/" ++ rest, String.append_assoc, by simp⟩
  · refine .inr ⟨tail ++ "/" ++ rest, by simp [String.append_assoc], ?_⟩
    obtain ⟨cs, hcs⟩ := List.head?_eq_some_iff.1 hslash
    simp [hcs]

theorem isRouteExcluded_append {path : String} (h : config.isRouteExcluded path = true)
    (rest : String) : config.isRouteExcluded (path ++ "/" ++ rest) = true := by
  obtain ⟨route, hroute, hunder⟩ := List.any_eq_true.1 h
  exact List.any_eq_true.2 ⟨route, hroute, isUnder_append hunder rest⟩

end Config

namespace Route

open Schema

/-- A route keeps to the limit of segments and is not excluded itself. -/
def Node.isKept (g : Graph) (config : Config) (n : Node) : Bool :=
  config.maxRouteDepth.all (n.depth ≤ ·) && !config.isRouteExcluded (joinedNames g n.legs)

/-- Two nodes of one route, wherever they hang in their trees, and rendered the same under either
of two settings. -/
structure SameRoute (g : Graph) (config config' : Config) (n m : Node) : Prop where
  steps : n.steps = m.steps
  idSegments : n.idSegments = m.idSegments
  rendered : Rendered.ofNode g config n = Rendered.ofNode g config' m

variable {g : Graph} {config : Config} {parent : Option NodeId} {before : List Step}
  {idSegments ids : List Nat} {step : Step}

/-! ## What continues a route that is left out -/

theorem joinedNames_append {front rest : List Leg} (hfront : front ≠ []) (hrest : rest ≠ []) :
    joinedNames g (front ++ rest) = joinedNames g front ++ "/" ++ joinedNames g rest := by
  rw [joinedNames, List.map_append,
    intercalate_append (by simpa using hfront) (by simpa using hrest)]
  rfl

/-- What continues an excluded route is excluded. -/
theorem excluded_of_prefix {front route : List Leg} (hfront : front ≠ [])
    (hexcluded : config.isRouteExcluded (joinedNames g front) = true) (h : front <+: route) :
    config.isRouteExcluded (joinedNames g route) = true := by
  obtain ⟨rest, rfl⟩ := h
  by_cases hrest : rest = []
  · rwa [hrest, List.append_nil]
  · rw [joinedNames_append hfront hrest]
    exact Config.isRouteExcluded_append hexcluded _

theorem continues_of_explores {next : Nat} {steps : List Step} {nodes : List Node}
    (h : Explores g config parent before idSegments next steps nodes) :
    ∀ n ∈ nodes, before <+: n.steps ∧ before.length < n.depth := by
  intro n hn
  obtain ⟨top, _, rfl, _, hstart⟩ := exists_top_of_explores h n hn
  refine ⟨(List.prefix_append _ _).trans hstart, Nat.lt_of_lt_of_le ?_ hstart.length_le⟩
  simp [Node.steps]

theorem filter_isKept_of_excluded {nodes : List Node} (hne : before ≠ [])
    (hexcluded : config.isRouteExcluded (joinedNames g (before.map (·.leg))) = true)
    (hbelow : ∀ n ∈ nodes, before <+: n.steps) : nodes.filter (Node.isKept g config) = [] := by
  rw [List.filter_eq_nil_iff]
  intro n hn
  have := excluded_of_prefix (by simpa using hne) hexcluded ((hbelow n hn).map (·.leg))
  simp [Node.isKept, Node.legs, this]

theorem filter_isKept_of_long {nodes : List Node} {limit : Nat}
    (hlimit : config.maxRouteDepth = some limit) (hlong : limit ≤ before.length)
    (hbelow : ∀ n ∈ nodes, before.length < n.depth) :
    nodes.filter (Node.isKept g config) = [] := by
  rw [List.filter_eq_nil_iff]
  intro n hn
  have := hbelow n hn
  simp only [Node.isKept, hlimit, Option.all_some, Bool.and_eq_true, decide_eq_true_eq]
  omega

/-! ## One step of the search -/

theorem accept_restricted
    (h : accept g config.unrestricted before idSegments step = .ok (some ids)) :
    accept g config before idSegments step =
      .ok (if config.isRouteExcluded (joinedNames g ((before ++ [step]).map (·.leg))) then none
        else some ids) := by
  unfold accept at h ⊢
  cases hnames : pathNames g (before ++ [step]) with
  | error fault => simp [hnames] at h
  | ok names =>
    have joined : joinedNames g ((before ++ [step]).map (·.leg)) = "/".intercalate names := by
      rw [joinedNames, List.map_map, pathNames_eq hnames]
      rfl
    simp only [hnames, Config.isRouteExcluded_unrestricted, Bool.false_eq_true, if_false] at h
    simp only [joined]
    split
    · rfl
    · exact h

theorem continuations_restricted {steps : List Step} {last : PropertyId}
    {following : List NamedStep}
    (h : continuations g config.unrestricted steps last = .ok following) :
    continuations g config steps last =
      .ok (if config.maxRouteDepth.any (· ≤ steps.length) then [] else following) := by
  unfold continuations at h ⊢
  cases hp : g.propertyAt last with
  | error fault => simp [hp] at h
  | ok p =>
    simp only [hp] at h ⊢
    split at h
    · simp only [Config.unrestricted, Option.any_none, Bool.false_eq_true, if_false] at h
      split
      · rfl
      · exact h
    · cases h
      simp

/-- What the settings change about a step: an excluded path is no route, and nothing follows one
that is as long as the limit allows. -/
theorem follow_restricted {following : List NamedStep}
    (h : follow g config.unrestricted before idSegments step = .ok (some (ids, following))) :
    follow g config before idSegments step =
      .ok (if config.isRouteExcluded (joinedNames g ((before ++ [step]).map (·.leg))) then none
        else some (ids, if config.maxRouteDepth.any (· ≤ (before ++ [step]).length) then []
          else following)) := by
  obtain ⟨_, haccept, hcont⟩ := follow_eq_some h
  unfold follow
  rw [accept_restricted haccept]
  by_cases hexcluded :
      config.isRouteExcluded (joinedNames g ((before ++ [step]).map (·.leg))) = true
  · simp only [if_pos hexcluded]
  · simp only [if_neg hexcluded, continuations_restricted hcont]

/-! ## The search as a whole -/

/-- The names of a route do not depend on what the settings leave out. -/
theorem renderFrom_unrestricted {index : Nat} {taken : List String} {steps : List Step} :
    renderFrom g config.unrestricted ids index taken steps =
      renderFrom g config ids index taken steps := by
  induction steps generalizing index taken with
  | nil => rfl
  | cons step rest ih =>
    have hid : idPlaceholder g config.unrestricted = idPlaceholder g config := rfl
    have hcast : typecastPlaceholder g config.unrestricted = typecastPlaceholder g config := rfl
    simp only [renderFrom, hid, hcast, ih]

theorem sameRoute_of_eq {n m : Node} (hbefore : n.before = m.before) (hstep : n.step = m.step)
    (hids : n.idSegments = m.idSegments) : SameRoute g config config.unrestricted n m := by
  have hsteps : n.steps = m.steps := by rw [Node.steps, hbefore, hstep, Node.steps]
  refine ⟨hsteps, hids, ?_⟩
  rw [Rendered.ofNode, Rendered.ofNode, hsteps, hids, renderFrom_unrestricted]

/-- The search finds what it finds without limit and exclusions, as far as it is kept, wherever
the nodes hang. -/
theorem explores_restricted {next : Nat} {steps : List Step} {nodes : List Node}
    (h : Explores g config.unrestricted parent before idSegments next steps nodes)
    (room : ∀ limit, config.maxRouteDepth = some limit → before.length < limit)
    (parent' : Option NodeId) (next' : Nat) :
    ∃ found, Explores g config parent' before idSegments next' steps found ∧
      List.Forall₂ (SameRoute g config config.unrestricted) found
        (nodes.filter (Node.isKept g config)) := by
  induction h generalizing parent' next' with
  | done => exact ⟨[], .done, .nil⟩
  | skip hfollow _ _ => cases excluded_of_follow hfollow
  | @visit parent before idSegments ids next step steps following below others hfollow hbelow
      hothers ihb iho =>
    have hvisit := follow_restricted hfollow
    have hcontinues := continues_of_explores hbelow
    have hlegs : (Node.mk parent before step ids).legs = (before ++ [step]).map (·.leg) := rfl
    by_cases hexcluded :
        config.isRouteExcluded (joinedNames g ((before ++ [step]).map (·.leg))) = true
    · rw [if_pos hexcluded] at hvisit
      have hdropped : (Node.mk parent before step ids).isKept g config = false := by
        simp only [Node.isKept, hlegs, hexcluded, Bool.not_true, Bool.and_false]
      have hnone := filter_isKept_of_excluded (by simp) hexcluded fun n hn => (hcontinues n hn).1
      rw [List.filter_cons_of_neg (by simp [hdropped]), List.filter_append, hnone, List.nil_append]
      obtain ⟨found, hfound, hsame⟩ := iho room parent' next'
      exact ⟨found, .skip hvisit hfound, hsame⟩
    · rw [if_neg hexcluded] at hvisit
      have hkept : (Node.mk parent before step ids).isKept g config = true := by
        simp only [Node.isKept, hlegs, Bool.and_eq_true, Option.all_eq_true, decide_eq_true_eq]
        refine ⟨fun limit hlimit => ?_, by simpa using hexcluded⟩
        have := room limit hlimit
        simpa [Node.depth, Node.steps] using Nat.succ_le_of_lt this
      -- behind a step at the limit nothing is looked at, and nothing would be kept
      have hbehind : ∃ found, Explores g config (some ⟨next'⟩) (before ++ [step]) ids (next' + 1)
          (stackOrder (if config.maxRouteDepth.any (· ≤ (before ++ [step]).length) then []
            else following)).reverse found ∧
          List.Forall₂ (SameRoute g config config.unrestricted) found
            (below.filter (Node.isKept g config)) := by
        split
        · rename_i hlong
          obtain ⟨limit, hlimit, hlong⟩ := (Option.any_eq_true _ _).1 hlong
          rw [filter_isKept_of_long hlimit (by simpa using hlong) fun n hn => (hcontinues n hn).2]
          exact ⟨[], by simpa [stackOrder] using Explores.done, .nil⟩
        · rename_i hshort
          refine ihb (fun limit hlimit => ?_) (some ⟨next'⟩) (next' + 1)
          simpa [hlimit] using hshort
      obtain ⟨found, hfound, hsame⟩ := hbehind
      obtain ⟨rest, hrest, hsame'⟩ := iho room parent' (next' + 1 + found.length)
      rw [List.filter_cons_of_pos hkept, List.filter_append]
      exact ⟨_, .visit hvisit hfound hrest,
        .cons (sameRoute_of_eq rfl rfl rfl) (List.rel_append hsame hsame')⟩

/-! ## The tree of a schema -/

/-- When the routes can be listed without a limit and without exclusions, they can be listed with
them, and what they leave are the routes that keep to them one by one, in the same order and with
the same names. -/
theorem build_restricted (limit : config.maxRouteDepth ≠ some 0) {tree : Tree}
    (h : Tree.build g config.unrestricted = .ok tree) :
    ∃ restricted, Tree.build g config = .ok restricted ∧
      List.Forall₂ (SameRoute g config config.unrestricted) restricted.nodes
        (tree.nodes.filter (Node.isKept g config)) := by
  obtain ⟨steps, hroots, hexplores⟩ := build_eq_ok_iff.1 h
  have room : ∀ n, config.maxRouteDepth = some n → ([] : List Step).length < n := by
    intro n hn
    exact Nat.pos_of_ne_zero fun hzero => limit (hzero ▸ hn)
  obtain ⟨nodes, hnodes, hsame⟩ := explores_restricted hexplores room none 0
  exact ⟨⟨nodes⟩, build_eq_ok_iff.2 ⟨steps, hroots, hnodes⟩, hsame⟩

def libraryFullTree : Tree :=
  ⟨((search Graph.library libraryLimits.unrestricted 20 none [] [] 0
    [⟨⟨7⟩, none⟩, ⟨⟨6⟩, none⟩]).getD [])⟩

theorem build_libraryFullTree :
    Tree.build Graph.library libraryLimits.unrestricted = .ok libraryFullTree := by
  have roots : Tree.roots Graph.library =
      .ok [⟨"people", ⟨⟨6⟩, none⟩⟩, ⟨"items", ⟨⟨7⟩, none⟩⟩] := by decide +kernel
  have found : search Graph.library libraryLimits.unrestricted 20 none [] [] 0
      ((byName [⟨"people", ⟨⟨6⟩, none⟩⟩, ⟨"items", ⟨⟨7⟩, none⟩⟩]).map (·.step)) =
        some libraryFullTree.nodes := by decide +kernel
  exact build_of_search roots found

theorem build_restricted_library :
    libraryLimits.maxRouteDepth ≠ some 0 ∧
      Tree.build Graph.library libraryLimits.unrestricted = .ok libraryFullTree ∧
      libraryFullTree.nodes.length = 11 ∧
      ∃ restricted, Tree.build Graph.library libraryLimits = .ok restricted ∧
        restricted.nodes.length = 6 ∧
        List.Forall₂ (SameRoute Graph.library libraryLimits libraryLimits.unrestricted)
          restricted.nodes
          (libraryFullTree.nodes.filter (Node.isKept Graph.library libraryLimits)) := by
  have limit : libraryLimits.maxRouteDepth ≠ some 0 := by decide
  obtain ⟨restricted, hbuild, hsame⟩ := build_restricted limit build_libraryFullTree
  refine ⟨limit, build_libraryFullTree, by decide +kernel, restricted, hbuild, ?_, hsame⟩
  rw [hsame.length_eq]
  decide +kernel

end Route
end EdmCommands
