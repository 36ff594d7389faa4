import EdmCommands.Proofs.Config
import EdmCommands.Proofs.Route.Candidates
import EdmCommands.Proofs.Route.Exploration
import EdmCommands.Proofs.Schema.Operations

/-!
# EdmCommands.Proofs.Route.Routes

The routes of a schema, said without a search: which sequences of legs they are, and in which
order they stand in the tree.

* `IsRoute`: the sequences of legs that are routes.
* `Leads`: the same, leg by leg, as the search takes them.
* `Precedes`: the order of the routes, a route before those that continue it and siblings by name.
* `mem_legs_iff_leads`, `pairwise_precedes`, `subtreesFollow_of_explores`: one lemma about the
  search for each.
* `routes_of_build`: the tree of a schema holds its routes in that order.
-/

namespace EdmCommands
namespace Route

open Schema

def Node.legs (n : Node) : List Leg :=
  n.steps.map (·.leg)

/-- The routes of a tree, as sequences of legs. -/
def Tree.routes (t : Tree) : List (List Leg) :=
  t.nodes.map (·.legs)

/-- The names of the properties on a route, joined by slashes. -/
def joinedNames (g : Graph) (route : List Leg) : String :=
  "/".intercalate (route.map fun leg => g.nameOf leg.property)

/-- A route starts at an entry point, goes on along legs that can follow each other and repeats no
property. It keeps to the limit of segments, and no part of it from the start on is excluded. -/
structure IsRoute (g : Graph) (config : Config) (route : List Leg) : Prop where
  entry : ∃ p rest, route = ⟨p, none⟩ :: rest ∧ p ∈ g.container.properties
  continues : route.IsChain fun a b => Continues g a.property b
  distinct : (route.map (·.property)).Nodup
  short : ∀ limit, config.maxRouteDepth = some limit → route.length ≤ limit
  included : ∀ front, front ≠ [] → front <+: route →
    config.isRouteExcluded (joinedNames g front) = false

/-- The order of two legs behind the same part of a route: by name, and with the same name by the
derived classes that declare them, level by level. -/
def SiblingBefore (g : Graph) (front : List Leg) (a b : Leg) : Prop :=
  g.nameOf a.property < g.nameOf b.property ∨
    (g.nameOf a.property = g.nameOf b.property ∧
      ∃ last target, front.getLast? = some last ∧ g.typeClass last.property = some target ∧
        Later g target a b)

/-- The order of routes: a route comes before those that continue it, and where two routes part,
the leg decides that comes first among its siblings. -/
def Precedes (g : Graph) (r s : List Leg) : Prop :=
  (r <+: s ∧ r ≠ s) ∨
    ∃ front a b, front ++ [a] <+: r ∧ front ++ [b] <+: s ∧ SiblingBefore g front a b

/-- In a list of routes each is directly followed by those that continue it, and these stand
nowhere else. -/
def SubtreesFollow (routes : List (List Leg)) : Prop :=
  ∀ front route back, routes = front ++ route :: back →
    ∃ subtree rest, back = subtree ++ rest ∧ (∀ r ∈ subtree, route <+: r) ∧
      ∀ r ∈ front ++ rest, ¬ route <+: r

/-- A path goes on from `front` along legs that are allowed one after the other. -/
inductive Leads (g : Graph) (config : Config) : (front : List Leg) → List Leg → Prop where
  | stop {front : List Leg} {leg : Leg} :
      config.isRouteExcluded (joinedNames g (front ++ [leg])) = false →
      Leads g config front [leg]
  | go {front rest : List Leg} {leg next : Leg} :
      config.isRouteExcluded (joinedNames g (front ++ [leg])) = false →
      Continues g leg.property next →
      next.property ∉ (front ++ [leg]).map (·.property) →
      (∀ limit, config.maxRouteDepth = some limit → (front ++ [leg]).length < limit) →
      Leads g config (front ++ [leg]) (next :: rest) →
      Leads g config front (leg :: next :: rest)

variable {g : Graph} {config : Config}

/-! ## One step of the search -/

theorem map_property_leg (steps : List Step) :
    (steps.map (·.leg)).map (·.property) = steps.map (·.property) := by
  rw [List.map_map]
  rfl

theorem pathNames_eq {steps : List Step} {names : List String}
    (h : pathNames g steps = .ok names) : names = steps.map fun s => g.nameOf s.property := by
  induction steps generalizing names with
  | nil => cases h; rfl
  | cons step rest ih =>
    unfold pathNames at h
    split at h
    · cases h
    rename_i p hp
    split at h
    · cases h
    rename_i others hothers
    cases h
    rw [ih hothers, List.map_cons, Graph.nameOf_of_getElem? ((g.propertyAt_eq_ok_iff).1 hp)]

theorem accept_eq_ok {before : List Step} {idSegments : List Nat} {step : Step}
    {found : Option (List Nat)} (h : accept g config before idSegments step = .ok found) :
    config.isRouteExcluded (joinedNames g ((before ++ [step]).map (·.leg))) = found.isNone := by
  unfold accept at h
  split at h
  · cases h
  rename_i names hnames
  have joined : joinedNames g ((before ++ [step]).map (·.leg)) = "/".intercalate names := by
    rw [joinedNames, List.map_map, pathNames_eq hnames]
    rfl
  rw [joined]
  split at h
  · cases h
    assumption
  · rename_i hincluded
    rw [Bool.not_eq_true] at hincluded
    rw [hincluded]
    split at h <;> cases h <;> rfl

theorem excluded_of_follow {before : List Step} {idSegments : List Nat} {step : Step}
    (h : follow g config before idSegments step = .ok none) :
    config.isRouteExcluded (joinedNames g ((before ++ [step]).map (·.leg))) = true := by
  unfold follow at h
  split at h
  · cases h
  · rename_i haccept
    exact accept_eq_ok haccept
  · split at h <;> cases h

theorem follow_eq_some {before : List Step} {idSegments ids : List Nat} {step : Step}
    {following : List NamedStep}
    (h : follow g config before idSegments step = .ok (some (ids, following))) :
    config.isRouteExcluded (joinedNames g ((before ++ [step]).map (·.leg))) = false ∧
      accept g config before idSegments step = .ok (some ids) ∧
      continuations g config (before ++ [step]) step.property = .ok following := by
  unfold follow at h
  split at h
  · cases h
  · cases h
  · rename_i haccept
    split at h
    · cases h
    rename_i hcont
    cases h
    exact ⟨accept_eq_ok haccept, haccept, hcont⟩

theorem mem_legs_reverse_stackOrder {following : List NamedStep} {leg : Leg} :
    leg ∈ (stackOrder following).reverse.map (·.leg) ↔ leg ∈ following.map (·.step.leg) := by
  rw [List.map_reverse, List.mem_reverse, ((stackOrder_perm following).map (·.leg)).mem_iff,
    List.map_map]
  rfl

/-- Steps come off the stack in the order of siblings. -/
theorem pairwise_following (hf : g.Forest) (hw : g.WellOwned) {before : List Step} {step : Step}
    {following : List NamedStep}
    (h : continuations g config (before ++ [step]) step.property = .ok following) :
    (stackOrder following).reverse.Pairwise fun a b =>
      SiblingBefore g ((before ++ [step]).map (·.leg)) a.leg b.leg := by
  have hnames := (legs_continuations h).1
  refine pairwise_reverse_stackOrder (pairwise_continuations hf hw h) ?_ ?_
  · intro a ha b hb hlt
    rw [hnames a ha, hnames b hb] at hlt
    exact .inl hlt
  · intro a ha b hb heq hlater
    obtain ⟨target, hclass, hlater⟩ := hlater heq
    rw [hnames a ha, hnames b hb] at heq
    exact .inr ⟨heq, step.leg, target, by simp, hclass, hlater⟩

/-- What a step that is looked at leads to: its own path, and what the steps behind it lead to. -/
theorem leads_iff_of_follow (hf : g.Forest) {before : List Step} {idSegments ids : List Nat}
    {step : Step} {following : List NamedStep}
    (h : follow g config before idSegments step = .ok (some (ids, following))) {rest : List Leg} :
    Leads g config (before.map (·.leg)) (step.leg :: rest) ↔
      rest = [] ∨ ∃ leg ∈ (stackOrder following).reverse.map (·.leg), ∃ rest', rest = leg :: rest' ∧
        Leads g config ((before ++ [step]).map (·.leg)) (leg :: rest') := by
  obtain ⟨hincluded, _, hcont⟩ := follow_eq_some h
  have hmem := fun leg : Leg => @mem_continuations_iff _ _ hf _ _ _ hcont leg
  have hlegs : (before ++ [step]).map (·.leg) = before.map (·.leg) ++ [step.leg] := by simp
  have hlength : (before ++ [step]).length = (before.map (·.leg) ++ [step.leg]).length := by simp
  simp only [mem_legs_reverse_stackOrder, hmem]
  rw [← map_property_leg, hlegs, hlength]
  rw [hlegs] at hincluded
  constructor
  · intro hleads
    cases hleads with
    | stop => exact .inl rfl
    | go _ hnext hfresh hshort hrest =>
      exact .inr ⟨_, ⟨hnext, hfresh, hshort⟩, _, rfl, hrest⟩
  · rintro (rfl | ⟨leg, ⟨hnext, hfresh, hshort⟩, rest', rfl, hrest⟩)
    · exact .stop hincluded
    · exact .go hincluded hnext hfresh hshort hrest

theorem not_leads_of_follow {before : List Step} {idSegments : List Nat} {step : Step}
    (h : follow g config before idSegments step = .ok none) {rest : List Leg} :
    ¬ Leads g config (before.map (·.leg)) (step.leg :: rest) := by
  have hexcluded := excluded_of_follow h
  rw [List.map_append, List.map_singleton] at hexcluded
  intro hleads
  cases hleads with
  | stop hincluded => rw [hexcluded] at hincluded; cases hincluded
  | go hincluded => rw [hexcluded] at hincluded; cases hincluded

/-! ## The search as a whole -/

/-- The search finds the routes that its steps lead to, and no others. -/
theorem mem_legs_iff_leads (hf : g.Forest) {parent : Option NodeId} {before : List Step}
    {idSegments : List Nat} {next : Nat} {steps : List Step} {nodes : List Node}
    (h : Explores g config parent before idSegments next steps nodes) {route : List Leg} :
    route ∈ nodes.map (·.legs) ↔
      ∃ leg ∈ steps.map (·.leg), ∃ rest, route = before.map (·.leg) ++ leg :: rest ∧
        Leads g config (before.map (·.leg)) (leg :: rest) := by
  induction h with
  | done => simp
  | @skip parent before idSegments next step steps nodes hfollow _ ih =>
    rw [ih, List.map_cons, List.exists_mem_cons_iff, or_iff_right]
    rintro ⟨rest, _, hleads⟩
    exact not_leads_of_follow hfollow hleads
  | @visit parent before idSegments ids next step steps following below others hfollow _ _ ihb
      iho =>
    have hlegs : (before ++ [step]).map (·.leg) = before.map (·.leg) ++ [step.leg] := by simp
    have here : (Node.mk parent before step ids).legs = before.map (·.leg) ++ [step.leg] := by
      simp [Node.legs, Node.steps]
    rw [List.map_cons, List.mem_cons, List.map_append, List.mem_append, ihb, iho, List.map_cons,
      List.exists_mem_cons_iff, here, ← or_assoc]
    refine or_congr_left ?_
    simp only [leads_iff_of_follow hf hfollow, hlegs]
    constructor
    · rintro (rfl | ⟨leg, hleg, rest, rfl, hleads⟩)
      · exact ⟨[], rfl, .inl rfl⟩
      · exact ⟨leg :: rest, by simp, .inr ⟨leg, hleg, rest, rfl, hleads⟩⟩
    · rintro ⟨_, rfl, rfl | ⟨leg, hleg, rest, rfl, hleads⟩⟩
      · exact .inl rfl
      · exact .inr ⟨leg, hleg, rest, by simp, hleads⟩

/-- What the search finds begins with the path before it and one of its steps. -/
theorem exists_prefix_of_explores (hf : g.Forest) {parent : Option NodeId} {before : List Step}
    {idSegments : List Nat} {next : Nat} {steps : List Step} {nodes : List Node}
    (h : Explores g config parent before idSegments next steps nodes) {route : List Leg}
    (hroute : route ∈ nodes.map (·.legs)) :
    ∃ step ∈ steps, before.map (·.leg) ++ [step.leg] <+: route := by
  obtain ⟨leg, hleg, rest, rfl, _⟩ := (mem_legs_iff_leads hf h).1 hroute
  obtain ⟨step, hstep, rfl⟩ := List.mem_map.1 hleg
  exact ⟨step, hstep, rest, by simp⟩

theorem SiblingBefore.ne (hf : g.Forest) {front : List Leg} {a b : Leg}
    (h : SiblingBefore g front a b) : a ≠ b := by
  rintro rfl
  rcases h with hlt | ⟨_, _, target, _, _, c, d, hc, hd, hcd⟩
  · exact Std.lt_irrefl hlt
  · rw [hc] at hd
    cases hd
    have := hcd.nodup (Graph.nodup_below hf)
    simp at this

/-- Two ways on from one path that start differently have no route in common. -/
theorem leg_eq_of_common {front route : List Leg} {a b : Leg} (ha : front ++ [a] <+: route)
    (hb : front ++ [b] <+: route) : a = b := by
  have hlen : (front ++ [a]).length = (front ++ [b]).length := by simp
  rcases List.prefix_or_prefix_of_prefix ha hb with h | h
  · simpa using h.eq_of_length hlen
  · simpa [eq_comm] using h.eq_of_length hlen.symm

/-- All that is found at a step and below begins with it. -/
theorem prefix_of_visit (hf : g.Forest) {parent : Option NodeId} {before : List Step}
    {idSegments ids : List Nat} {next : Nat} {step : Step} {following : List NamedStep}
    {below : List Node}
    (hfollow : follow g config before idSegments step = .ok (some (ids, following)))
    (hbelow : Explores g config (some ⟨next⟩) (before ++ [step]) ids (next + 1)
      (stackOrder following).reverse below) {r : List Leg}
    (hr : r ∈ (Node.mk parent before step ids).legs :: below.map (·.legs)) :
    before.map (·.leg) ++ [step.leg] <+: r := by
  have alone : Explores g config parent before idSegments next [step] _ :=
    .visit hfollow hbelow .done
  obtain ⟨s, hs, hstart⟩ := exists_prefix_of_explores hf alone (by simpa using hr)
  rwa [List.mem_singleton.1 hs] at hstart

/-- What is found below a step is longer than the path to it. -/
theorem continued_of_mem_below (hf : g.Forest) {parent : Option NodeId} {before : List Step}
    {ids : List Nat} {next : Nat} {step : Step} {steps : List Step} {below : List Node}
    (hbelow : Explores g config (some ⟨next⟩) (before ++ [step]) ids (next + 1) steps below)
    {r : List Leg} (hr : r ∈ below.map (·.legs)) :
    (Node.mk parent before step ids).legs <+: r ∧ (Node.mk parent before step ids).legs ≠ r := by
  obtain ⟨s, _, hs⟩ := exists_prefix_of_explores hf hbelow hr
  refine ⟨(List.prefix_append _ _).trans hs, ?_⟩
  rintro rfl
  have := hs.length_le
  simp [Node.legs, Node.steps] at this

/-- The search finds routes in their order. -/
theorem pairwise_precedes (hf : g.Forest) (hw : g.WellOwned) {parent : Option NodeId}
    {before : List Step} {idSegments : List Nat} {next : Nat} {steps : List Step}
    {nodes : List Node} (h : Explores g config parent before idSegments next steps nodes)
    (siblings : steps.Pairwise fun a b => SiblingBefore g (before.map (·.leg)) a.leg b.leg) :
    (nodes.map (·.legs)).Pairwise (Precedes g) := by
  induction h with
  | done => exact .nil
  | skip _ _ ih => exact ih (List.pairwise_cons.1 siblings).2
  | @visit parent before idSegments ids next step steps following below others hfollow hbelow
      hothers ihb iho =>
    obtain ⟨hfirst, hrest⟩ := List.pairwise_cons.1 siblings
    have hnext := ihb (pairwise_following hf hw (follow_eq_some hfollow).2.2)
    rw [List.map_cons, List.map_append, ← List.cons_append, List.pairwise_append]
    refine ⟨List.pairwise_cons.2 ⟨?_, hnext⟩, iho hrest, ?_⟩
    · exact fun r hr => .inl (continued_of_mem_below hf hbelow hr)
    · intro r hr s hs
      obtain ⟨sibling, hsibling, hstart⟩ := exists_prefix_of_explores hf hothers hs
      exact .inr ⟨_, _, _, prefix_of_visit hf hfollow hbelow hr, hstart, hfirst sibling hsibling⟩

theorem SubtreesFollow.cons {routes : List (List Leg)} (h : SubtreesFollow routes) {top : List Leg}
    (continued : ∀ r ∈ routes, top <+: r ∧ top ≠ r) : SubtreesFollow (top :: routes) := by
  intro front route back heq
  rcases List.cons_eq_append_iff.1 heq with ⟨rfl, hroute⟩ | ⟨front, rfl, hroutes⟩
  · cases hroute
    exact ⟨routes, [], by simp, fun r hr => (continued r hr).1, by simp⟩
  · obtain ⟨subtree, rest, hback, hsub, hout⟩ := h front route back hroutes
    refine ⟨subtree, rest, hback, hsub, ?_⟩
    rw [List.cons_append, List.forall_mem_cons]
    refine ⟨fun hstart => ?_, hout⟩
    obtain ⟨htop, hne⟩ := continued route (by rw [hroutes]; simp)
    exact hne (htop.eq_of_length (Nat.le_antisymm htop.length_le hstart.length_le))

theorem SubtreesFollow.append {first second : List (List Leg)} (hfirst : SubtreesFollow first)
    (hsecond : SubtreesFollow second)
    (apart : ∀ r ∈ first, ∀ s ∈ second, ¬ r <+: s ∧ ¬ s <+: r) :
    SubtreesFollow (first ++ second) := by
  intro front route back heq
  have in_second : ∀ front, second = front ++ route :: back →
      ∃ subtree rest, back = subtree ++ rest ∧ (∀ r ∈ subtree, route <+: r) ∧
        ∀ r ∈ first ++ front ++ rest, ¬ route <+: r := by
    intro front heq
    obtain ⟨subtree, rest, hback, hsub, hout⟩ := hsecond front route back heq
    refine ⟨subtree, rest, hback, hsub, ?_⟩
    rw [List.append_assoc, List.forall_mem_append]
    exact ⟨fun r hr => (apart r hr route (by rw [heq]; simp)).2, hout⟩
  rcases List.append_eq_append_iff.1 heq with ⟨front', rfl, hroute⟩ | ⟨back', hfront, hroute⟩
  · exact in_second front' hroute
  · cases back' with
    | nil =>
      rw [List.append_nil] at hfront
      simpa [hfront] using in_second [] hroute.symm
    | cons r back' =>
      cases hroute
      obtain ⟨subtree, rest, rfl, hsub, hout⟩ := hfirst front route back' hfront
      refine ⟨subtree, rest ++ second, List.append_assoc _ _ _, hsub, ?_⟩
      rw [← List.append_assoc, List.forall_mem_append]
      exact ⟨hout, fun r hr => (apart route (by rw [hfront]; simp) r hr).1⟩

/-- The search puts each route directly before those that continue it. -/
theorem subtreesFollow_of_explores (hf : g.Forest) (hw : g.WellOwned) {parent : Option NodeId}
    {before : List Step} {idSegments : List Nat} {next : Nat} {steps : List Step}
    {nodes : List Node} (h : Explores g config parent before idSegments next steps nodes)
    (siblings : steps.Pairwise fun a b => SiblingBefore g (before.map (·.leg)) a.leg b.leg) :
    SubtreesFollow (nodes.map (·.legs)) := by
  induction h with
  | done =>
    intro front route back heq
    simp at heq
  | skip _ _ ih => exact ih (List.pairwise_cons.1 siblings).2
  | @visit parent before idSegments ids next step steps following below others hfollow hbelow
      hothers ihb iho =>
    obtain ⟨hfirst, hrest⟩ := List.pairwise_cons.1 siblings
    have hnext := ihb (pairwise_following hf hw (follow_eq_some hfollow).2.2)
    rw [List.map_cons, List.map_append, ← List.cons_append]
    refine (hnext.cons fun r hr => continued_of_mem_below hf hbelow hr).append (iho hrest) ?_
    intro r hr s hs
    obtain ⟨sibling, hsibling, hstart⟩ := exists_prefix_of_explores hf hothers hs
    have hbegin := prefix_of_visit hf hfollow hbelow hr
    have hne := (hfirst sibling hsibling).ne hf
    exact ⟨fun hrs => hne (leg_eq_of_common (hbegin.trans hrs) hstart),
      fun hsr => hne (leg_eq_of_common hbegin (hstart.trans hsr))⟩

/-! ## Routes leg by leg -/

theorem forall_prefix_cons {front rest : List Leg} {leg : Leg} {P : List Leg → Prop} :
    (∀ mid, mid ≠ [] → mid <+: leg :: rest → P (front ++ mid)) ↔
      P (front ++ [leg]) ∧ ∀ mid, mid ≠ [] → mid <+: rest → P (front ++ [leg] ++ mid) := by
  constructor
  · intro h
    refine ⟨h [leg] (by simp) (by simp), fun mid _ hmid => ?_⟩
    rw [List.append_assoc]
    exact h (leg :: mid) (by simp) (by simpa using hmid)
  · rintro ⟨hleg, h⟩ mid hne hmid
    rcases List.prefix_cons_iff.1 hmid with rfl | ⟨tail, rfl, htail⟩
    · exact absurd rfl hne
    · by_cases hnil : tail = []
      · rw [hnil]
        exact hleg
      · have := h tail hnil htail
        rwa [List.append_assoc] at this

/-- What is asked of the ways on from a path, all at once. -/
theorem leads_iff {front rest : List Leg} {leg : Leg}
    (distinct : ((front ++ [leg]).map (·.property)).Nodup) :
    Leads g config front (leg :: rest) ↔
      (leg :: rest).IsChain (fun a b => Continues g a.property b) ∧
        ((front ++ leg :: rest).map (·.property)).Nodup ∧
        (rest ≠ [] → ∀ limit, config.maxRouteDepth = some limit →
          (front ++ leg :: rest).length ≤ limit) ∧
        ∀ mid, mid ≠ [] → mid <+: leg :: rest →
          config.isRouteExcluded (joinedNames g (front ++ mid)) = false := by
  rw [forall_prefix_cons (P := fun route => config.isRouteExcluded (joinedNames g route) = false)]
  induction rest generalizing front leg with
  | nil =>
    constructor
    · rintro (hincluded | _)
      exact ⟨.singleton _, distinct, fun h => absurd rfl h, hincluded,
        fun mid hne hmid => absurd (List.prefix_nil.1 hmid) hne⟩
    · rintro ⟨_, _, _, hincluded, _⟩
      exact .stop hincluded
  | cons next rest ih =>
    have hassoc : front ++ leg :: next :: rest = front ++ [leg] ++ next :: rest := by simp
    rw [hassoc, List.isChain_cons_cons,
      forall_prefix_cons (P := fun route => config.isRouteExcluded (joinedNames g route) = false)]
    have hnodup : next.property ∉ (front ++ [leg]).map (·.property) →
        ((front ++ [leg] ++ [next]).map (·.property)).Nodup := by
      intro hfresh
      rw [List.map_append, List.nodup_append]
      refine ⟨distinct, by simp, fun a ha b hb hab => hfresh ?_⟩
      rw [List.map_singleton, List.mem_singleton] at hb
      rwa [← hb, ← hab]
    constructor
    · intro hleads
      cases hleads with
      | go hincluded hnext hfresh hshort hrest =>
        obtain ⟨hchain, hdistinct, hlong, hrest⟩ := (ih (hnodup hfresh)).1 hrest
        refine ⟨⟨hnext, hchain⟩, hdistinct, fun _ limit hlimit => ?_, hincluded, hrest⟩
        by_cases hnil : rest = []
        · have := hshort limit hlimit
          simp only [hnil, List.length_append, List.length_singleton] at this ⊢
          omega
        · exact hlong hnil limit hlimit
    · rintro ⟨⟨hnext, hchain⟩, hdistinct, hlong, hincluded, hrest⟩
      have hlong := hlong (by simp)
      have hfresh : next.property ∉ (front ++ [leg]).map (·.property) := by
        rw [List.map_append, List.map_cons] at hdistinct
        exact fun hmem => (List.nodup_append.1 hdistinct).2.2 _ hmem _ List.mem_cons_self rfl
      refine .go hincluded hnext hfresh (fun limit hlimit => ?_) ?_
      · have := hlong limit hlimit
        rw [List.length_append, List.length_cons] at this
        omega
      · exact (ih (hnodup hfresh)).2 ⟨hchain, hdistinct, fun _ => hlong, hrest⟩

/-- The routes are what the entry points lead to. A limit of no segments at all is not a valid
setting; it would not keep the entry points out. -/
theorem isRoute_iff (limit : config.maxRouteDepth ≠ some 0) {route : List Leg} :
    IsRoute g config route ↔
      ∃ leg ∈ g.container.properties.map fun p => Leg.mk p none, ∃ rest, route = leg :: rest ∧
        Leads g config [] (leg :: rest) := by
  have single : ∀ leg : Leg, (([] ++ [leg]).map Leg.property).Nodup := by simp
  constructor
  · rintro ⟨⟨p, rest, rfl, hp⟩, hcontinues, hdistinct, hshort, hincluded⟩
    refine ⟨⟨p, none⟩, List.mem_map.2 ⟨p, hp, rfl⟩, rest, rfl, (leads_iff (single _)).2 ?_⟩
    exact ⟨hcontinues, hdistinct, fun _ => hshort, hincluded⟩
  · rintro ⟨leg, hleg, rest, rfl, hleads⟩
    obtain ⟨p, hp, rfl⟩ := List.mem_map.1 hleg
    obtain ⟨hcontinues, hdistinct, hlong, hincluded⟩ := (leads_iff (single _)).1 hleads
    refine ⟨⟨p, rest, rfl, hp⟩, hcontinues, hdistinct, fun n hn => ?_, hincluded⟩
    by_cases hnil : rest = []
    · have : n ≠ 0 := fun h => limit (h ▸ hn)
      simp only [hnil, List.length_singleton]
      omega
    · exact hlong hnil n hn

/-! ## The tree of a schema -/

theorem roots_eq_ok {steps : List NamedStep} (h : Tree.roots g = .ok steps) :
    steps.map (·.step.leg) = g.container.properties.map (fun p => ⟨p, none⟩) ∧
      ∀ s ∈ steps, s.name = g.nameOf s.step.property := by
  obtain ⟨all, hall, rfl⟩ := Fallible.map_eq_ok_iff.1 h
  have hlegs := legs_nameCandidates hall
  constructor
  · have := congrArg (List.map fun leg : Leg => Leg.mk leg.property none) hlegs
    simpa [List.map_map, Function.comp_def, Step.leg] using this
  · intro s hs
    obtain ⟨c, hc, rfl⟩ := List.mem_map.1 hs
    exact name_of_nameCandidates hall hc

/-- The entry points come off the stack in ascending order of name; no two have the same one. -/
theorem pairwise_roots (hw : g.WellOwned) {steps : List NamedStep} (h : Tree.roots g = .ok steps) :
    (stackOrder steps).reverse.Pairwise fun a b => SiblingBefore g [] a.leg b.leg := by
  obtain ⟨hlegs, hnames⟩ := roots_eq_ok h
  have hproperties : steps.map (·.step.property) = g.container.properties := by
    have := congrArg (List.map Leg.property) hlegs
    simpa [List.map_map, Function.comp_def, Step.leg] using this
  have distinct : steps.Pairwise fun a b => a.step.property ≠ b.step.property := by
    rw [← List.pairwise_map (R := fun p q : PropertyId => p ≠ q), hproperties]
    exact hw.entry_nodup
  have entry : ∀ s ∈ steps, s.step.property ∈ g.container.properties := by
    intro s hs
    rw [← hproperties]
    exact List.mem_map.2 ⟨s, hs, rfl⟩
  refine pairwise_reverse_stackOrder distinct ?_ ?_
  · intro a ha b hb hlt
    rw [hnames a ha, hnames b hb] at hlt
    exact .inl hlt
  · intro a ha b hb heq hne
    rw [hnames a ha, hnames b hb] at heq
    exact absurd (hw.entry_names (entry a ha) (entry b hb) heq) hne

theorem Precedes.ne (hf : g.Forest) {r s : List Leg} (h : Precedes g r s) : r ≠ s := by
  rcases h with ⟨_, hne⟩ | ⟨front, a, b, ha, hb, hab⟩
  · exact hne
  · rintro rfl
    exact hab.ne hf (leg_eq_of_common ha hb)

/-- The tree of a schema holds exactly its routes, each once, in their order: each is directly
followed by those that continue it, and siblings come in ascending order of name, those of one name
in the order of the levels in which their classes lie. -/
theorem routes_of_build {tree : Tree} (built : g.Built) (valid : config.validate = .ok ())
    (h : Tree.build g config = .ok tree) :
    (∀ route, route ∈ tree.routes ↔ IsRoute g config route) ∧ tree.routes.Nodup ∧
      tree.routes.Pairwise (Precedes g) ∧ SubtreesFollow tree.routes := by
  have hf := built.forest
  have hw := built.wellOwned
  obtain ⟨steps, hroots, hexplores⟩ := build_eq_ok_iff.1 h
  have siblings := pairwise_roots hw hroots
  have sorted : tree.routes.Pairwise (Precedes g) := pairwise_precedes hf hw hexplores siblings
  refine ⟨fun route => ?_, sorted.imp fun hrs => hrs.ne hf, sorted,
    subtreesFollow_of_explores hf hw hexplores siblings⟩
  have limit := (Config.of_validate valid).2.2.2.2
  rw [isRoute_iff limit, Tree.routes, mem_legs_iff_leads hf hexplores]
  simp only [mem_legs_reverse_stackOrder, (roots_eq_ok hroots).1, List.map_nil, List.nil_append]

/-- Settings that leave out long routes of the library and the favorites of people. -/
def libraryLimits : Config :=
  { maxRouteDepth := some 3, excludeRoutes := ["people/favorite"] }

def libraryTree : Tree :=
  ⟨((search Graph.library libraryLimits 20 none [] [] 0 [⟨⟨7⟩, none⟩, ⟨⟨6⟩, none⟩]).getD [])⟩

/-- The makers of a book of the library, in its tree. -/
def makersNode : Node :=
  ⟨some ⟨0⟩, [⟨⟨7⟩, none⟩], ⟨⟨2⟩, some ⟨⟨1⟩, true⟩⟩, [0, 1]⟩

/-- The favorite of such a maker. -/
def favoriteNode : Node :=
  ⟨some ⟨1⟩, [⟨⟨7⟩, none⟩, ⟨⟨2⟩, some ⟨⟨1⟩, true⟩⟩], ⟨⟨5⟩, none⟩, [0, 1]⟩

theorem build_library : Tree.build Graph.library libraryLimits = .ok libraryTree := by
  have roots : Tree.roots Graph.library =
      .ok [⟨"people", ⟨⟨6⟩, none⟩⟩, ⟨"items", ⟨⟨7⟩, none⟩⟩] := by decide +kernel
  have found : search Graph.library libraryLimits 20 none [] [] 0
      ((byName [⟨"people", ⟨⟨6⟩, none⟩⟩, ⟨"items", ⟨⟨7⟩, none⟩⟩]).map (·.step)) =
        some libraryTree.nodes := by decide +kernel
  exact build_of_search roots found

theorem routes_of_library :
    libraryTree.routes =
        [[⟨⟨7⟩, none⟩], [⟨⟨7⟩, none⟩, ⟨⟨2⟩, some ⟨1⟩⟩],
          [⟨⟨7⟩, none⟩, ⟨⟨2⟩, some ⟨1⟩⟩, ⟨⟨5⟩, none⟩], [⟨⟨7⟩, none⟩, ⟨⟨3⟩, some ⟨2⟩⟩],
          [⟨⟨7⟩, none⟩, ⟨⟨3⟩, some ⟨2⟩⟩, ⟨⟨5⟩, none⟩], [⟨⟨6⟩, none⟩]] ∧
      (∀ route, route ∈ libraryTree.routes ↔ IsRoute Graph.library libraryLimits route) ∧
      libraryTree.routes.Nodup ∧ libraryTree.routes.Pairwise (Precedes Graph.library) ∧
      SubtreesFollow libraryTree.routes :=
  ⟨by decide +kernel,
    routes_of_build Graph.library_built (by decide +kernel) build_library⟩

end Route
end EdmCommands
