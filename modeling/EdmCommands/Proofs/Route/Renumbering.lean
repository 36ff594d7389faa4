import EdmCommands.Proofs.Route.Rendered
import EdmCommands.Proofs.Route.Routes
import EdmCommands.Proofs.Schema.Renumbering

/-!
# EdmCommands.Proofs.Route.Renumbering

The routes of graphs that differ in the places of their properties only.

* `Step.relocate`, `Node.relocate`: the same step or route at the new places.
* `filter_legsFrom`: the legs of one name that start at a class are the same, in the same order.
* `follow_relocate`: what follows a path is the same, in the order in which it is looked at.
* `explores_relocate`, `build_relocate`: so all routes are the same, in the same order.
* `ofNode_relocate`: a route has the same names.
-/

namespace EdmCommands
namespace Route

open Schema

variable {g : Graph} {table : Array Property} {place : PropertyId → PropertyId} {config : Config}
  {target : ClassId} {above : List ClassId} {ids found : List PropertyId} {step : Step}
  {steps before : List Step} {idSegments : List Nat}

section Relocation

variable (place : PropertyId → PropertyId)

def Leg.relocate (leg : Leg) : Leg :=
  { leg with property := place leg.property }

def Step.relocate (step : Step) : Step :=
  { step with property := place step.property }

def NamedStep.relocate (step : NamedStep) : NamedStep :=
  { step with step := step.step.relocate place }

def Candidate.relocate (c : Candidate) : Candidate :=
  { c with property := place c.property }

/-- The same route at the new places. -/
def Node.relocate (n : Node) : Node :=
  { n with before := n.before.map (Step.relocate place), step := n.step.relocate place }

end Relocation

/-! ## Lists in another order -/

/-- Of the elements that pass a test there is at most one, so it does not matter where it stands. -/
theorem filter_eq_map_filter {α β : Type} {l : List α} {l' : List β} {f : α → β}
    {test : α → Bool} {test' : β → Bool} (perm : (l.map f).Perm l')
    (same : ∀ a ∈ l, test' (f a) = test a) (once : (l.filter test).length ≤ 1) :
    l'.filter test' = (l.filter test).map f := by
  have hperm := perm.filter test'
  have hsame : l.filter (test' ∘ f) = l.filter test := List.filter_congr same
  rw [List.filter_map, hsame] at hperm
  match hfound : l.filter test with
  | [] =>
    rw [hfound] at hperm
    exact hperm.symm.eq_nil
  | [a] =>
    rw [hfound] at hperm
    exact (List.singleton_perm.1 hperm).symm
  | a :: b :: rest =>
    rw [hfound] at once
    simp at once

theorem length_filter_le_one {α : Type} (name : α → String) {l : List α}
    (distinct : (l.map name).Nodup) (wanted : String) :
    (l.filter fun a => name a == wanted).length ≤ 1 := by
  have hnodup := distinct.sublist ((List.filter_sublist (p := fun a => name a == wanted)).map name)
  have hsame : (l.filter fun a => name a == wanted).map name =
      List.replicate (l.filter fun a => name a == wanted).length wanted := by
    rw [List.eq_replicate_iff]
    refine ⟨List.length_map .., ?_⟩
    intro b hb
    obtain ⟨a, ha, rfl⟩ := List.mem_map.1 hb
    exact beq_iff_eq.1 (List.mem_filter.1 ha).2
  rw [hsame, List.nodup_replicate] at hnodup
  exact hnodup

/-- The steps `steps'` are those of `steps` at the new places, and those of one name are in the
same order. -/
def Regrouped (place : PropertyId → PropertyId) (steps steps' : List NamedStep) : Prop :=
  ∀ name, steps'.filter (·.name == name) =
    (steps.filter (·.name == name)).map (NamedStep.relocate place)

theorem Regrouped.reverse_stackOrder {steps steps' : List NamedStep}
    (h : Regrouped place steps steps') :
    (stackOrder steps').reverse = (stackOrder steps).reverse.map (Step.relocate place) := by
  have hsorted : byName steps' = (byName steps).map (NamedStep.relocate place) := by
    refine eq_of_sorted sorted_byName ?_ ?_
    · rw [List.pairwise_map]
      exact sorted_byName
    · intro name
      rw [filter_byName, h name, List.filter_map]
      exact congrArg _ filter_byName.symm
  rw [Route.reverse_stackOrder, Route.reverse_stackOrder, hsorted, List.map_map, List.map_map]
  rfl

/-! ## What can be looked at -/

def IsJudged (g : Graph) (p : PropertyId) : Prop :=
  ∃ q b, g.propertyAt p = .ok q ∧ g.isEntityType q.type = .ok b

theorem navigations_eq_ok_iff : navigations g ids = .ok found ↔
    (∀ p ∈ ids, IsJudged g p) ∧ found = ids.filter g.isNavigation := by
  constructor
  · intro h
    refine ⟨?_, navigations_eq h⟩
    induction ids generalizing found with
    | nil => simp
    | cons id rest ih =>
      unfold navigations at h
      split at h
      · cases h
      rename_i p hp
      split at h
      · cases h
      rename_i isEntity hentity
      split at h
      · cases h
      rename_i others hothers
      rw [List.forall_mem_cons]
      exact ⟨⟨p, isEntity, hp, hentity⟩, ih hothers⟩
  · rintro ⟨judged, rfl⟩
    induction ids with
    | nil => rfl
    | cons id rest ih =>
      rw [List.forall_mem_cons] at judged
      obtain ⟨⟨p, isEntity, hp, hentity⟩, hrest⟩ := judged
      unfold navigations
      simp only [hp, hentity, ih hrest, List.filter_cons, ← isEntityType_eq hp hentity]

theorem nameCandidates_eq {found : List (PropertyId × Option ClassId)}
    (known : ∀ c ∈ found, ∃ q, g.propertyAt c.1 = .ok q) :
    nameCandidates g found = .ok (found.map fun c => ⟨g.nameOf c.1, c.1, c.2⟩) := by
  induction found with
  | nil => rfl
  | cons head rest ih =>
    obtain ⟨property, cast⟩ := head
    rw [List.forall_mem_cons] at known
    obtain ⟨⟨p, hp⟩, hrest⟩ := known
    have hname := Graph.nameOf_of_getElem? ((g.propertyAt_eq_ok_iff).1 hp)
    dsimp only at hp
    unfold nameCandidates
    simp only [hp, ih hrest, List.map_cons, hname]

/-- All properties that a class has, or a class derived from it declares, can be judged. -/
def Judges (g : Graph) (target : ClassId) : Prop :=
  ∀ x, g.Within target x ∨ g.Derives x target → ∀ p ∈ g.ownProperties x, IsJudged g p

theorem exists_candidates_iff (hf : g.Forest) (known : g.IsClass target) :
    (∃ found, candidates g target = .ok found) ↔ Judges g target := by
  obtain ⟨above, hchain⟩ := hf.chain target
  let declared := fun (c : ClassId) (r : StructuredType) =>
    (navigations g r.properties).map fun ids => ids.map fun p => (p, some c)
  have hdeclared : ∀ c ∈ g.below target, (∃ ids, (g.classAt c >>= declared c) = .ok ids) ↔
      ∀ p ∈ g.ownProperties c, IsJudged g p := by
    intro c hc
    obtain ⟨r, hr⟩ := Graph.isClass_iff.1 (Graph.isClass_of_mem_below hf hc)
    rw [Graph.ownProperties_of_classAt hr, hr]
    simp only [declared, Fallible.bind_eq_ok_iff, Fallible.map_eq_ok_iff, Except.ok.injEq,
      exists_eq_left', navigations_eq_ok_iff]
    simp
  have hbelow : (∃ parts, g.collectBelow declared target [] = .ok parts) ↔
      ∀ c, g.Derives c target → ∀ p ∈ g.ownProperties c, IsJudged g p := by
    rw [Graph.collectBelow_eq hf known (by simp)]
    simp only [Fallible.map_eq_ok_iff, ← Graph.mem_below_iff hf]
    constructor
    · rintro ⟨_, parts, hparts, _⟩ c hc
      obtain ⟨ids, _, hids⟩ := Fallible.exists_of_mem_left (Fallible.mapM_eq_ok_iff.1 hparts) hc
      exact (hdeclared c hc).1 ⟨ids, hids⟩
    · intro judged
      obtain ⟨parts, hparts⟩ := Fallible.exists_mapM_eq_ok
        fun c hc => (hdeclared c hc).2 (judged c hc)
      exact ⟨_, parts, hparts, rfl⟩
  have hhere : (∃ here, navigations g ((above.reverse ++ [target]).flatMap g.ownProperties) =
      .ok here) ↔ ∀ c, g.Within target c → ∀ p ∈ g.ownProperties c, IsJudged g p := by
    simp only [navigations_eq_ok_iff, exists_and_left, exists_eq, and_true, List.mem_flatMap,
      mem_lineage_iff hchain]
    exact ⟨fun h c hc p hp => h p ⟨c, hc, hp⟩, fun h p ⟨c, hc, hp⟩ => h c hc p hp⟩
  have hsplit : (∃ found, candidates g target = .ok found) ↔
      (∃ here, navigations g ((above.reverse ++ [target]).flatMap g.ownProperties) = .ok here) ∧
        ∃ parts, g.collectBelow declared target [] = .ok parts := by
    unfold candidates
    rw [Graph.allProperties_eq hf known hchain]
    constructor
    · rintro ⟨_, h⟩
      dsimp only at h
      split at h
      · cases h
      · rename_i here hhere
        split at h
        · cases h
        · rename_i parts hparts
          exact ⟨⟨here, hhere⟩, parts, hparts⟩
    · rintro ⟨⟨here, hhere⟩, parts, hparts⟩
      have hparts' : g.collectBelow (fun derived c =>
          (navigations g c.properties).map fun ids => ids.map fun p => (p, some derived))
          target [] = .ok parts := hparts
      simp only [hhere, hparts', Except.ok.injEq, exists_eq']
  rw [hsplit, hhere, hbelow]
  exact ⟨fun h x hx => hx.elim (h.1 x) (h.2 x),
    fun h => ⟨fun x hx => h x (.inl hx), fun x hx => h x (.inr hx)⟩⟩

def Leg.named (g : Graph) (leg : Leg) : Candidate :=
  ⟨g.nameOf leg.property, leg.property, leg.cast⟩

theorem exists_named (hf : g.Forest) (known : g.IsClass target)
    (hchain : g.BaseChain target above) (judged : Judges g target) :
    ∃ found, candidates g target = .ok found ∧
      nameCandidates g found = .ok ((legsFrom g target above).map (Leg.named g)) := by
  obtain ⟨found, hfound⟩ := (exists_candidates_iff hf known).2 judged
  have hlegs := candidates_eq hf hchain hfound
  have hknown : ∀ c ∈ found, ∃ q, g.propertyAt c.1 = .ok q := by
    intro c hc
    have hleg : (⟨c.1, c.2⟩ : Leg) ∈ legsFrom g target above := by
      rw [← hlegs]
      exact List.mem_map_of_mem (f := fun c : PropertyId × Option ClassId => Leg.mk c.1 c.2) hc
    obtain ⟨_, hoffers⟩ := (mem_legsFrom_iff hf hchain).1 hleg
    obtain ⟨x, hx, hown⟩ : ∃ x, (g.Within target x ∨ g.Derives x target) ∧
        c.1 ∈ g.ownProperties x := by
      cases hcast : c.2 with
      | none =>
        simp only [hcast] at hoffers
        obtain ⟨x, hx, hown⟩ := hoffers
        exact ⟨x, .inl hx, hown⟩
      | some x =>
        simp only [hcast] at hoffers
        exact ⟨x, .inr hoffers.1, hoffers.2⟩
    obtain ⟨q, _, hq, _⟩ := judged x hx c.1 hown
    exact ⟨q, hq⟩
  refine ⟨found, hfound, ?_⟩
  rw [nameCandidates_eq hknown, ← hlegs, List.map_map]
  rfl

/-! ## Legs at the new places -/

section Renumbered

variable (h : g.Renumbers table place)
include h

theorem IsJudged.relocate {p : PropertyId} (hp : IsJudged g p) :
    IsJudged (g.withProperties table) (place p) := by
  obtain ⟨q, b, hq, hb⟩ := hp
  exact ⟨q, b, h.propertyAt hq, hb⟩

theorem Judges.relocate (hg : Judges g target) : Judges (g.withProperties table) target := by
  intro x hx p hp
  obtain ⟨q, hq, rfl⟩ := h.exists_own hp
  exact (hg x hx q hq).relocate h

/-- Among members of distinct names, the navigation property of a name is found at its new place. -/
theorem filter_legs (perm : (ids.map place).Perm ids) (distinct : (ids.map g.nameOf).Nodup)
    (cast : Option ClassId) (name : String) :
    ((ids.filter (g.withProperties table).isNavigation).map fun p => Leg.mk p cast).filter
        (fun leg => (g.withProperties table).nameOf leg.property == name) =
      (((ids.filter g.isNavigation).map fun p => Leg.mk p cast).filter
        fun leg => g.nameOf leg.property == name).map (Leg.relocate place) := by
  have navigated : ((ids.filter g.isNavigation).map place).Perm
      (ids.filter (g.withProperties table).isNavigation) := by
    have hperm := perm.filter (g.withProperties table).isNavigation
    have hsame : ids.filter ((g.withProperties table).isNavigation ∘ place) =
        ids.filter g.isNavigation := List.filter_congr fun p _ => h.isNavigation p
    rwa [List.filter_map, hsame] at hperm
  refine filter_eq_map_filter ?_ ?_ ?_
  · rw [List.map_map]
    have hperm := navigated.map fun p => Leg.mk p cast
    rwa [List.map_map] at hperm
  · intro leg _
    exact congrArg (· == name) (h.nameOf leg.property)
  · refine length_filter_le_one (fun leg : Leg => g.nameOf leg.property) ?_ name
    rw [List.map_map]
    exact distinct.sublist (List.filter_sublist.map g.nameOf)

theorem filter_legsFrom (hf : g.Forest) (hw : g.WellOwned) (known : g.IsClass target)
    (hchain : g.BaseChain target above) (name : String) :
    (legsFrom (g.withProperties table) target above).filter
        (fun leg => (g.withProperties table).nameOf leg.property == name) =
      ((legsFrom g target above).filter fun leg => g.nameOf leg.property == name).map
        (Leg.relocate place) := by
  have hids := Graph.allProperties_eq hf known hchain
  have distinct := hw.names_nodup hf (hw.nodup_members hchain) hids
  have own : ∀ c, ((g.ownProperties c).map g.nameOf).Nodup :=
    fun c => hw.nodup_ownNames (.structured c)
  unfold legsFrom
  rw [List.filter_append, List.filter_append, List.map_append, Graph.below_withProperties]
  congr 1
  · exact filter_legs h (h.perm_flatMap _) distinct none name
  · rw [List.filter_flatMap, List.filter_flatMap, List.map_flatMap]
    exact List.flatMap_congr fun c _ => filter_legs h (h.own c) (own c) (some c) name

theorem named_relocate (leg : Leg) :
    (leg.relocate place).named (g.withProperties table) = (leg.named g).relocate place := by
  rw [Leg.named, Leg.relocate, h.nameOf]
  rfl

/-- The candidates of one name are the same, in the same order. -/
theorem filter_named (hf : g.Forest) (hw : g.WellOwned) (known : g.IsClass target)
    (hchain : g.BaseChain target above) (name : String) :
    ((legsFrom (g.withProperties table) target above).map
        (Leg.named (g.withProperties table))).filter (·.name == name) =
      (((legsFrom g target above).map (Leg.named g)).filter (·.name == name)).map
        (Candidate.relocate place) := by
  have hlegs := filter_legsFrom h hf hw known hchain name
  rw [List.filter_map, List.filter_map, List.map_map]
  change ((legsFrom (g.withProperties table) target above).filter
    fun leg => (g.withProperties table).nameOf leg.property == name).map _ = _
  rw [hlegs, List.map_map]
  exact List.map_congr_left fun leg _ => named_relocate h leg

end Renumbered

/-- Whether a name is declared twice is a matter of the candidates of that name. -/
theorem isDeclaredTwice_congr {all all' : List Candidate} {name : String}
    (h : all'.filter (·.name == name) =
      (all.filter (·.name == name)).map (Candidate.relocate place)) :
    isDeclaredTwice all' name = isDeclaredTwice all name := by
  have hfilter : ∀ l : List Candidate,
      (l.filterMap fun c => if c.name == name then c.cast else none) =
        (l.filter (·.name == name)).filterMap (·.cast) := by
    intro l
    rw [List.filterMap_filter]
  unfold isDeclaredTwice
  dsimp only
  rw [hfilter, hfilter, h, List.filterMap_map]
  rfl

/-- The candidates of each name are the same at the new places. -/
def SameCandidates (place : PropertyId → PropertyId) (all all' : List Candidate) : Prop :=
  ∀ name, all'.filter (·.name == name) =
    (all.filter (·.name == name)).map (Candidate.relocate place)

/-- The steps along those candidates that are not on the path. -/
def stepsAlong (steps : List Step) (all : List Candidate) : List NamedStep :=
  (all.filter fun c => !(steps.map (·.property)).contains c.property).map fun c =>
    { name := c.name
      step :=
        { property := c.property
          cast := c.cast.map fun target => ⟨target, isDeclaredTwice all c.name⟩ } }

theorem contains_relocate (injective : Function.Injective place) (steps : List Step)
    (p : PropertyId) :
    ((steps.map (Step.relocate place)).map (·.property)).contains (place p) =
      (steps.map (·.property)).contains p := by
  have hplaces : (steps.map (Step.relocate place)).map (·.property) =
      (steps.map (·.property)).map place := by
    rw [List.map_map, List.map_map]
    rfl
  rw [hplaces, Bool.eq_iff_iff, List.contains_iff_mem, List.contains_iff_mem,
    List.mem_map_of_injective injective]

/-- The steps of one name are those along the candidates of that name. -/
theorem filter_stepsAlong (steps : List Step) (all : List Candidate) (name : String) :
    (stepsAlong steps all).filter (·.name == name) =
      ((all.filter (·.name == name)).filter fun c =>
        !(steps.map (·.property)).contains c.property).map fun c =>
          { name := c.name
            step :=
              { property := c.property
                cast := c.cast.map fun target => ⟨target, isDeclaredTwice all c.name⟩ } } := by
  unfold stepsAlong
  rw [List.filter_map, List.filter_filter, List.filter_filter]
  refine congrArg _ (List.filter_congr fun c _ => Bool.and_comm _ _)

theorem regrouped_stepsAlong (injective : Function.Injective place) {all all' : List Candidate}
    (same : SameCandidates place all all') :
    Regrouped place (stepsAlong steps all)
      (stepsAlong (steps.map (Step.relocate place)) all') := by
  intro name
  have hfresh : ((all.filter (·.name == name)).map (Candidate.relocate place)).filter (fun c =>
        !((steps.map (Step.relocate place)).map (·.property)).contains c.property) =
      ((all.filter (·.name == name)).filter fun c =>
        !(steps.map (·.property)).contains c.property).map (Candidate.relocate place) := by
    rw [List.filter_map]
    refine congrArg _ (List.filter_congr fun c _ => ?_)
    exact congrArg _ (contains_relocate injective steps c.property)
  rw [filter_stepsAlong, filter_stepsAlong, same name, hfresh, List.map_map, List.map_map]
  refine List.map_congr_left fun c _ => ?_
  have htwice := isDeclaredTwice_congr (same c.name)
  simp only [Function.comp_apply, NamedStep.relocate, Candidate.relocate, Step.relocate, htwice]

section Renumbered

variable (h : g.Renumbers table place) (built : g.Built)
include h built

/-- The candidates of a class are the same at the new places. -/
theorem exists_candidates_relocate {found : List (PropertyId × Option ClassId)}
    {all : List Candidate} (hfound : candidates g target = .ok found)
    (hall : nameCandidates g found = .ok all) :
    ∃ found' all', candidates (g.withProperties table) target = .ok found' ∧
      nameCandidates (g.withProperties table) found' = .ok all' ∧
      SameCandidates place all all' := by
  have hf := built.forest
  have hf' : (g.withProperties table).Forest := hf.withProperties
  obtain ⟨above, hchain⟩ := hf.chain target
  have known : g.IsClass target := by
    unfold candidates at hfound
    split at hfound
    · cases hfound
    rename_i ids hids
    exact isClass_of_allProperties hids
  have judged := (exists_candidates_iff hf known).1 ⟨found, hfound⟩
  obtain ⟨_, hfound₁, hall₁⟩ := exists_named hf known hchain judged
  rw [hfound, Except.ok.injEq] at hfound₁
  rw [← hfound₁, hall, Except.ok.injEq] at hall₁
  obtain ⟨found', hfound', hall'⟩ :=
    exists_named hf' known hchain.withProperties (judged.relocate h)
  refine ⟨found', _, hfound', hall', ?_⟩
  rw [hall₁]
  exact filter_named h hf built.wellOwned known hchain

theorem exists_continuations {last : PropertyId} {following : List NamedStep}
    (hcont : continuations g config steps last = .ok following) :
    ∃ following', continuations (g.withProperties table) config (steps.map (Step.relocate place))
      (place last) = .ok following' ∧ Regrouped place following following' := by
  unfold continuations at hcont ⊢
  split at hcont
  · cases hcont
  rename_i p hp
  simp only [h.propertyAt hp, List.length_map]
  split at hcont
  · split at hcont
    · rename_i hdepth
      cases hcont
      exact ⟨[], if_pos hdepth, fun _ => rfl⟩
    rename_i hdepth
    rw [if_neg hdepth]
    split at hcont
    · cases hcont
    rename_i target _ _ _ found hfound
    split at hcont
    · cases hcont
    rename_i all hall
    cases hcont
    obtain ⟨found', all', hfound', hall', same⟩ := exists_candidates_relocate h built hfound hall
    refine ⟨stepsAlong (steps.map (Step.relocate place)) all', ?_,
      regrouped_stepsAlong h.injective same⟩
    rw [hfound']
    simp only [hall']
    rfl
  · cases hcont
    exact ⟨[], rfl, fun _ => rfl⟩

end Renumbered

/-! ## Routes at the new places -/

theorem roots_eq (known : ∀ p ∈ g.container.properties, ∃ q, g.propertyAt p = .ok q) :
    Tree.roots g =
      .ok (g.container.properties.map fun p => NamedStep.mk (g.nameOf p) ⟨p, none⟩) := by
  have hknown : ∀ c ∈ g.container.properties.map fun p => (p, (none : Option ClassId)),
      ∃ q, g.propertyAt c.1 = .ok q := by
    rw [List.forall_mem_map]
    exact known
  rw [Tree.roots, nameCandidates_eq hknown]
  refine congrArg Except.ok ?_
  dsimp only
  rw [List.map_map, List.map_map]
  rfl

section Renumbered

variable (h : g.Renumbers table place) (built : g.Built)
include h

theorem pathNames_relocate {names : List String} (hnames : pathNames g steps = .ok names) :
    pathNames (g.withProperties table) (steps.map (Step.relocate place)) = .ok names := by
  induction steps generalizing names with
  | nil => exact hnames
  | cons step rest ih =>
    unfold pathNames at hnames
    split at hnames
    · cases hnames
    rename_i p hp
    split at hnames
    · cases hnames
    rename_i others hothers
    cases hnames
    simp only [List.map_cons, pathNames, Step.relocate, h.propertyAt hp, ih hothers]

include built

theorem isEntitySegment_relocate {p : PropertyId} {b : Bool}
    (hset : isEntitySegment g p = .ok b) :
    isEntitySegment (g.withProperties table) (place p) = .ok b := by
  unfold isEntitySegment at hset ⊢
  split at hset
  · cases hset
  rename_i q hq
  rw [h.propertyAt hq]
  dsimp only
  split at hset
  · split at hset
    · cases hset
    rename_i target _ _ _ c hc
    simp only [Graph.classAt_withProperties, hc]
    split at hset
    · rename_i hcollection
      rw [if_pos hcollection]
      split at hset
      · cases hset
      · rename_i key hkey
        rw [h.keyProperty built.forest built.wellOwned hkey]
        exact hset
      · split at hset <;> cases hset
    · rename_i hcollection
      rw [if_neg hcollection]
      exact hset
  · exact hset

theorem accept_relocate {found : Option (List Nat)}
    (haccept : accept g config before idSegments step = .ok found) :
    accept (g.withProperties table) config (before.map (Step.relocate place)) idSegments
      (step.relocate place) = .ok found := by
  unfold accept at haccept ⊢
  split at haccept
  · cases haccept
  rename_i names hnames
  have hnames' := pathNames_relocate h hnames
  rw [List.map_append, List.map_singleton] at hnames'
  simp only [hnames', List.length_map]
  split at haccept
  · rename_i hexcluded
    rwa [if_pos hexcluded]
  · rename_i hincluded
    rw [if_neg hincluded]
    have hproperty : (step.relocate place).property = place step.property := rfl
    split at haccept
    · cases haccept
    all_goals
      rename_i hset
      rw [hproperty, isEntitySegment_relocate h built hset]
      exact haccept

theorem follow_relocate_none (hfollow : follow g config before idSegments step = .ok none) :
    follow (g.withProperties table) config (before.map (Step.relocate place)) idSegments
      (step.relocate place) = .ok none := by
  unfold follow at hfollow ⊢
  split at hfollow
  · cases hfollow
  · rename_i haccept
    rw [accept_relocate h built haccept]
  · split at hfollow <;> cases hfollow

theorem follow_relocate_some {following : List NamedStep} {segments : List Nat}
    (hfollow : follow g config before idSegments step = .ok (some (segments, following))) :
    ∃ following', follow (g.withProperties table) config (before.map (Step.relocate place))
        idSegments (step.relocate place) = .ok (some (segments, following')) ∧
      Regrouped place following following' := by
  obtain ⟨_, haccept, hcont⟩ := follow_eq_some hfollow
  obtain ⟨following', hcont', hregrouped⟩ := exists_continuations h built hcont
  rw [List.map_append, List.map_singleton] at hcont'
  refine ⟨following', ?_, hregrouped⟩
  unfold follow
  have hproperty : (step.relocate place).property = place step.property := rfl
  rw [accept_relocate h built haccept, hproperty, hcont']

/-- The search finds the same routes in the same order. -/
theorem explores_relocate {parent : Option NodeId} {next : Nat} {nodes : List Node}
    (hexplores : Explores g config parent before idSegments next steps nodes) :
    Explores (g.withProperties table) config parent (before.map (Step.relocate place)) idSegments
      next (steps.map (Step.relocate place)) (nodes.map (Node.relocate place)) := by
  induction hexplores with
  | done => exact .done
  | skip hfollow _ ih => exact .skip (follow_relocate_none h built hfollow) ih
  | visit hfollow _ _ ihb iho =>
    obtain ⟨following', hfollow', hregrouped⟩ := follow_relocate_some h built hfollow
    rw [List.map_append, List.map_singleton, ← hregrouped.reverse_stackOrder] at ihb
    rw [List.map_cons, List.map_cons, List.map_append]
    refine .visit hfollow' ihb ?_
    rwa [List.length_map]

/-- The entry points are the same at the new places. -/
theorem exists_roots_relocate {roots : List NamedStep} (hroots : Tree.roots g = .ok roots) :
    ∃ roots', Tree.roots (g.withProperties table) = .ok roots' ∧ Regrouped place roots roots' := by
  have hw := built.wellOwned
  have known : ∀ p ∈ g.container.properties, ∃ q, g.propertyAt p = .ok q := by
    intro p hp
    obtain ⟨q, hq, _⟩ := hw.entry_known hp
    exact ⟨q, (Graph.propertyAt_eq_ok_iff g).2 hq⟩
  have known' : ∀ p ∈ g.container.properties,
      ∃ q, (g.withProperties table).propertyAt p = .ok q := by
    intro p hp
    obtain ⟨q, hq, rfl⟩ := List.mem_map.1 (h.entries.mem_iff.2 hp)
    obtain ⟨r, hr⟩ := known q hq
    exact ⟨r, h.propertyAt hr⟩
  rw [roots_eq known, Except.ok.injEq] at hroots
  refine ⟨_, roots_eq known', fun name => ?_⟩
  rw [← hroots]
  refine filter_eq_map_filter ?_ (fun _ _ => rfl) ?_
  · have hperm := h.entries.map fun p =>
      NamedStep.mk ((g.withProperties table).nameOf p) ⟨p, none⟩
    have hmoved : (g.container.properties.map place).map (fun p =>
          NamedStep.mk ((g.withProperties table).nameOf p) ⟨p, none⟩) =
        (g.container.properties.map fun p => NamedStep.mk (g.nameOf p) ⟨p, none⟩).map
          (NamedStep.relocate place) := by
      rw [List.map_map, List.map_map]
      refine List.map_congr_left fun p _ => ?_
      rw [Function.comp_apply, h.nameOf]
      rfl
    rwa [hmoved] at hperm
  · refine length_filter_le_one NamedStep.name ?_ name
    rw [List.map_map]
    exact hw.nodup_ownNames .container

theorem build_relocate {tree : Tree} (hbuild : Tree.build g config = .ok tree) :
    Tree.build (g.withProperties table) config = .ok ⟨tree.nodes.map (Node.relocate place)⟩ := by
  obtain ⟨roots, hroots, hexplores⟩ := build_eq_ok_iff.1 hbuild
  obtain ⟨roots', hroots', hregrouped⟩ := exists_roots_relocate h built hroots
  refine build_eq_ok_iff.2 ⟨roots', hroots', ?_⟩
  rw [hregrouped.reverse_stackOrder]
  exact explores_relocate h built hexplores

/-! ## Names at the new places -/

theorem idPlaceholder_relocate {taken : List String} {id : PropertyId} {p : Property}
    {placeholder : IdPlaceholder}
    (hid : idPlaceholder g config taken id p = .ok placeholder) :
    idPlaceholder (g.withProperties table) config taken (place id) p = .ok placeholder := by
  unfold idPlaceholder at hid ⊢
  split at hid
  · obtain ⟨found, hfound, hid⟩ := Fallible.bind_eq_ok_iff.1 hid
    rw [h.keyProperty built.forest built.wellOwned hfound]
    cases found with
    | none =>
      obtain ⟨_, _, hid⟩ := Fallible.bind_eq_ok_iff.1 hid
      cases hid
    | some keyId =>
      obtain ⟨key, hkey, hid⟩ := Fallible.bind_eq_ok_iff.1 hid
      refine Fallible.bind_eq_ok_iff.2 ⟨some (place keyId), rfl, ?_⟩
      exact Fallible.bind_eq_ok_iff.2 ⟨key, h.propertyAt hkey, hid⟩
  · obtain ⟨_, _, hid⟩ := Fallible.bind_eq_ok_iff.1 hid
    cases hid

theorem renderFrom_relocate {index : Nat} {taken : List String} {segments : List Segment}
    (hrender : renderFrom g config idSegments index taken steps = .ok segments) :
    renderFrom (g.withProperties table) config idSegments index taken
      (steps.map (Step.relocate place)) = .ok segments := by
  induction steps generalizing index taken segments with
  | nil => exact hrender
  | cons step rest ih =>
    obtain ⟨p, id, typecast, others, hp, hsome, hid, hcasts, hcast, hothers, rfl⟩ :=
      renderFrom_cons_eq_ok_iff.1 hrender
    have same : (rest.map (Step.relocate place)).head?.bind (·.cast) =
        rest.head?.bind (·.cast) := by
      cases rest <;> rfl
    rw [List.map_cons, renderFrom_cons_eq_ok_iff, same]
    exact ⟨p, id, typecast, others, h.propertyAt hp, hsome,
      fun i hi => idPlaceholder_relocate h built (hid i hi), hcasts, hcast, ih hothers, rfl⟩

/-- A route has the same names at the new places. -/
theorem ofNode_relocate {n : Node} {r : Rendered} (hof : Rendered.ofNode g config n = .ok r) :
    Rendered.ofNode (g.withProperties table) config (n.relocate place) = .ok r := by
  obtain ⟨segments, hsegments, rfl⟩ := Fallible.map_eq_ok_iff.1 hof
  have hrender := renderFrom_relocate h built hsegments
  rw [Node.steps, List.map_append, List.map_singleton] at hrender
  exact Fallible.map_eq_ok_iff.2 ⟨segments, hrender, rfl⟩

end Renumbered

end Route
end EdmCommands
