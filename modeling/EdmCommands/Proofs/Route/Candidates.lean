import EdmCommands.Proofs.Schema.Built
import EdmCommands.Route.Step

/-!
# EdmCommands.Proofs.Route.Candidates

Which steps can follow a path, said of the schema alone.

* `Leg`: a step without the names of its placeholders.
* `Continues`: a leg can follow a property, leaving aside what is on the path already.
* `mem_continuations_iff`: the steps that can follow a path are those legs, as far as the path
  allows them.
* `pairwise_continuations`: those of one name belong to different derived classes and are found in
  the order of their levels.
-/

namespace EdmCommands
namespace Schema

/-- The class that a type is, if it is one. -/
def TypeRef.target : TypeRef → Option ClassId
  | .structured id => some id
  | _ => none

theorem TypeRef.target_eq_some_iff {t : TypeRef} {id : ClassId} :
    t.target = some id ↔ t = .structured id := by
  cases t <;> simp [TypeRef.target]

namespace Graph

def typeClass (g : Graph) (p : PropertyId) : Option ClassId :=
  g.properties[p.index]?.bind (·.type.target)

/-- The values of a property are entities. -/
def isNavigation (g : Graph) (p : PropertyId) : Bool :=
  (g.typeClass p).any fun target => g.classes[target.index]?.any (·.isEntity)

end Graph
end Schema

namespace Route

open Schema

/-- A property on a route, and the class that the value before it is cast to. -/
structure Leg where
  property : PropertyId
  cast : Option ClassId := none
deriving Repr, DecidableEq

/-- A step without the names of its placeholders. -/
def Step.leg (s : Step) : Leg :=
  ⟨s.property, s.cast.map (·.target)⟩

/-- A leg that starts at the values of a class: a navigation property that the class has, or one
that a class derived from it declares, with a cast to that class. -/
def Offers (g : Graph) (target : ClassId) (leg : Leg) : Prop :=
  g.isNavigation leg.property = true ∧
    match leg.cast with
    | none => ∃ owner, g.Within target owner ∧ leg.property ∈ g.ownProperties owner
    | some c => g.Derives c target ∧ leg.property ∈ g.ownProperties c

/-- A leg that can follow a property. -/
def Continues (g : Graph) (p : PropertyId) (leg : Leg) : Prop :=
  ∃ target, g.typeClass p = some target ∧ Offers g target leg

/-- Two legs of one name, declared by derived classes of which the first comes before the second,
level by level. -/
def Later (g : Graph) (target : ClassId) (a b : Leg) : Prop :=
  ∃ c d, a.cast = some c ∧ b.cast = some d ∧ [c, d].Sublist (g.below target)

variable {g : Graph} {config : Config} {target : ClassId}

/-! ## Navigation properties -/

theorem typeClass_of_propertyAt {id : PropertyId} {p : Property} (h : g.propertyAt id = .ok p) :
    g.typeClass id = p.type.target := by
  simp [Graph.typeClass, (g.propertyAt_eq_ok_iff).1 h]

theorem isEntityType_eq {id : PropertyId} {p : Property} {b : Bool} (hp : g.propertyAt id = .ok p)
    (h : g.isEntityType p.type = .ok b) : b = g.isNavigation id := by
  rw [Graph.isNavigation, typeClass_of_propertyAt hp]
  cases htype : p.type with
  | structured target =>
    rw [htype] at h
    obtain ⟨c, hc, rfl⟩ := Fallible.map_eq_ok_iff.1 h
    simp [TypeRef.target, (g.classAt_eq_ok_iff).1 hc]
  | primitive type =>
    rw [htype] at h
    cases h
    rfl
  | enum id =>
    rw [htype] at h
    cases h
    rfl

theorem navigations_eq {ids found : List PropertyId} (h : navigations g ids = .ok found) :
    found = ids.filter g.isNavigation := by
  induction ids generalizing found with
  | nil => cases h; rfl
  | cons id rest ih =>
    unfold navigations at h
    split at h
    · cases h
    rename_i p hp
    split at h
    · cases h
    rename_i isEntity hentity
    split at h
    · cases h
    rename_i others hothers
    cases h
    rw [ih hothers, List.filter_cons, isEntityType_eq hp hentity]

/-! ## Candidates -/

/-- The legs that start at a class, those without cast first. -/
def legsFrom (g : Graph) (target : ClassId) (above : List ClassId) : List Leg :=
  (((above.reverse ++ [target]).flatMap g.ownProperties).filter g.isNavigation).map
      (fun p => ⟨p, none⟩) ++
    (g.below target).flatMap fun c =>
      ((g.ownProperties c).filter g.isNavigation).map fun p => ⟨p, some c⟩

theorem isClass_of_allProperties {ids : List PropertyId} (h : g.allProperties target = .ok ids) :
    g.IsClass target := by
  cases hc : g.classAt target with
  | ok c => exact Graph.isClass_iff.2 ⟨c, hc⟩
  | error fault =>
    simp [Graph.allProperties, Graph.lineage, Graph.ancestors, hc, Except.map] at h

theorem candidates_eq (hf : g.Forest) {above : List ClassId} (hchain : g.BaseChain target above)
    {found : List (PropertyId × Option ClassId)} (h : candidates g target = .ok found) :
    found.map (fun c => ⟨c.1, c.2⟩) = legsFrom g target above := by
  unfold candidates at h
  split at h
  · cases h
  rename_i properties hproperties
  have known := isClass_of_allProperties hproperties
  rw [Graph.allProperties_eq hf known hchain] at hproperties
  cases hproperties
  split at h
  · cases h
  rename_i here hhere
  dsimp only at h
  rw [Graph.collectBelow_eq hf known (by simp)] at h
  split at h
  · cases h
  rename_i below hbelow
  obtain ⟨parts, hparts, rfl⟩ := Fallible.map_eq_ok_iff.1 hbelow
  have part : ∀ c ∈ g.below target, ∀ found,
      (g.classAt c >>= fun r => (navigations g r.properties).map fun ids =>
        ids.map fun p => (p, some c)) = .ok found →
      found = ((g.ownProperties c).filter g.isNavigation).map fun p => (p, some c) := by
    intro c _ found hfound
    obtain ⟨r, hr, hfound⟩ := Fallible.bind_eq_ok_iff.1 hfound
    obtain ⟨ids, hids, rfl⟩ := Fallible.map_eq_ok_iff.1 hfound
    rw [Graph.ownProperties_of_classAt hr, navigations_eq hids]
  cases h
  rw [Fallible.eq_map_of_mapM_eq_ok part hparts, navigations_eq hhere, legsFrom]
  simp [List.flatMap_def, List.map_flatten, Function.comp_def]

theorem mem_lineage_iff {above : List ClassId} (hchain : g.BaseChain target above)
    {owner : ClassId} : owner ∈ above.reverse ++ [target] ↔ g.Within target owner := by
  rw [List.mem_append, List.mem_reverse, List.mem_singleton, hchain.mem_iff, Graph.Within,
    or_comm, eq_comm]

theorem mem_legsFrom_iff (hf : g.Forest) {above : List ClassId}
    (hchain : g.BaseChain target above) {leg : Leg} :
    leg ∈ legsFrom g target above ↔ Offers g target leg := by
  obtain ⟨p, cast⟩ := leg
  have up : p ∈ (above.reverse ++ [target]).flatMap g.ownProperties ↔
      ∃ owner, g.Within target owner ∧ p ∈ g.ownProperties owner := by
    simp only [List.mem_flatMap, mem_lineage_iff hchain]
  simp only [legsFrom, Offers, List.mem_append (a := Leg.mk p cast), List.mem_map,
    List.mem_filter, List.mem_flatMap (l := g.below target), Graph.mem_below_iff hf, Leg.mk.injEq]
  cases cast with
  | none =>
    rw [← up]
    simp [-List.mem_flatMap, and_comm]
  | some c => simp [and_comm, and_left_comm]

/-- Legs of one name are found with different derived classes, level by level. -/
theorem pairwise_legsFrom (hf : g.Forest) (hw : g.WellOwned) {above : List ClassId}
    (hchain : g.BaseChain target above) :
    (legsFrom g target above).Pairwise fun a b =>
      g.nameOf a.property = g.nameOf b.property → Later g target a b := by
  -- a class has no two properties of one name, and shares none with the classes above it
  have own : ∀ c, (g.ownProperties c).Pairwise fun p q => g.nameOf p ≠ g.nameOf q := by
    intro c
    refine List.Pairwise.imp_of_mem ?_ (hw.own_nodup c)
    exact fun hp hq hne hname => hne (hw.own_names (.inl rfl) hp hq hname)
  have apart : ∀ {x y p q}, g.Derives y x → p ∈ g.ownProperties x → q ∈ g.ownProperties y →
      g.nameOf p ≠ g.nameOf q := by
    intro x y p q hyx hp hq hname
    obtain rfl := hw.own_names (.inr hyx) hp hq hname
    obtain rfl := hw.owner_unique hp hq
    exact hf.not_derives_self hyx
  unfold legsFrom
  rw [List.pairwise_append]
  refine ⟨?_, ?_, ?_⟩
  · rw [List.pairwise_map]
    refine List.Pairwise.filter _ ?_
    rw [List.pairwise_flatMap]
    refine ⟨fun c _ => (own c).imp fun hne heq => absurd heq hne, ?_⟩
    rw [← List.reverse_cons, List.pairwise_reverse]
    exact hchain.pairwise_derives.imp fun hyx p hp q hq heq => absurd heq (apart hyx hp hq)
  · rw [List.pairwise_flatMap]
    refine ⟨fun c _ => ?_, ?_⟩
    · rw [List.pairwise_map]
      exact ((own c).imp fun hne heq => absurd heq hne).filter _
    · rw [List.pairwise_iff_forall_sublist]
      intro c d hcd a ha b hb _
      obtain ⟨p, _, rfl⟩ := List.mem_map.1 ha
      obtain ⟨q, _, rfl⟩ := List.mem_map.1 hb
      exact ⟨c, d, rfl, rfl, hcd⟩
  · intro a ha b hb hname
    obtain ⟨p, hp, rfl⟩ := List.mem_map.1 ha
    obtain ⟨x, hx, hp⟩ := List.mem_flatMap.1 (List.mem_filter.1 hp).1
    obtain ⟨y, hy, hb⟩ := List.mem_flatMap.1 hb
    obtain ⟨q, hq, rfl⟩ := List.mem_map.1 hb
    have hy := (Graph.mem_below_iff hf).1 hy
    rw [mem_lineage_iff hchain] at hx
    have hyx : g.Derives y x := by
      rcases hx with rfl | hx
      · exact hy
      · exact hy.trans hx
    exact absurd hname (apart hyx hp (List.mem_filter.1 hq).1)

/-! ## The steps that can follow a path -/

theorem legs_nameCandidates {found : List (PropertyId × Option ClassId)} {all : List Candidate}
    (h : nameCandidates g found = .ok all) :
    all.map (fun c => Leg.mk c.property c.cast) = found.map (fun c => ⟨c.1, c.2⟩) := by
  induction found generalizing all with
  | nil => cases h; rfl
  | cons head rest ih =>
    obtain ⟨property, cast⟩ := head
    simp only [nameCandidates] at h
    split at h
    · cases h
    split at h
    · cases h
    rename_i others hothers
    cases h
    rw [List.map_cons, List.map_cons, ih hothers]

theorem name_of_nameCandidates {found : List (PropertyId × Option ClassId)} {all : List Candidate}
    (h : nameCandidates g found = .ok all) {c : Candidate} (hc : c ∈ all) :
    c.name = g.nameOf c.property := by
  obtain ⟨_, p, hp, hname⟩ := mem_of_nameCandidates h hc
  rw [← hname, Graph.nameOf_of_getElem? ((g.propertyAt_eq_ok_iff).1 hp)]

/-- The steps that can follow a path, found by their legs. -/
theorem legs_continuations {steps : List Step} {last : PropertyId} {following : List NamedStep}
    (h : continuations g config steps last = .ok following) :
    (∀ next ∈ following, next.name = g.nameOf next.step.property) ∧
      ((following = [] ∧ ∀ target, g.typeClass last = some target →
          ∃ limit, config.maxRouteDepth = some limit ∧ limit ≤ steps.length) ∨
        ∃ target found, g.typeClass last = some target ∧
          (∀ limit, config.maxRouteDepth = some limit → steps.length < limit) ∧
          candidates g target = .ok found ∧
          following.map (·.step.leg) = (found.map fun c => Leg.mk c.1 c.2).filter
            fun leg => !(steps.map (·.property)).contains leg.property) := by
  unfold continuations at h
  split at h
  · cases h
  rename_i p hp
  have hclass := typeClass_of_propertyAt hp
  split at h
  · rename_i target htype
    rw [TypeRef.target_eq_some_iff.2 htype] at hclass
    split at h
    · rename_i hdepth
      cases h
      refine ⟨by simp, .inl ⟨rfl, fun target _ => ?_⟩⟩
      simpa [Option.any_eq_true] using hdepth
    · rename_i hdepth
      split at h
      · cases h
      rename_i found hfound
      split at h
      · cases h
      rename_i all hall
      cases h
      refine ⟨?_, .inr ⟨target, found, hclass, ?_, hfound, ?_⟩⟩
      · intro next hnext
        obtain ⟨c, hc, rfl⟩ := List.mem_map.1 hnext
        exact name_of_nameCandidates hall (List.mem_filter.1 hc).1
      · intro limit hlimit
        simpa [hlimit] using hdepth
      · rw [← legs_nameCandidates hall, List.filter_map, List.map_map]
        refine List.map_congr_left fun c _ => ?_
        simp [Step.leg, Function.comp_def]
  · rename_i hne
    cases h
    refine ⟨by simp, .inl ⟨rfl, fun target htarget => ?_⟩⟩
    rw [hclass, TypeRef.target_eq_some_iff] at htarget
    exact absurd htarget (hne target)

/-- The legs that can follow a path: those that continue its last property, are not on the path
already and do not make it too long. -/
theorem mem_continuations_iff (hf : g.Forest) {steps : List Step} {last : PropertyId}
    {following : List NamedStep} (h : continuations g config steps last = .ok following)
    {leg : Leg} :
    leg ∈ following.map (·.step.leg) ↔
      Continues g last leg ∧ leg.property ∉ steps.map (·.property) ∧
        ∀ limit, config.maxRouteDepth = some limit → steps.length < limit := by
  obtain ⟨_, ⟨rfl, hnone⟩ | ⟨target, found, hclass, hdepth, hfound, hlegs⟩⟩ := legs_continuations h
  · simp only [List.map_nil, List.not_mem_nil, false_iff]
    rintro ⟨⟨target, hclass, _⟩, _, hdepth⟩
    obtain ⟨limit, hlimit, hle⟩ := hnone target hclass
    exact absurd (hdepth limit hlimit) (by omega)
  · obtain ⟨above, hchain⟩ := hf.chain target
    rw [hlegs, candidates_eq hf hchain hfound, List.mem_filter, mem_legsFrom_iff hf hchain,
      Continues, hclass]
    constructor
    · exact fun ⟨hoffers, hfresh⟩ => ⟨⟨target, rfl, hoffers⟩, by simpa using hfresh, hdepth⟩
    · rintro ⟨⟨_, heq, hoffers⟩, hfresh, _⟩
      cases heq
      exact ⟨hoffers, by simpa using hfresh⟩

/-- The legs that can follow a path and have one name are found with different derived classes,
level by level. -/
theorem pairwise_continuations (hf : g.Forest) (hw : g.WellOwned) {steps : List Step}
    {last : PropertyId} {following : List NamedStep}
    (h : continuations g config steps last = .ok following) :
    following.Pairwise fun a b =>
      a.name = b.name → ∃ target, g.typeClass last = some target ∧
        Later g target a.step.leg b.step.leg := by
  obtain ⟨hnames, ⟨rfl, _⟩ | ⟨target, found, hclass, _, hfound, hlegs⟩⟩ := legs_continuations h
  · exact .nil
  · obtain ⟨above, hchain⟩ := hf.chain target
    have sorted := (pairwise_legsFrom hf hw hchain).filter
      fun leg => !(steps.map (·.property)).contains leg.property
    rw [← candidates_eq hf hchain hfound, ← hlegs, List.pairwise_map] at sorted
    refine List.Pairwise.imp_of_mem ?_ sorted
    intro a b ha hb hlater hname
    rw [hnames a ha, hnames b hb] at hname
    exact ⟨target, hclass, hlater hname⟩

end Route
end EdmCommands
