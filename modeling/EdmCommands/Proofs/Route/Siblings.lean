import EdmCommands.Proofs.Route.Parts
import EdmCommands.Proofs.Route.Routes

/-!
# EdmCommands.Proofs.Route.Siblings

Where two routes of a tree part. Neither is found twice, so one continues the other or they go
different ways behind a path that they share, and the ways are told apart by their names or by the
placeholders of their casts.

* `toldApart_continuations`: steps of one name behind a path are casts named after their classes.
* `Parted`: one route continues the other, or both continue routes that are told apart.
* `parted_of_explores`, `marks_of_explores`: one lemma about the search for each.
* `parted_of_build`, `marks_of_build`: so for the tree of a schema.
-/

namespace EdmCommands
namespace Route

open Schema

/-- The first route is a part of the second from the start on, or both continue routes of the list
that part behind a path that they share. -/
def Parted (g : Graph) (nodes : List Node) (n m : Node) : Prop :=
  (n.steps <+: m.steps ∧ n.steps ≠ m.steps) ∨
    ∃ top ∈ nodes, ∃ other ∈ nodes, top.before = other.before ∧
      ToldApart g top.before top.step other.step ∧
      top.steps <+: n.steps ∧ other.steps <+: m.steps

/-- What the text of a path is made of is there, and its entity collections are marked. -/
structure Addressed (g : Graph) (ids : List Nat) (steps : List Step) : Prop where
  marks : Marks g ids 0 steps
  supplied : ∀ step ∈ steps, Supplied g step

variable {g : Graph} {config : Config}

/-! ## Ways on from one path -/

theorem ToldApart.symm {front : List Step} {a b : Step} (h : ToldApart g front a b) :
    ToldApart g front b a := by
  intro hname
  obtain ⟨hne, c, d, hcd, ha, hb⟩ := h hname.symm
  exact ⟨hne, d, c, hcd.symm, hb, ha⟩

theorem ToldApart.ne {front : List Step} {a b : Step} (h : ToldApart g front a b) : a ≠ b := by
  rintro rfl
  obtain ⟨_, c, d, hcd, hc, hd⟩ := h rfl
  rw [hc] at hd
  cases hd
  exact hcd rfl

/-- A name that two different classes declare is declared twice. -/
theorem isDeclaredTwice_of_mem {all : List Candidate} {a b : Candidate} {c d : ClassId}
    (ha : a ∈ all) (hb : b ∈ all) (hname : a.name = b.name) (hc : a.cast = some c)
    (hd : b.cast = some d) (hne : c ≠ d) : isDeclaredTwice all a.name = true := by
  unfold isDeclaredTwice
  dsimp only
  have hmem : ∀ x ∈ [c, d], x ∈ (all.filterMap fun e =>
      if e.name == a.name then e.cast else none).eraseDups := by
    intro x hx
    rw [List.mem_eraseDups, List.mem_filterMap]
    rcases List.mem_pair.1 hx with rfl | rfl
    · exact ⟨a, ha, by simp [hc]⟩
    · exact ⟨b, hb, by simp [hname, hd]⟩
  have nodup : [c, d].Nodup := by simpa using hne
  exact decide_eq_true (nodup.subperm hmem).length_le

/-- The steps behind a path are named after classes where their name is declared twice. -/
theorem exists_candidate_of_mem_continuations {steps : List Step} {last : PropertyId}
    {following : List NamedStep} (h : continuations g config steps last = .ok following) :
    ∃ all : List Candidate, ∀ next ∈ following, ∃ c ∈ all, next.name = c.name ∧
      next.step.cast = c.cast.map fun target => ⟨target, isDeclaredTwice all c.name⟩ := by
  unfold continuations at h
  split at h
  · cases h
  split at h
  · split at h
    · cases h
      exact ⟨[], by simp⟩
    split at h
    · cases h
    split at h
    · cases h
    rename_i all _
    cases h
    refine ⟨all, fun next hnext => ?_⟩
    obtain ⟨c, hc, rfl⟩ := List.mem_map.1 hnext
    exact ⟨c, (List.mem_filter.1 hc).1, rfl, rfl⟩
  · cases h
    exact ⟨[], by simp⟩

theorem toldApart_continuations (hf : g.Forest) (hw : g.WellOwned) {steps : List Step}
    {last : PropertyId} {following : List NamedStep} (hne : steps ≠ [])
    (h : continuations g config steps last = .ok following) :
    (stackOrder following).reverse.Pairwise (ToldApart g steps) := by
  obtain ⟨all, hall⟩ := exists_candidate_of_mem_continuations h
  have hnames := (legs_continuations h).1
  have found : (following.map (·.step)).Pairwise (ToldApart g steps) := by
    rw [List.pairwise_map]
    refine List.Pairwise.imp_of_mem ?_ (pairwise_continuations hf hw h)
    intro a b ha hb hlater hname
    rw [← hnames a ha, ← hnames b hb] at hname
    obtain ⟨target, _, c, d, hc, hd, hcd⟩ := hlater hname
    have hdiffer : c ≠ d := by
      simpa using hcd.nodup (Graph.nodup_below hf)
    obtain ⟨x, hx, hxname, hxcast⟩ := hall a ha
    obtain ⟨y, hy, hyname, hycast⟩ := hall b hb
    rw [hxname, hyname] at hname
    simp only [Step.leg, hxcast, Option.map_map, Function.comp_def, Option.map_id'] at hc
    simp only [Step.leg, hycast, Option.map_map, Function.comp_def, Option.map_id'] at hd
    have hx_twice := isDeclaredTwice_of_mem hx hy hname hc hd hdiffer
    have hy_twice := isDeclaredTwice_of_mem hy hx hname.symm hd hc hdiffer.symm
    rw [hx_twice, hc] at hxcast
    rw [hy_twice, hd] at hycast
    exact ⟨hne, c, d, hdiffer, hxcast, hycast⟩
  refine ((List.reverse_perm _).trans (stackOrder_perm following)).symm.pairwise found ?_
  exact fun h => h.symm

theorem toldApart_roots (hw : g.WellOwned) {steps : List NamedStep}
    (h : Tree.roots g = .ok steps) :
    (stackOrder steps).reverse.Pairwise (ToldApart g []) := by
  refine (pairwise_roots hw h).imp fun hbefore hname => ?_
  rcases hbefore with hlt | ⟨_, _, _, hlast, _⟩
  · exact absurd (show g.nameOf _ = g.nameOf _ from hname) (String.ne_of_lt hlt)
  · cases hlast

/-! ## The entity collections of a path -/

theorem isEntitySegment_eq {p : PropertyId} {b : Bool} (h : isEntitySegment g p = .ok b) :
    b = g.isEntitySet p ∧
      (b = true → ∃ target key, g.typeClass p = some target ∧
        g.keyProperty target = .ok (some key)) := by
  unfold isEntitySegment at h
  split at h
  · cases h
  rename_i q hq
  have hclass := typeClass_of_propertyAt hq
  have hproperty := (g.propertyAt_eq_ok_iff).1 hq
  split at h
  · rename_i target htype
    rw [TypeRef.target_eq_some_iff.2 htype] at hclass
    split at h
    · cases h
    rename_i c hc
    have hset : g.isEntitySet p = (q.isCollection && c.isEntity) := by
      simp [Graph.isEntitySet, Graph.isNavigation, hproperty, hclass, (g.classAt_eq_ok_iff).1 hc]
    split at h
    · rename_i hcollection
      split at h
      · cases h
      · rename_i key hkey
        cases h
        exact ⟨by rw [hset, hcollection], fun _ => ⟨target, key, hclass, hkey⟩⟩
      · split at h <;> cases h
    · rename_i hcollection
      cases h
      exact ⟨by rw [hset]; simpa using hcollection, by simp⟩
  · rename_i hne
    cases h
    have hnone : q.type.target = none := by
      rw [Option.eq_none_iff_forall_ne_some]
      exact fun target htarget => hne target (TypeRef.target_eq_some_iff.1 htarget)
    refine ⟨?_, by simp⟩
    simp [Graph.isEntitySet, Graph.isNavigation, hclass, hnone]

theorem Marks.append {ids : List Nat} {before : List Step} (h : Marks g ids 0 before)
    (step : Step) :
    Marks g (if g.isEntitySet step.property then ids ++ [before.length] else ids) 0
      (before ++ [step]) := by
  intro i
  have hi := h i
  rw [Nat.zero_add] at hi ⊢
  rcases Nat.lt_trichotomy i before.length with hlt | rfl | hgt
  · rw [List.getElem?_append_left hlt, ← hi]
    have hne : i ≠ before.length := Nat.ne_of_lt hlt
    split <;> simp [hne]
  · rw [List.getElem?_eq_none (Nat.le_refl _)] at hi
    rw [List.getElem?_append_right (Nat.le_refl _), Nat.sub_self]
    split <;> simp_all
  · have hout : (before ++ [step])[i]? = none := by
      rw [List.getElem?_eq_none_iff, List.length_append, List.length_singleton]
      omega
    rw [List.getElem?_eq_none (Nat.le_of_lt hgt)] at hi
    have hne : i ≠ before.length := Nat.ne_of_gt hgt
    rw [hout]
    split <;> simp_all

theorem known_of_pathNames {steps : List Step} {names : List String}
    (h : pathNames g steps = .ok names) :
    ∀ step ∈ steps, ∃ p, g.propertyAt step.property = .ok p := by
  induction steps generalizing names with
  | nil => simp
  | cons step rest ih =>
    unfold pathNames at h
    split at h
    · cases h
    rename_i p hp
    split at h
    · cases h
    rename_i others hothers
    rw [List.forall_mem_cons]
    exact ⟨⟨p, hp⟩, ih hothers⟩

theorem Addressed.accept {before : List Step} {step : Step} {idSegments ids : List Nat}
    (h : Addressed g idSegments before)
    (cast : ∀ c ∈ step.cast, ∃ target, g.classAt c.target = .ok target)
    (haccept : accept g config before idSegments step = .ok (some ids)) :
    Addressed g ids (before ++ [step]) := by
  unfold Route.accept at haccept
  split at haccept
  · cases haccept
  rename_i names hnames
  have known := known_of_pathNames hnames step (by simp)
  split at haccept
  · cases haccept
  have supplied : ∀ (b : Bool), isEntitySegment g step.property = .ok b →
      b = g.isEntitySet step.property ∧ ∀ s ∈ before ++ [step], Supplied g s := by
    intro b hset
    obtain ⟨hb, hkey⟩ := isEntitySegment_eq hset
    rw [List.forall_mem_append, List.forall_mem_singleton]
    exact ⟨hb, h.supplied, known, by rwa [← hb], cast⟩
  have marks := h.marks.append step
  split at haccept
  · cases haccept
  · rename_i hset
    cases haccept
    obtain ⟨hb, hsupplied⟩ := supplied _ hset
    rw [← hb, if_pos rfl] at marks
    exact ⟨marks, hsupplied⟩
  · rename_i hset
    cases haccept
    obtain ⟨hb, hsupplied⟩ := supplied _ hset
    rw [← hb, if_neg (by simp)] at marks
    exact ⟨marks, hsupplied⟩

/-- Steps that follow a path are cast to classes that are there. -/
theorem cast_of_mem_continuations (hf : g.Forest) {steps : List Step} {last : PropertyId}
    {following : List NamedStep} (h : continuations g config steps last = .ok following)
    {step : Step} (hstep : step ∈ (stackOrder following).reverse) :
    ∀ c ∈ step.cast, ∃ target, g.classAt c.target = .ok target := by
  intro c hc
  have hleg : step.leg ∈ following.map (·.step.leg) :=
    mem_legs_reverse_stackOrder.1 (List.mem_map_of_mem hstep)
  obtain ⟨⟨target, _, _, hoffers⟩, _⟩ := (mem_continuations_iff hf h).1 hleg
  have hcast : step.leg.cast = some c.target := by simp [Step.leg, Option.mem_def.1 hc]
  rw [hcast] at hoffers
  exact Graph.isClass_iff.1 (hf.isClass_of_derives hoffers.1).1

/-! ## The search -/

theorem addressed_of_explores (hf : g.Forest) {parent : Option NodeId} {before : List Step}
    {idSegments : List Nat} {next : Nat} {steps : List Step} {nodes : List Node}
    (h : Explores g config parent before idSegments next steps nodes)
    (path : Addressed g idSegments before)
    (casts : ∀ step ∈ steps, ∀ c ∈ step.cast, ∃ target, g.classAt c.target = .ok target) :
    ∀ n ∈ nodes, Addressed g n.idSegments n.steps := by
  induction h with
  | done => simp
  | skip _ _ ih =>
    rw [List.forall_mem_cons] at casts
    exact ih path casts.2
  | visit hfollow _ _ ihb iho =>
    rw [List.forall_mem_cons] at casts
    obtain ⟨_, haccept, hcont⟩ := follow_eq_some hfollow
    have here := path.accept casts.1 haccept
    rw [List.forall_mem_cons, List.forall_mem_append]
    exact ⟨here, ihb here fun s hs => cast_of_mem_continuations hf hcont hs, iho path casts.2⟩

/-- All that is found lies at or below a step of the search, which is found too. -/
theorem exists_top_of_explores {parent : Option NodeId} {before : List Step}
    {idSegments : List Nat} {next : Nat} {steps : List Step} {nodes : List Node}
    (h : Explores g config parent before idSegments next steps nodes) :
    ∀ n ∈ nodes, ∃ top ∈ nodes, top.before = before ∧ top.step ∈ steps ∧ top.steps <+: n.steps := by
  induction h with
  | done => simp
  | skip _ _ ih =>
    intro n hn
    obtain ⟨top, htop, hbefore, hstep, hstart⟩ := ih n hn
    exact ⟨top, htop, hbefore, List.mem_cons_of_mem _ hstep, hstart⟩
  | @visit parent before idSegments ids next step steps following below others hfollow _ _ ihb
      iho =>
    intro n hn
    rcases List.mem_cons.1 hn with rfl | hn
    · exact ⟨_, List.mem_cons_self, rfl, List.mem_cons_self, List.prefix_rfl⟩
    rcases List.mem_append.1 hn with hn | hn
    · obtain ⟨top, _, hbefore, _, hstart⟩ := ihb n hn
      refine ⟨_, List.mem_cons_self, rfl, List.mem_cons_self, List.IsPrefix.trans ?_ hstart⟩
      rw [Node.steps, Node.steps, hbefore]
      exact List.prefix_append _ _
    · obtain ⟨top, htop, hbefore, hstep, hstart⟩ := iho n hn
      exact ⟨top, List.mem_cons_of_mem _ (List.mem_append_right _ htop), hbefore,
        List.mem_cons_of_mem _ hstep, hstart⟩

theorem Parted.mono {nodes more : List Node} {n m : Node} (h : Parted g nodes n m)
    (hmore : nodes ⊆ more) : Parted g more n m := by
  rcases h with h | ⟨top, htop, other, hother, h⟩
  · exact .inl h
  · exact .inr ⟨top, hmore htop, other, hmore hother, h⟩

/-- Routes that the search finds part, where the steps that it starts from are told apart. -/
theorem parted_of_explores (hf : g.Forest) (hw : g.WellOwned) {parent : Option NodeId}
    {before : List Step} {idSegments : List Nat} {next : Nat} {steps : List Step}
    {nodes : List Node} (h : Explores g config parent before idSegments next steps nodes)
    (apart : steps.Pairwise (ToldApart g before)) : nodes.Pairwise (Parted g nodes) := by
  induction h with
  | done => exact .nil
  | skip _ _ ih => exact ih (List.pairwise_cons.1 apart).2
  | @visit parent before idSegments ids next step steps following below others hfollow hbelow
      hothers ihb iho =>
    obtain ⟨hfirst, hrest⟩ := List.pairwise_cons.1 apart
    have hnext := toldApart_continuations hf hw (by simp) (follow_eq_some hfollow).2.2
    let here : Node := ⟨parent, before, step, ids⟩
    have hsub : below ⊆ here :: (below ++ others) := by simp
    have hsub' : others ⊆ here :: (below ++ others) := by simp
    have continues : ∀ m ∈ below, here.steps <+: m.steps ∧ here.steps ≠ m.steps := by
      intro m hm
      obtain ⟨top, _, hbefore, _, hstart⟩ := exists_top_of_explores hbelow m hm
      have hshorter : here.steps.length < top.steps.length := by
        simp [Node.steps, hbefore, here]
      refine ⟨List.IsPrefix.trans ?_ hstart, fun heq => ?_⟩
      · rw [Node.steps, Node.steps, hbefore]
        exact List.prefix_append _ _
      · have := hstart.length_le
        rw [← heq] at this
        omega
    have across : ∀ n ∈ here :: below, ∀ m ∈ others,
        Parted g (here :: (below ++ others)) n m := by
      intro n hn m hm
      have hstart : here.steps <+: n.steps := by
        rcases List.mem_cons.1 hn with rfl | hn
        · exact List.prefix_rfl
        · exact (continues n hn).1
      obtain ⟨other, hother, hbefore, hstep, hstart'⟩ := exists_top_of_explores hothers m hm
      exact .inr ⟨here, List.mem_cons_self, other, hsub' hother, hbefore.symm,
        hfirst _ hstep, hstart, hstart'⟩
    rw [← List.cons_append, List.pairwise_append, List.pairwise_cons]
    refine ⟨⟨fun m hm => .inl (continues m hm), ?_⟩, ?_, across⟩
    · exact (ihb hnext).imp fun hparted => hparted.mono hsub
    · exact (iho hrest).imp fun hparted => hparted.mono hsub'

/-! ## The tree of a schema -/

theorem parted_of_build (built : g.Built) {tree : Tree} (h : Tree.build g config = .ok tree) :
    tree.nodes.Pairwise (Parted g tree.nodes) := by
  obtain ⟨steps, hroots, hexplores⟩ := build_eq_ok_iff.1 h
  exact parted_of_explores built.forest built.wellOwned hexplores
    (toldApart_roots built.wellOwned hroots)

theorem addressed_of_build (built : g.Built) {tree : Tree} (h : Tree.build g config = .ok tree) :
    ∀ n ∈ tree.nodes, Addressed g n.idSegments n.steps := by
  obtain ⟨steps, hroots, hexplores⟩ := build_eq_ok_iff.1 h
  refine addressed_of_explores built.forest hexplores ⟨fun i => by simp, by simp⟩ ?_
  intro step hstep c hc
  have hleg := mem_legs_reverse_stackOrder.1 (List.mem_map_of_mem (f := Step.leg) hstep)
  rw [(roots_eq_ok hroots).1] at hleg
  obtain ⟨p, _, hp⟩ := List.mem_map.1 hleg
  have hcast := congrArg Leg.cast hp
  simp [Step.leg, Option.mem_def.1 hc] at hcast

/-- The last segment of a route has an identifier where its property is a collection of entities. -/
theorem terminalId_isSome_of_build (built : g.Built) {tree : Tree}
    (h : Tree.build g config = .ok tree) {n : Node} (hn : n ∈ tree.nodes) {r : Rendered}
    (hr : Rendered.ofNode g config n = .ok r) :
    r.terminalId.isSome = g.isEntitySet n.step.property := by
  obtain ⟨segments, hsegments, rfl⟩ := Fallible.map_eq_ok_iff.1 hr
  exact terminalId_of_renderFrom (addressed_of_build built h n hn).marks hsegments

end Route
end EdmCommands
