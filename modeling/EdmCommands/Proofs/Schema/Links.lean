import EdmCommands.Schema.Build
import Mathlib.Data.List.Perm.Subperm
import Mathlib.Logic.Relation

/-!
# EdmCommands.Proofs.Schema.Links

The inheritance links of a graph, and the walk up along them. A link is stored twice: a class names
its base, and the base lists the class among its derived ones.

* `baseOf`, `derivedOf`, `ownProperties`: what a class stores, empty for a place without a class.
* `Derives`, `Within`: a class is below another one, however far; or it is that class itself.
* `BaseChain`: the bases of a class, nearest first, up to a class without base.
* `Forest`: the two copies of the links agree, and every chain of bases ends.
* `ancestors_eq`, `leadsTo_eq`: in a forest both walks up find the chain of bases.
-/

namespace EdmCommands
namespace Schema
namespace Graph

def baseOf (g : Graph) (id : ClassId) : Option ClassId :=
  g.classes[id.index]?.bind (·.base)

def derivedOf (g : Graph) (id : ClassId) : List ClassId :=
  (g.classes[id.index]?.map (·.derived)).getD []

def ownProperties (g : Graph) (id : ClassId) : List PropertyId :=
  (g.classes[id.index]?.map (·.properties)).getD []

def IsClass (g : Graph) (id : ClassId) : Prop :=
  id.index < g.classes.size

/-- The class `d` is below `b`, however far. -/
def Derives (g : Graph) : ClassId → ClassId → Prop :=
  Relation.TransGen fun d b => g.baseOf d = some b

/-- The class `d` is `b` or below it. -/
def Within (g : Graph) (d b : ClassId) : Prop :=
  d = b ∨ g.Derives d b

/-- The bases of a class, nearest first. -/
inductive BaseChain (g : Graph) : ClassId → List ClassId → Prop where
  | root {id : ClassId} : g.baseOf id = none → BaseChain g id []
  | link {id base : ClassId} {above : List ClassId} :
      g.baseOf id = some base → BaseChain g base above → BaseChain g id (base :: above)

/-- Inheritance is a forest: the base of a class lists it among its derived classes, once, and
lists no other ones; every chain of bases ends. -/
structure Forest (g : Graph) : Prop where
  mem_derivedOf_iff : ∀ {d b : ClassId}, d ∈ g.derivedOf b ↔ g.baseOf d = some b
  derived_nodup : ∀ b : ClassId, (g.derivedOf b).Nodup
  chain : ∀ id : ClassId, ∃ above, BaseChain g id above

variable {g g' : Graph} {id d b : ClassId} {above : List ClassId}

theorem isClass_iff : g.IsClass id ↔ ∃ c, g.classAt id = .ok c := by
  simp only [classAt_eq_ok_iff, IsClass]
  constructor
  · exact fun h => ⟨g.classes[id.index], Array.getElem?_eq_getElem h⟩
  · rintro ⟨c, h⟩
    exact (Array.getElem?_eq_some_iff.1 h).1

theorem isClass_of_baseOf (h : g.baseOf d = some b) : g.IsClass d := by
  unfold baseOf at h
  cases hc : g.classes[d.index]? with
  | none => simp [hc] at h
  | some c => exact (Array.getElem?_eq_some_iff.1 hc).1

theorem isClass_of_mem_derivedOf (h : d ∈ g.derivedOf b) : g.IsClass b := by
  unfold derivedOf at h
  cases hc : g.classes[b.index]? with
  | none => simp [hc] at h
  | some c => exact (Array.getElem?_eq_some_iff.1 hc).1

theorem baseOf_of_classAt {c : StructuredType} (h : g.classAt id = .ok c) :
    g.baseOf id = c.base := by
  simp [baseOf, (classAt_eq_ok_iff g).1 h]

theorem derivedOf_of_classAt {c : StructuredType} (h : g.classAt id = .ok c) :
    g.derivedOf id = c.derived := by
  simp [derivedOf, (classAt_eq_ok_iff g).1 h]

theorem ownProperties_of_classAt {c : StructuredType} (h : g.classAt id = .ok c) :
    g.ownProperties id = c.properties := by
  simp [ownProperties, (classAt_eq_ok_iff g).1 h]

/-! ## Chains of bases -/

namespace BaseChain

theorem unique {other : List ClassId} (h : BaseChain g id above) (h' : BaseChain g id other) :
    above = other := by
  induction h generalizing other with
  | root hb =>
    cases h' with
    | root => rfl
    | link hb' => rw [hb] at hb'; cases hb'
  | link hb _ ih =>
    cases h' with
    | root hb' => rw [hb] at hb'; cases hb'
    | link hb' hrest => rw [hb] at hb'; cases hb'; rw [ih hrest]

theorem mem_iff (h : BaseChain g id above) : b ∈ above ↔ g.Derives id b := by
  constructor
  · intro hb
    induction h with
    | root => cases hb
    | link hbase _ ih =>
      rcases List.mem_cons.1 hb with rfl | hb
      · exact .single hbase
      · exact .head hbase (ih hb)
  · intro hd
    induction h with
    | root hbase =>
      obtain ⟨c, hc, _⟩ := Relation.TransGen.head'_iff.1 hd
      rw [hbase] at hc
      cases hc
    | link hbase _ ih =>
      obtain ⟨c, hc, hrest⟩ := Relation.TransGen.head'_iff.1 hd
      rw [hbase] at hc
      cases hc
      rcases hrest.cases_head with rfl | ⟨e, he, hrest⟩
      · exact List.mem_cons_self
      · exact List.mem_cons_of_mem _ (ih (.head' he hrest))

/-- From a base on, the chain is the chain of that base. -/
theorem of_mem (h : BaseChain g id above) (hb : b ∈ above) :
    ∃ below rest, above = below ++ b :: rest ∧ BaseChain g b rest := by
  induction h with
  | root => cases hb
  | @link id base above hbase hchain ih =>
    rcases List.mem_cons.1 hb with rfl | hb
    · exact ⟨[], above, rfl, hchain⟩
    · obtain ⟨below, rest, rfl, hrest⟩ := ih hb
      exact ⟨base :: below, rest, rfl, hrest⟩

theorem self_not_mem (h : BaseChain g id above) : id ∉ above := by
  intro hid
  obtain ⟨below, rest, heq, hrest⟩ := h.of_mem hid
  have := congrArg List.length (h.unique hrest)
  rw [heq, List.length_append, List.length_cons] at this
  omega

/-- Along a chain every class is below those that follow it. -/
theorem pairwise_derives (h : BaseChain g id above) :
    (id :: above).Pairwise fun d b => g.Derives d b := by
  induction h with
  | root => simp
  | link hbase hchain ih =>
    exact List.pairwise_cons.2 ⟨fun b hb => (BaseChain.link hbase hchain).mem_iff.1 hb, ih⟩

theorem nodup (h : BaseChain g id above) : (id :: above).Nodup := by
  induction h with
  | root => simp
  | link hbase hchain ih =>
    exact List.nodup_cons.2 ⟨(BaseChain.link hbase hchain).self_not_mem, ih⟩

theorem congr (h : BaseChain g id above) (same : ∀ x ∈ id :: above, g'.baseOf x = g.baseOf x) :
    BaseChain g' id above := by
  induction h with
  | root hbase => exact .root ((same _ List.mem_cons_self).trans hbase)
  | link hbase _ ih =>
    exact .link ((same _ List.mem_cons_self).trans hbase)
      (ih fun x hx => same x (List.mem_cons_of_mem _ hx))

end BaseChain

/-! ## Forests -/

/-- Two bases of one class are related to each other. -/
theorem derives_linear {x y : ClassId} (hx : g.Derives id x) (hy : g.Derives id y) :
    x = y ∨ g.Derives x y ∨ g.Derives y x := by
  have unique : Relator.RightUnique fun d b => g.baseOf d = some b := by
    intro d x y hx hy
    rw [hx] at hy
    exact Option.some.inj hy
  rcases Relation.ReflTransGen.total_of_right_unique unique hx.to_reflTransGen
    hy.to_reflTransGen with h | h
  · rcases Relation.reflTransGen_iff_eq_or_transGen.1 h with heq | h
    · exact .inl heq.symm
    · exact .inr (.inl h)
  · rcases Relation.reflTransGen_iff_eq_or_transGen.1 h with heq | h
    · exact .inl heq
    · exact .inr (.inr h)

theorem Within.trans {x : ClassId} (h : g.Within id x) (h' : g.Within x b) : g.Within id b := by
  rcases h with rfl | h
  · exact h'
  · rcases h' with rfl | h'
    · exact .inr h
    · exact .inr (h.trans h')

theorem Within.linear {x y : ClassId} (hx : g.Within id x) (hy : g.Within id y) :
    g.Within x y ∨ g.Within y x := by
  rcases hx with rfl | hx
  · exact .inl hy
  rcases hy with rfl | hy
  · exact .inr (.inr hx)
  rcases derives_linear hx hy with rfl | h | h
  · exact .inl (.inl rfl)
  · exact .inl (.inr h)
  · exact .inr (.inr h)

/-- Different places have different indices, so distinct classes are no more than there are. -/
theorem length_le_of_nodup {ids : List ClassId} (nodup : ids.Nodup)
    (known : ∀ id ∈ ids, g.IsClass id) : ids.length ≤ g.classes.size := by
  have inj : (ids.map (·.index)).Nodup := by
    refine List.pairwise_map.2 (nodup.imp fun {x y} hne heq => hne ?_)
    cases x
    cases y
    exact congrArg ClassId.mk heq
  have sub : ids.map (·.index) ⊆ List.range g.classes.size := by
    intro i hi
    obtain ⟨id, hid, rfl⟩ := List.mem_map.1 hi
    exact List.mem_range.2 (known id hid)
  have := (List.Nodup.subperm inj sub).length_le
  rwa [List.length_map, List.length_range] at this

namespace Forest

theorem isClass_base (hf : g.Forest) (h : g.baseOf d = some b) : g.IsClass b :=
  isClass_of_mem_derivedOf (hf.mem_derivedOf_iff.2 h)

theorem not_derives_self (hf : g.Forest) : ¬ g.Derives id id := by
  obtain ⟨above, h⟩ := hf.chain id
  exact fun hd => h.self_not_mem (h.mem_iff.2 hd)

theorem isClass_of_derives (hf : g.Forest) (h : g.Derives d b) : g.IsClass d ∧ g.IsClass b := by
  constructor
  · obtain ⟨c, hc, _⟩ := Relation.TransGen.head'_iff.1 h
    exact isClass_of_baseOf hc
  · obtain ⟨c, _, hc⟩ := Relation.TransGen.tail'_iff.1 h
    exact hf.isClass_base hc

theorem length_lt (hf : g.Forest) (known : g.IsClass id) (h : BaseChain g id above) :
    above.length < g.classes.size := by
  refine length_le_of_nodup h.nodup fun x hx => ?_
  rcases List.mem_cons.1 hx with rfl | hx
  · exact known
  · exact (hf.isClass_of_derives (h.mem_iff.1 hx)).2

/-- The conditions on a forest speak of the links only. -/
theorem congr (hf : g.Forest) (hbase : g'.baseOf = g.baseOf)
    (hderived : g'.derivedOf = g.derivedOf) :
    g'.Forest where
  mem_derivedOf_iff := by
    intro d b
    rw [hbase, hderived]
    exact hf.mem_derivedOf_iff
  derived_nodup b := by
    rw [hderived]
    exact hf.derived_nodup b
  chain id := by
    obtain ⟨above, h⟩ := hf.chain id
    exact ⟨above, h.congr fun x _ => congrFun hbase x⟩

end Forest

/-! ## The walks up -/

theorem climb_eq {start : ClassId} {fuel : Nat} {done : List ClassId} (hf : g.Forest)
    (h : BaseChain g id above) (known : g.IsClass id) (fuel_le : above.length ≤ fuel)
    (nodup : (start :: (done ++ above)).Nodup) :
    g.climb start fuel done (g.baseOf id) = .ok (done ++ above) := by
  induction h generalizing fuel done with
  | root hbase =>
    rw [hbase]
    simp [climb]
  | @link id base above hbase _ ih =>
    rw [hbase]
    cases fuel with
    | zero => simp at fuel_le
    | succ fuel =>
      have hknown := hf.isClass_base hbase
      obtain ⟨c, hc⟩ := isClass_iff.1 hknown
      have fresh : ¬ (base = start ∨ base ∈ done) := by
        rintro (rfl | hmem)
        · simp at nodup
        · have := (List.nodup_append.1 (List.nodup_cons.1 nodup).2).2.2
          exact this base hmem base List.mem_cons_self rfl
      have hassoc : done ++ base :: above = (done ++ [base]) ++ above := by simp
      rw [climb, if_neg fresh, hc]
      simp only
      rw [← baseOf_of_classAt hc, hassoc]
      refine ih hknown (by simpa using fuel_le) ?_
      rwa [← hassoc]

/-- In a forest the walk up finds the chain of bases. -/
theorem ancestors_eq (hf : g.Forest) (known : g.IsClass id) (h : BaseChain g id above) :
    g.ancestors id = .ok above := by
  obtain ⟨c, hc⟩ := isClass_iff.1 known
  have hlen := hf.length_lt known h
  unfold ancestors
  rw [hc]
  simp only
  rw [← baseOf_of_classAt hc]
  rw [← List.nil_append above]
  exact climb_eq hf h known (by omega) h.nodup

theorem mem_ancestors_iff (hf : g.Forest) (h : g.ancestors d = .ok above) :
    b ∈ above ↔ g.Derives d b := by
  have known : g.IsClass d := by
    cases hc : g.classAt d with
    | ok c => exact isClass_iff.2 ⟨c, hc⟩
    | error fault => simp [ancestors, hc] at h
  obtain ⟨chain, hchain⟩ := hf.chain d
  rw [ancestors_eq hf known hchain] at h
  cases h
  exact hchain.mem_iff

theorem leadsTo_eq {goal : ClassId} {fuel : Nat} (h : BaseChain g id above)
    (fuel_le : above.length ≤ fuel) :
    g.leadsTo goal fuel (some id) = decide (goal ∈ id :: above) := by
  induction h generalizing fuel with
  | @root id hbase =>
    cases fuel with
    | zero => simp [leadsTo, beq_eq_decide, eq_comm]
    | succ fuel =>
      by_cases heq : id = goal
      · simp [leadsTo, heq]
      · cases hc : g.classes[id.index]? with
        | none => simp [leadsTo, heq, hc, Ne.symm heq]
        | some c =>
          have : c.base = none := by simpa [baseOf, hc] using hbase
          simp [leadsTo, heq, hc, this, Ne.symm heq]
  | @link id base above hbase _ ih =>
    cases fuel with
    | zero => simp at fuel_le
    | succ fuel =>
      by_cases heq : id = goal
      · simp [leadsTo, heq]
      · cases hc : g.classes[id.index]? with
        | none => simp [baseOf, hc] at hbase
        | some c =>
          have : c.base = some base := by simpa [baseOf, hc] using hbase
          simp [leadsTo, heq, hc, this, Ne.symm heq, ih (by simpa using fuel_le)]

end Graph
end Schema
end EdmCommands
