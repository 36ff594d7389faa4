import EdmCommands.Proofs.Fallible
import EdmCommands.Proofs.Schema.Links
import Mathlib.Data.List.Nodup

/-!
# EdmCommands.Proofs.Schema.BreadthFirst

The walks down from a class. In a forest the classes below a class lie in levels, and a walk that
keeps a queue meets them level by level.

* `level`, `below`: the classes a number of links below one, and all of them.
* `Bfs`: the order in which a queue of classes is worked off; it says nothing of bounds or of
  classes met before.
* `mem_below_iff`, `nodup_below`: the classes below are the derived ones, each once.
* `bfs_below`: the levels are the order of the queue.
* `walkDown_eq`, `descendants_eq`, `allProperties_eq`: what the walks of the schema graph answer.
-/

namespace EdmCommands
namespace Schema
namespace Graph

/-- The classes that are `n` links below a class, in the order of the lists of derived classes. -/
def level (g : Graph) (id : ClassId) : Nat → List ClassId
  | 0 => [id]
  | n + 1 => (g.level id n).flatMap g.derivedOf

/-- The classes below a class, level by level. -/
def below (g : Graph) (id : ClassId) : List ClassId :=
  (List.range g.classes.size).flatMap fun n => g.level id (n + 1)

/-- The order in which a queue of classes is worked off, where each class puts the ones derived
from it at the end of the queue. -/
inductive Bfs (g : Graph) : List ClassId → List ClassId → Prop where
  | done : Bfs g [] []
  | visit {id : ClassId} {queue order : List ClassId} :
      Bfs g (queue ++ g.derivedOf id) order → Bfs g (id :: queue) (id :: order)

variable {g : Graph} {id d b : ClassId} {above : List ClassId}

/-! ## Levels -/

theorem mem_level_iff (hf : g.Forest) {n : Nat} (h : BaseChain g d above) :
    d ∈ g.level b n ↔ (d :: above)[n]? = some b := by
  induction n generalizing d above with
  | zero => simp [level]
  | succ n ih =>
    simp only [level, List.mem_flatMap, hf.mem_derivedOf_iff, List.getElem?_cons_succ]
    cases h with
    | root hbase => simp [hbase]
    | link hbase hrest =>
      rw [← ih hrest]
      constructor
      · rintro ⟨p, hp, hd⟩
        rw [hbase] at hd
        cases hd
        exact hp
      · exact fun hp => ⟨_, hp, hbase⟩

theorem nodup_level (hf : g.Forest) (n : Nat) : (g.level b n).Nodup := by
  induction n with
  | zero => simp [level]
  | succ n ih =>
    refine List.nodup_flatMap.2 ⟨fun p _ => hf.derived_nodup p, ih.imp fun {p q} hne => ?_⟩
    intro d hp hq
    rw [hf.mem_derivedOf_iff] at hp hq
    rw [hp] at hq
    exact hne (Option.some.inj hq)

theorem level_unique (hf : g.Forest) {m n : Nat} (hm : d ∈ g.level b m) (hn : d ∈ g.level b n) :
    m = n := by
  obtain ⟨above, h⟩ := hf.chain d
  rw [mem_level_iff hf h] at hm hn
  have hlt : m < (d :: above).length := (List.getElem?_eq_some_iff.1 hm).1
  exact (List.getElem?_inj hlt h.nodup).1 (hm.trans hn.symm)

theorem exists_level_iff (hf : g.Forest) :
    (∃ n, d ∈ g.level b (n + 1)) ↔ g.Derives d b := by
  obtain ⟨above, h⟩ := hf.chain d
  simp only [mem_level_iff hf h, List.getElem?_cons_succ, ← List.mem_iff_getElem?]
  exact h.mem_iff

theorem lt_size_of_mem_level (hf : g.Forest) {n : Nat} (h : d ∈ g.level b (n + 1)) :
    n + 1 < g.classes.size := by
  obtain ⟨above, hchain⟩ := hf.chain d
  have known := (hf.isClass_of_derives ((exists_level_iff hf).1 ⟨n, h⟩)).1
  rw [mem_level_iff hf hchain, List.getElem?_cons_succ] at h
  have := (List.getElem?_eq_some_iff.1 h).1
  have := hf.length_lt known hchain
  omega

theorem mem_below_iff (hf : g.Forest) : d ∈ g.below b ↔ g.Derives d b := by
  rw [← exists_level_iff hf]
  simp only [below, List.mem_flatMap, List.mem_range]
  constructor
  · rintro ⟨n, _, h⟩
    exact ⟨n, h⟩
  · rintro ⟨n, h⟩
    exact ⟨n, by have := lt_size_of_mem_level hf h; omega, h⟩

theorem nodup_below (hf : g.Forest) : (g.below b).Nodup := by
  refine List.nodup_flatMap.2 ⟨fun n _ => nodup_level hf _, ?_⟩
  refine List.nodup_range.imp fun {m n} hne => ?_
  intro d hm hn
  have := level_unique hf hm hn
  omega

theorem self_not_mem_below (hf : g.Forest) : b ∉ g.below b :=
  fun h => hf.not_derives_self ((mem_below_iff hf).1 h)

theorem isClass_of_mem_below (hf : g.Forest) (h : d ∈ g.below b) : g.IsClass d :=
  (hf.isClass_of_derives ((mem_below_iff hf).1 h)).1

/-! ## The order of a queue -/

namespace Bfs

/-- A part of the queue is worked off before what it puts behind the rest. -/
theorem append {front back order : List ClassId}
    (h : Bfs g (back ++ front.flatMap g.derivedOf) order) :
    Bfs g (front ++ back) (front ++ order) := by
  induction front generalizing back with
  | nil => simpa using h
  | cons x front ih =>
    have rest : Bfs g (back ++ g.derivedOf x ++ front.flatMap g.derivedOf) order := by
      rwa [List.append_assoc, ← List.flatMap_cons]
    have := ih rest
    rw [← List.append_assoc] at this
    exact .visit this

theorem of_levels {n k : Nat} (last : g.level b (n + k) = []) :
    Bfs g (g.level b n) ((List.range k).flatMap fun i => g.level b (n + i)) := by
  induction k generalizing n with
  | zero =>
    rw [Nat.add_zero] at last
    rw [last]
    exact .done
  | succ k ih =>
    have rest := ih (n := n + 1) (by rw [← last]; congr 1; omega)
    have : Bfs g (g.level b n ++ []) _ := append rest
    rw [List.append_nil] at this
    have shift : ∀ i, n + 1 + i = n + (i + 1) := by omega
    rw [List.range_succ_eq_map, List.flatMap_cons, List.flatMap_map]
    simpa only [Nat.add_zero, shift, Nat.succ_eq_add_one] using this

end Bfs

theorem level_past (hf : g.Forest) {n : Nat} (h : g.classes.size ≤ n + 1) :
    g.level b (n + 1) = [] := by
  rw [List.eq_nil_iff_forall_not_mem]
  intro d hd
  have := lt_size_of_mem_level hf hd
  omega

theorem bfs_derivedOf (hf : g.Forest) : Bfs g (g.derivedOf b) (g.below b) := by
  have last : g.level b (1 + g.classes.size) = [] := by
    rw [Nat.add_comm]
    exact level_past hf (by omega)
  have h := Bfs.of_levels last
  simp only [level, List.flatMap_cons, List.flatMap_nil, List.append_nil, Nat.add_comm 1] at h
  exact h

theorem bfs_below (hf : g.Forest) : Bfs g [b] (b :: g.below b) :=
  .visit (by simpa using bfs_derivedOf hf)

/-! ## The walks down -/

/-- In a forest a walk down meets the classes in the order of its queue. -/
theorem walkDown_eq {α : Type} {visit : ClassId → StructuredType → Except Fault (List α)}
    {fuel : Nat} {seen queue order : List ClassId} (h : Bfs g queue order)
    (known : ∀ x ∈ order, g.IsClass x) (nodup : order.Nodup) (unseen : ∀ x ∈ order, x ∉ seen)
    (fuel_le : order.length ≤ fuel) :
    g.walkDown visit fuel seen queue =
      (order.mapM fun x => g.classAt x >>= visit x).map List.flatten := by
  induction h generalizing fuel seen with
  | done => cases fuel <;> rfl
  | @visit id queue order _ ih =>
    cases fuel with
    | zero => simp at fuel_le
    | succ fuel =>
      obtain ⟨hid, hnodup⟩ := List.nodup_cons.1 nodup
      obtain ⟨c, hc⟩ := isClass_iff.1 (known id List.mem_cons_self)
      have unseen' : ∀ x ∈ order, x ∉ id :: seen := by
        intro x hx hmem
        rcases List.mem_cons.1 hmem with rfl | hmem
        · exact hid hx
        · exact unseen x (List.mem_cons_of_mem _ hx) hmem
      have rest := ih (fun x hx => known x (List.mem_cons_of_mem _ hx)) hnodup unseen'
        (by simpa using fuel_le)
      rw [derivedOf_of_classAt hc] at rest
      have head : (g.classAt id >>= visit id) = visit id c := by rw [hc]; rfl
      rw [walkDown, if_neg (unseen id List.mem_cons_self), List.mapM_cons, head, hc]
      dsimp only
      rw [rest]
      cases visit id c with
      | error fault => rfl
      | ok found => cases order.mapM fun x => g.classAt x >>= visit x <;> rfl

theorem length_below_le (hf : g.Forest) : (g.below b).length ≤ g.linkCount := by
  have sub : g.below b ⊆ g.classes.toList.flatMap (·.derived) := by
    intro d hd
    obtain ⟨p, hp, _⟩ := Relation.TransGen.head'_iff.1 ((mem_below_iff hf).1 hd)
    rw [← hf.mem_derivedOf_iff] at hp
    obtain ⟨c, hc⟩ := isClass_iff.1 (isClass_of_mem_derivedOf hp)
    rw [derivedOf_of_classAt hc] at hp
    rw [List.mem_flatMap]
    refine ⟨c, ?_, hp⟩
    exact Array.mem_toList_iff.2 (Array.mem_of_getElem? ((classAt_eq_ok_iff g).1 hc))
  exact (List.Nodup.subperm (nodup_below hf) sub).length_le

/-- What a visit finds below a class, in the order of the levels. -/
theorem collectBelow_eq {α : Type} {visit : ClassId → StructuredType → Except Fault (List α)}
    {seen : List ClassId} (hf : g.Forest) (known : g.IsClass b)
    (unseen : ∀ x ∈ g.below b, x ∉ seen) :
    g.collectBelow visit b seen =
      ((g.below b).mapM fun x => g.classAt x >>= visit x).map List.flatten := by
  obtain ⟨c, hc⟩ := isClass_iff.1 known
  have hlen := length_below_le (b := b) hf
  unfold collectBelow
  rw [hc]
  simp only
  rw [← derivedOf_of_classAt hc]
  exact walkDown_eq (bfs_derivedOf hf) (fun x hx => isClass_of_mem_below hf hx) (nodup_below hf)
    unseen (by omega)

theorem descendants_eq (hf : g.Forest) (known : g.IsClass b) :
    g.descendants b = .ok (g.below b) := by
  have unseen : ∀ x ∈ g.below b, x ∉ [b] := by
    rintro x hx hmem
    rw [List.mem_singleton] at hmem
    exact self_not_mem_below hf (hmem ▸ hx)
  have found : ∀ x ∈ g.below b, (g.classAt x >>= fun _ => .ok [x]) = .ok [x] := by
    intro x hx
    obtain ⟨c, hc⟩ := isClass_iff.1 (isClass_of_mem_below hf hx)
    rw [hc]
    rfl
  unfold descendants
  rw [collectBelow_eq hf known unseen, Fallible.mapM_eq_ok_map found]
  simp [Except.map, ← List.flatMap_def]

/-! ## Members along a chain -/

/-- The parts of classes that are there, in order. -/
theorem gather_eq {α : Type} {part : StructuredType → List α} {ids : List ClassId}
    (known : ∀ id ∈ ids, g.IsClass id) :
    g.gather part ids =
      .ok (ids.flatMap fun id => (g.classes[id.index]?.map part).getD []) := by
  induction ids with
  | nil => rfl
  | cons id rest ih =>
    obtain ⟨c, hc⟩ := isClass_iff.1 (known id List.mem_cons_self)
    rw [gather, hc, ih fun x hx => known x (List.mem_cons_of_mem _ hx)]
    simp [(classAt_eq_ok_iff g).1 hc]

theorem gather_properties_eq {ids : List ClassId} (known : ∀ id ∈ ids, g.IsClass id) :
    g.gather (·.properties) ids = .ok (ids.flatMap g.ownProperties) :=
  gather_eq known

theorem isClass_of_mem_chain (hf : g.Forest) (known : g.IsClass id) (h : BaseChain g id above) :
    ∀ x ∈ id :: above, g.IsClass x := by
  intro x hx
  rcases List.mem_cons.1 hx with rfl | hx
  · exact known
  · exact (hf.isClass_of_derives (h.mem_iff.1 hx)).2

theorem allProperties_eq (hf : g.Forest) (known : g.IsClass id) (h : BaseChain g id above) :
    g.allProperties id = .ok ((above.reverse ++ [id]).flatMap g.ownProperties) := by
  have lineage : g.lineage id = .ok (above.reverse ++ [id]) := by
    simp [Graph.lineage, ancestors_eq hf known h, Except.map]
  unfold allProperties
  rw [lineage]
  refine gather_properties_eq fun x hx => isClass_of_mem_chain hf known h x ?_
  simpa [or_comm] using hx

/-- The properties of a class are those that it or one of its bases declares. -/
theorem mem_allProperties_iff (hf : g.Forest) {ids : List PropertyId}
    (h : g.allProperties d = .ok ids) {p : PropertyId} :
    p ∈ ids ↔ ∃ owner, g.Within d owner ∧ p ∈ g.ownProperties owner := by
  have known : g.IsClass d := by
    cases hc : g.classAt d with
    | ok c => exact isClass_iff.2 ⟨c, hc⟩
    | error fault => simp [allProperties, Graph.lineage, ancestors, hc, Except.map] at h
  obtain ⟨above, hchain⟩ := hf.chain d
  rw [allProperties_eq hf known hchain] at h
  cases h
  simp only [List.mem_flatMap, List.mem_append, List.mem_reverse, List.mem_singleton,
    hchain.mem_iff, Within]
  refine exists_congr fun owner => and_congr_left fun _ => ?_
  rw [or_comm, eq_comm]

end Graph
end Schema
end EdmCommands
