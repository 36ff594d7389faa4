import EdmCommands.Proofs.Route.Candidates
import EdmCommands.Proofs.Schema.Ownership
import EdmCommands.Proofs.Schema.Accepted

/-!
# EdmCommands.Proofs.Schema.Renumbering

Graphs that differ in the places of their properties only.

* `withProperties`: a graph with another table of properties.
* `Renumbers`: the other table has the same properties in other places, so that every class and the
  container list the same properties in another order.
* `Renumbers.keyProperty`: a class has the same key, wherever it stands.
* `renumbers_placeIn`: two tables of the same properties are such tables.
-/

namespace EdmCommands
namespace Schema
namespace Graph

/-- The graph with another table of properties. -/
def withProperties (g : Graph) (table : Array Property) : Graph :=
  { g with properties := table }

/-- The table has the properties of the graph, each at its new place. What an owner lists stays
among what it lists, and a member that is no navigation property stays where it is. -/
structure Renumbers (g : Graph) (table : Array Property) (place : PropertyId → PropertyId) :
    Prop where
  injective : Function.Injective place
  look : ∀ p, table[(place p).index]? = g.properties[p.index]?
  own : ∀ id, ((g.ownProperties id).map place).Perm (g.ownProperties id)
  fixed : ∀ id, ∀ p ∈ g.ownProperties id, g.isNavigation p = false → place p = p
  entries : (g.container.properties.map place).Perm g.container.properties

variable {g : Graph} {table : Array Property} {place : PropertyId → PropertyId} {id : ClassId}
  {p : PropertyId}

/-! ## What does not look at properties -/

section Kept

variable (g table)

@[simp] theorem classAt_withProperties : (g.withProperties table).classAt = g.classAt := rfl

@[simp] theorem isEntityType_withProperties :
    (g.withProperties table).isEntityType = g.isEntityType := rfl

@[simp] theorem parameterType_withProperties :
    (g.withProperties table).parameterType = g.parameterType := rfl

@[simp] theorem qualify_withProperties : (g.withProperties table).qualify = g.qualify := rfl

@[simp] theorem ownProperties_withProperties :
    (g.withProperties table).ownProperties = g.ownProperties := rfl

@[simp] theorem climb_withProperties : (g.withProperties table).climb = g.climb := by
  funext id fuel chain cursor
  induction fuel generalizing chain cursor with
  | zero => cases cursor <;> rfl
  | succ fuel ih => cases cursor <;> simp [climb, cycleFault, ih]

@[simp] theorem ancestors_withProperties :
    (g.withProperties table).ancestors = g.ancestors := by
  funext id
  simp only [ancestors, classAt_withProperties, climb_withProperties]
  rfl

@[simp] theorem walkDown_withProperties {α : Type}
    (visit : ClassId → StructuredType → Except Fault (List α)) :
    (g.withProperties table).walkDown visit = g.walkDown visit := by
  funext fuel seen queue
  induction fuel generalizing seen queue with
  | zero => cases queue <;> rfl
  | succ fuel ih => cases queue <;> simp only [walkDown, classAt_withProperties, ih]

@[simp] theorem collectBelow_withProperties {α : Type}
    (visit : ClassId → StructuredType → Except Fault (List α)) :
    (g.withProperties table).collectBelow visit = g.collectBelow visit := by
  funext id seen
  simp only [collectBelow, classAt_withProperties, walkDown_withProperties]
  rfl

@[simp] theorem gather_withProperties {α : Type} (part : StructuredType → List α) :
    (g.withProperties table).gather part = g.gather part := by
  funext ids
  induction ids with
  | nil => rfl
  | cons id rest ih => simp only [gather, classAt_withProperties, ih]

@[simp] theorem lineage_withProperties : (g.withProperties table).lineage = g.lineage := by
  funext id
  simp only [lineage, ancestors_withProperties]

@[simp] theorem allProperties_withProperties :
    (g.withProperties table).allProperties = g.allProperties := by
  funext id
  simp only [allProperties, lineage_withProperties, gather_withProperties]

@[simp] theorem allMethods_withProperties :
    (g.withProperties table).allMethods = g.allMethods := by
  funext id inherited
  simp only [allMethods, lineage_withProperties, gather_withProperties]

@[simp] theorem firstKey_withProperties : (g.withProperties table).firstKey = g.firstKey := by
  funext ids
  induction ids with
  | nil => rfl
  | cons id rest ih => simp only [firstKey, classAt_withProperties, ih]

@[simp] theorem keyName_withProperties : (g.withProperties table).keyName = g.keyName := by
  funext id
  simp only [keyName, classAt_withProperties, ancestors_withProperties, firstKey_withProperties]

@[simp] theorem level_withProperties (n : Nat) :
    (g.withProperties table).level id n = g.level id n := by
  induction n with
  | zero => rfl
  | succ n ih =>
    rw [level, level, ih]
    rfl

@[simp] theorem below_withProperties : (g.withProperties table).below id = g.below id := by
  simp only [below, level_withProperties]
  rfl

end Kept

theorem BaseChain.withProperties {above : List ClassId} (h : BaseChain g id above) :
    BaseChain (g.withProperties table) id above :=
  h.congr fun _ _ => rfl

theorem Forest.withProperties (hf : g.Forest) : (g.withProperties table).Forest :=
  hf.congr rfl rfl

/-! ## Properties at their new places -/

namespace Renumbers

variable (h : g.Renumbers table place)
include h

theorem propertyAt {q : Property} (hp : g.propertyAt p = .ok q) :
    (g.withProperties table).propertyAt (place p) = .ok q := by
  rw [propertyAt_eq_ok_iff] at hp ⊢
  exact (h.look p).trans hp

theorem nameOf (p : PropertyId) : (g.withProperties table).nameOf (place p) = g.nameOf p := by
  unfold Graph.nameOf
  rw [← h.look p]
  rfl

theorem isNavigation (p : PropertyId) :
    (g.withProperties table).isNavigation (place p) = g.isNavigation p := by
  unfold Graph.isNavigation typeClass
  rw [← h.look p]
  rfl

theorem exists_own (hp : p ∈ g.ownProperties id) : ∃ q ∈ g.ownProperties id, place q = p := by
  rw [← (h.own id).mem_iff] at hp
  exact List.mem_map.1 hp

/-- A class navigates along the same places. -/
theorem isNavigation_own (hp : p ∈ g.ownProperties id) :
    (g.withProperties table).isNavigation p = g.isNavigation p := by
  obtain ⟨q, hq, rfl⟩ := h.exists_own hp
  rw [h.isNavigation]
  by_cases hnav : g.isNavigation q = false
  · rw [h.fixed id q hq hnav]
  · -- a property that is moved here from elsewhere has not been one that stays
    rw [Bool.not_eq_false] at hnav
    by_contra hne
    have hstays : g.isNavigation (place q) = false := by
      rw [hnav] at hne
      simpa using Ne.symm hne
    have hsame := h.injective (h.fixed id _ hp hstays)
    rw [hsame] at hstays
    rw [hnav] at hstays
    cases hstays

theorem perm_flatMap (classes : List ClassId) :
    ((classes.flatMap g.ownProperties).map place).Perm (classes.flatMap g.ownProperties) := by
  rw [List.map_flatMap]
  exact List.Perm.flatMap_left classes fun id _ => h.own id

theorem perm_allProperties (hf : g.Forest) {ids : List PropertyId}
    (hids : g.allProperties id = .ok ids) : (ids.map place).Perm ids := by
  obtain ⟨above, hchain⟩ := hf.chain id
  rw [allProperties_eq hf (Route.isClass_of_allProperties hids) hchain] at hids
  cases hids
  exact h.perm_flatMap _

/-- Where names are distinct, the property of a name is found at its new place. -/
theorem findNamed {ids : List PropertyId} {name : String} (perm : (ids.map place).Perm ids)
    (distinct : (ids.map g.nameOf).Nodup) (known : ∀ p ∈ ids, ∃ q, g.propertyAt p = .ok q)
    (hfound : g.findNamed name ids = .ok (some p)) :
    (g.withProperties table).findNamed name ids = .ok (some (place p)) := by
  have moved : ∀ p ∈ ids, ∃ q ∈ ids, place q = p := by
    intro p hp
    rw [← perm.mem_iff] at hp
    exact List.mem_map.1 hp
  have known' : ∀ p ∈ ids, ∃ q, (g.withProperties table).propertyAt p = .ok q := by
    intro p hp
    obtain ⟨q, hq, rfl⟩ := moved p hp
    obtain ⟨r, hr⟩ := known q hq
    exact ⟨r, h.propertyAt hr⟩
  rw [findNamed_eq known, Except.ok.injEq] at hfound
  rw [findNamed_eq known', Except.ok.injEq]
  have hp := List.mem_of_find?_eq_some hfound
  have hname := List.find?_some hfound
  rw [beq_iff_eq] at hname
  have hplace : place p ∈ ids := perm.mem_iff.1 (List.mem_map_of_mem hp)
  obtain ⟨p', hfound'⟩ : ∃ p', ids.find? (fun p => (g.withProperties table).nameOf p == name) =
      some p' := by
    rw [← Option.isSome_iff_exists, List.find?_isSome]
    exact ⟨place p, hplace, by rw [h.nameOf, hname, beq_self_eq_true]⟩
  obtain ⟨q, hq, rfl⟩ := moved p' (List.mem_of_find?_eq_some hfound')
  have hname' := List.find?_some hfound'
  rw [h.nameOf, beq_iff_eq] at hname'
  rw [hfound', List.inj_on_of_nodup_map distinct hq hp (hname'.trans hname.symm)]

/-- A class has the same key, at its new place. -/
theorem keyProperty (hf : g.Forest) (hw : g.WellOwned) {key : Option PropertyId}
    (hkey : g.keyProperty id = .ok key) :
    (g.withProperties table).keyProperty id = .ok (key.map place) := by
  unfold Graph.keyProperty at hkey ⊢
  rw [keyName_withProperties, allProperties_withProperties, classAt_withProperties]
  split at hkey
  · cases hkey
  · cases hkey
    rfl
  rename_i name hname
  split at hkey
  · cases hkey
  rename_i ids hids
  have known : ∀ p ∈ ids, ∃ q, g.propertyAt p = .ok q := by
    intro p hp
    obtain ⟨x, _, hown⟩ := (mem_allProperties_iff hf hids).1 hp
    obtain ⟨q, hq, _⟩ := hw.own_known hown
    exact ⟨q, (propertyAt_eq_ok_iff g).2 hq⟩
  obtain ⟨above, hchain⟩ := hf.chain id
  have nodup : ids.Nodup := by
    have heq := allProperties_eq hf (Route.isClass_of_allProperties hids) hchain
    rw [hids, Except.ok.injEq] at heq
    rw [heq]
    exact hw.nodup_members hchain
  have distinct := hw.names_nodup hf nodup hids
  split at hkey
  · cases hkey
  · cases hkey
    rename_i found hfound
    rw [h.findNamed (h.perm_allProperties hf hids) distinct known hfound]
    rfl
  · split at hkey <;> cases hkey

end Renumbers

/-! ## Tables of the same properties -/

theorem Built.nodup_properties (built : g.Built) : g.properties.toList.Nodup := by
  refine List.nodup_iff_getElem?_ne_getElem?.2 ?_
  intro i j hij hj heq
  have hq := List.getElem?_eq_getElem hj
  rw [hq] at heq
  have hi : g.properties[(⟨i⟩ : PropertyId).index]? = some g.properties.toList[j] := by
    rw [← Array.getElem?_toList]
    exact heq
  have hj' : g.properties[(⟨j⟩ : PropertyId).index]? = some g.properties.toList[j] := by
    rw [← Array.getElem?_toList]
    exact hq
  have hlisted := built.listed.mem_listedBy hi
  have hlisted' := built.listed.mem_listedBy hj'
  have hsame := List.inj_on_of_nodup_map (built.wellOwned.nodup_ownNames _) hlisted hlisted'
    (by rw [nameOf_of_getElem? hi, nameOf_of_getElem? hj'])
  cases hsame
  exact Nat.lt_irrefl _ hij

/-- The place of a property in another table. -/
def placeIn (g : Graph) (table : Array Property) (p : PropertyId) : PropertyId :=
  match g.properties[p.index]? with
  | some q => ⟨table.toList.idxOf q⟩
  | none => p

theorem placeIn_of_getElem? {q : Property} (hq : g.properties[p.index]? = some q) :
    g.placeIn table p = ⟨table.toList.idxOf q⟩ := by
  rw [placeIn, hq]

theorem placeIn_of_getElem?_none (hnone : g.properties[p.index]? = none) :
    g.placeIn table p = p := by
  rw [placeIn, hnone]

section SameProperties

variable (built : g.Built) (perm : g.properties.toList.Perm table.toList)
include perm

theorem look_placeIn (p : PropertyId) :
    table[(g.placeIn table p).index]? = g.properties[p.index]? := by
  cases hp : g.properties[p.index]? with
  | none =>
    have size : g.properties.size = table.size := by simpa using perm.length_eq
    rw [placeIn_of_getElem?_none hp, Array.getElem?_eq_none_iff, ← size]
    exact Array.getElem?_eq_none_iff.1 hp
  | some q =>
    have hq : q ∈ table.toList := perm.mem_iff.1 (Array.mem_toList_iff.2 (Array.mem_of_getElem? hp))
    rw [placeIn_of_getElem? hp, ← Array.getElem?_toList]
    exact List.getElem?_idxOf hq

include built

theorem placeIn_injective : Function.Injective (g.placeIn table) := by
  intro p q heq
  have hsame : g.properties[p.index]? = g.properties[q.index]? := by
    rw [← look_placeIn perm p, ← look_placeIn perm q, heq]
  cases hp : g.properties[p.index]? with
  | none =>
    have hq := hsame.symm.trans hp
    rwa [placeIn_of_getElem?_none hp, placeIn_of_getElem?_none hq] at heq
  | some r =>
    -- no property stands at two places
    have hlt := (Array.getElem?_eq_some_iff.1 hp).1
    rw [← Array.getElem?_toList, ← Array.getElem?_toList] at hsame
    have hindex := (List.getElem?_inj (by simpa using hlt) built.nodup_properties).1 hsame
    cases p
    cases q
    exact congrArg PropertyId.mk hindex

/-- Where the properties at one place have one owner, an owner lists the same properties. -/
theorem perm_listedBy_placeIn
    (owners : table.toList.map (·.owner) = g.properties.toList.map (·.owner)) (owner : Owner) :
    ((g.listedBy owner).map (g.placeIn table)).Perm (g.listedBy owner) := by
  have hnodup : ((g.listedBy owner).map (g.placeIn table)).Nodup :=
    (built.wellOwned.nodup_listedBy owner).map (placeIn_injective built perm)
  have hsub : (g.listedBy owner).map (g.placeIn table) ⊆ g.listedBy owner := by
    intro p hp
    obtain ⟨q, hq, rfl⟩ := List.mem_map.1 hp
    obtain ⟨r, hr, rfl⟩ := built.wellOwned.owner_eq hq
    -- what stands there in the graph has the owner of what stands there in the table
    have hthere := congrArg (·[(g.placeIn table q).index]?) owners
    simp only [List.getElem?_map, Array.getElem?_toList, look_placeIn perm, hr,
      Option.map_some] at hthere
    obtain ⟨r', hr', howner⟩ := Option.map_eq_some_iff.1 hthere.symm
    rw [← howner]
    exact built.listed.mem_listedBy hr'
  exact (hnodup.subperm hsub).perm_of_length_le (by simp)

/-- Two tables of the same properties, where those at one place have one owner, differ in the
numbers of the properties only. -/
theorem renumbers_placeIn
    (owners : table.toList.map (·.owner) = g.properties.toList.map (·.owner))
    (fixed : ∀ id, ∀ p ∈ g.ownProperties id, g.isNavigation p = false →
      table[p.index]? = g.properties[p.index]?) :
    g.Renumbers table (g.placeIn table) where
  injective := placeIn_injective built perm
  look := look_placeIn perm
  own id := perm_listedBy_placeIn built perm owners (.structured id)
  fixed := by
    intro id p hp hnav
    obtain ⟨q, hq, _⟩ := built.wellOwned.own_known hp
    have nodup : table.toList.Nodup := perm.nodup_iff.1 built.nodup_properties
    have hstays := fixed id p hp hnav
    rw [hq, ← Array.getElem?_toList, List.getElem?_eq_some_iff] at hstays
    obtain ⟨hlt, hget⟩ := hstays
    rw [placeIn_of_getElem? hq, ← hget, nodup.idxOf_getElem]
  entries := perm_listedBy_placeIn built perm owners .container

end SameProperties

end Graph
end Schema
end EdmCommands
