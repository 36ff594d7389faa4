import EdmCommands.Proofs.Naming
import EdmCommands.Proofs.Schema.BreadthFirst

/-!
# EdmCommands.Proofs.Schema.Built

The graphs that can be built with the operations of the schema graph, and what holds of all of
them. An operation that is refused leaves the graph as it was, so only the others count.

* `Built`: made from the empty graph by operations that add fresh classes.
* `WellOwned`: a property belongs to one class or to the container, and its name is free on the
  class, above it and below it.
* `Built.forest`, `Built.wellOwned`: the invariants, from one lemma for each operation.
* `Built.parameters_nodup`: the parameters of a method have distinct names.
-/

namespace EdmCommands
namespace Schema

/-- A class that is not linked to anything yet. -/
structure StructuredType.IsFresh (c : StructuredType) : Prop where
  base : c.base = none
  properties : c.properties = []
  methods : c.methods = []
  derived : c.derived = []

namespace Graph

def nameOf (g : Graph) (id : PropertyId) : String :=
  (g.properties[id.index]?.map (·.name)).getD ""

def className (g : Graph) (id : ClassId) : String :=
  (g.classes[id.index]?.map (·.name)).getD ""

/-- The graphs made by the operations from the graph without types and entry points. -/
inductive Built : Graph → Prop where
  | empty (spaceName containerName : String) : Built (Graph.empty spaceName containerName)
  | addClass {g g' : Graph} {c : StructuredType} {id : ClassId} :
      Built g → c.IsFresh → g.addClass c = .ok (g', id) → Built g'
  | addEnum {g g' : Graph} {e : EnumType} {id : EnumId} :
      Built g → g.addEnum e = .ok (g', id) → Built g'
  | setBase {g g' : Graph} {derived base : ClassId} :
      Built g → g.setBase derived base = .ok g' → Built g'
  | addProperty {g g' : Graph} {owner : ClassId} {p : Property} {id : PropertyId} :
      Built g → g.addProperty owner p = .ok (g', id) → Built g'
  | addContainerProperty {g g' : Graph} {p : Property} {id : PropertyId} :
      Built g → g.addContainerProperty p = .ok (g', id) → Built g'
  | addMethod {g g' : Graph} {owner : ClassId} {m : Method} {id : MethodId} :
      Built g → g.addMethod owner m = .ok (g', id) → Built g'

/-- Every property belongs to one class or to the container. Its name is not used by another
property of its owner, nor by one of a base or of a derived class. -/
structure WellOwned (g : Graph) : Prop where
  own_known : ∀ {id : ClassId} {p : PropertyId}, p ∈ g.ownProperties id →
    ∃ q, g.properties[p.index]? = some q ∧ q.owner = .structured id
  own_nodup : ∀ id : ClassId, (g.ownProperties id).Nodup
  own_names : ∀ {x y : ClassId} {p q : PropertyId}, g.Within y x → p ∈ g.ownProperties x →
    q ∈ g.ownProperties y → g.nameOf p = g.nameOf q → p = q
  entry_known : ∀ {p : PropertyId}, p ∈ g.container.properties →
    ∃ q, g.properties[p.index]? = some q ∧ q.owner = .container
  entry_nodup : g.container.properties.Nodup
  entry_names : ∀ {p q : PropertyId}, p ∈ g.container.properties → q ∈ g.container.properties →
    g.nameOf p = g.nameOf q → p = q

variable {g g' : Graph}

/-! ## What the operations do -/

theorem addClass_eq_ok {c : StructuredType} {id : ClassId} (h : g.addClass c = .ok (g', id)) :
    g' = { g with classes := g.classes.push c } := by
  unfold Graph.addClass at h
  split at h
  · cases h
  · cases h; rfl

theorem addEnum_eq_ok {e : EnumType} {id : EnumId} (h : g.addEnum e = .ok (g', id)) :
    g' = { g with enums := g.enums.push e } := by
  unfold Graph.addEnum at h
  split at h
  · cases h
  · cases h; rfl

theorem addContainerProperty_eq_ok {p : Property} {id : PropertyId}
    (h : g.addContainerProperty p = .ok (g', id)) :
    g.firstNamedIn [p.name] g.container.properties = none ∧
      g' = { g with
        properties := g.properties.push { p with owner := .container }
        container :=
          { g.container with properties := g.container.properties ++ [⟨g.properties.size⟩] } } := by
  unfold Graph.addContainerProperty at h
  split at h
  · cases h
  · rename_i hfree
    cases h
    exact ⟨hfree, rfl⟩

theorem addMethod_eq_ok {owner : ClassId} {m : Method} {id : MethodId}
    (h : g.addMethod owner m = .ok (g', id)) :
    g' = { g with
      methods := g.methods.push { m with declaring := owner }
      classes := g.classes.modify owner.index fun c =>
        { c with methods := c.methods ++ [⟨g.methods.size⟩] } } := by
  unfold Graph.addMethod at h
  obtain ⟨c, _, h⟩ := Fallible.bind_eq_ok_iff.1 h
  split at h
  · cases h
  · cases h; rfl

theorem addProperty_eq_ok {owner : ClassId} {p : Property} {id : PropertyId}
    (h : g.addProperty owner p = .ok (g', id)) :
    ∃ above below, g.IsClass owner ∧ g.ancestors owner = .ok above ∧
      g.descendants owner = .ok below ∧
      g.firstDeclaring p.name (owner :: (above ++ below)) = .ok none ∧
      g' = { g with
        properties := g.properties.push { p with owner := .structured owner }
        classes := g.classes.modify owner.index fun c =>
          { c with properties := c.properties ++ [⟨g.properties.size⟩] } } := by
  unfold Graph.addProperty at h
  obtain ⟨c, hc, h⟩ := Fallible.bind_eq_ok_iff.1 h
  obtain ⟨above, habove, h⟩ := Fallible.bind_eq_ok_iff.1 h
  obtain ⟨below, hbelow, h⟩ := Fallible.bind_eq_ok_iff.1 h
  obtain ⟨found, hfound, h⟩ := Fallible.bind_eq_ok_iff.1 h
  refine ⟨above, below, isClass_iff.2 ⟨c, hc⟩, habove, hbelow, ?_⟩
  split at h
  · split at h
    · cases h
    · obtain ⟨_, _, h⟩ := Fallible.bind_eq_ok_iff.1 h
      cases h
  · cases h
    exact ⟨hfound, rfl⟩

theorem setBase_eq_ok {derived base : ClassId} (h : g.setBase derived base = .ok g') :
    ∃ above inherited below declared, g.IsClass derived ∧ g.IsClass base ∧
      g.leadsTo derived (g.classes.size + 1) (some base) = false ∧
      g.ancestors base = .ok above ∧ g.gather (·.properties) (base :: above) = .ok inherited ∧
      g.descendants derived = .ok below ∧
      g.gather (·.properties) (derived :: below) = .ok declared ∧
      g.firstNamedIn (g.propertyNames inherited) declared = none ∧
      g' = g.relink derived base (g.baseOf derived) := by
  unfold Graph.setBase at h
  obtain ⟨d, hd, h⟩ := Fallible.bind_eq_ok_iff.1 h
  obtain ⟨b, hb, h⟩ := Fallible.bind_eq_ok_iff.1 h
  split at h
  · cases h
  rename_i hcycle
  obtain ⟨above, habove, h⟩ := Fallible.bind_eq_ok_iff.1 h
  obtain ⟨inherited, hinherited, h⟩ := Fallible.bind_eq_ok_iff.1 h
  obtain ⟨below, hbelow, h⟩ := Fallible.bind_eq_ok_iff.1 h
  obtain ⟨declared, hdeclared, h⟩ := Fallible.bind_eq_ok_iff.1 h
  split at h
  · obtain ⟨_, _, h⟩ := Fallible.bind_eq_ok_iff.1 h
    cases h
  · rename_i hclash
    cases h
    refine ⟨above, inherited, below, declared, isClass_iff.2 ⟨d, hd⟩, isClass_iff.2 ⟨b, hb⟩,
      by simpa using hcycle, habove, hinherited, hbelow, hdeclared, hclash, ?_⟩
    rw [baseOf_of_classAt hd]

/-! ## Forests are kept -/

theorem id_eq_of_index_eq {x y : ClassId} (h : x.index = y.index) : x = y := by
  cases x
  cases y
  exact congrArg ClassId.mk h

section Push

variable {c : StructuredType} (fresh : c.IsFresh)
include fresh

theorem baseOf_push : ({ g with classes := g.classes.push c } : Graph).baseOf = g.baseOf := by
  funext x
  simp only [baseOf, Array.getElem?_push]
  split
  · rename_i h
    simp [h, fresh.base]
  · rfl

theorem derivedOf_push :
    ({ g with classes := g.classes.push c } : Graph).derivedOf = g.derivedOf := by
  funext x
  simp only [derivedOf, Array.getElem?_push]
  split
  · rename_i h
    simp [h, fresh.derived]
  · rfl

theorem ownProperties_push :
    ({ g with classes := g.classes.push c } : Graph).ownProperties = g.ownProperties := by
  funext x
  simp only [ownProperties, Array.getElem?_push]
  split
  · rename_i h
    simp [h, fresh.properties]
  · rfl

end Push

/-- The class record at a place after `relink`. -/
theorem classes_relink {derived base : ClassId} {previous : Option ClassId} (x : ClassId) :
    (g.relink derived base previous).classes[x.index]? =
      g.classes[x.index]?.map fun c =>
        { c with
          base := if x = derived then some base else c.base
          derived :=
            (if previous = some x then c.derived.filter (· ≠ derived) else c.derived) ++
              if x = base then [derived] else [] } := by
  have index_eq : ∀ y : ClassId, y.index = x.index ↔ x = y :=
    fun y => ⟨fun h => (id_eq_of_index_eq h).symm, fun h => by rw [h]⟩
  cases previous with
  | none =>
    simp only [relink, Array.getElem?_modify, index_eq, reduceCtorEq, if_false]
    cases g.classes[x.index]? with
    | none => split <;> split <;> rfl
    | some c => split <;> split <;> simp
  | some p =>
    simp only [relink, Array.getElem?_modify, index_eq, Option.some.injEq, eq_comm (a := p)]
    cases g.classes[x.index]? with
    | none => split <;> split <;> split <;> rfl
    | some c => split <;> split <;> split <;> simp

theorem baseOf_relink {derived base : ClassId} {previous : Option ClassId}
    (known : g.IsClass derived) (x : ClassId) :
    (g.relink derived base previous).baseOf x = if x = derived then some base else g.baseOf x := by
  unfold baseOf
  rw [classes_relink]
  by_cases hx : x = derived
  · obtain ⟨c, hc⟩ := isClass_iff.1 known
    simp [hx, (classAt_eq_ok_iff g).1 hc]
  · cases g.classes[x.index]? <;> simp [hx]

theorem mem_derivedOf_relink {derived base : ClassId} {previous : Option ClassId}
    (known : g.IsClass base) {x y : ClassId} :
    y ∈ (g.relink derived base previous).derivedOf x ↔
      (y ∈ g.derivedOf x ∧ (previous = some x → y ≠ derived)) ∨ (x = base ∧ y = derived) := by
  unfold derivedOf
  rw [classes_relink]
  cases hc : g.classes[x.index]? with
  | none =>
    have : x ≠ base := by
      rintro rfl
      obtain ⟨c, hc'⟩ := isClass_iff.1 known
      rw [(classAt_eq_ok_iff g).1 hc'] at hc
      cases hc
    simp [this]
  | some c =>
    rcases eq_or_ne x base with rfl | hb <;> by_cases previous = some x <;> simp [*]

theorem ownProperties_relink {derived base : ClassId} {previous : Option ClassId} :
    (g.relink derived base previous).ownProperties = g.ownProperties := by
  funext x
  unfold ownProperties
  rw [classes_relink]
  cases g.classes[x.index]? <;> rfl

/-- A class that is not below the one to be linked has the same bases afterwards; any other one
has the new base and its bases behind the part of the chain below. -/
theorem chain_relink {derived base : ClassId} {previous : Option ClassId} {above : List ClassId}
    (known : g.IsClass derived) (hbase : BaseChain g base above)
    (acyclic : derived ∉ base :: above) {id : ClassId} {chain : List ClassId}
    (h : BaseChain g id chain) :
    ∃ chain', BaseChain (g.relink derived base previous) id chain' := by
  have hbase' : BaseChain (g.relink derived base previous) base above := by
    refine hbase.congr fun x hx => ?_
    rw [baseOf_relink known, if_neg]
    rintro rfl
    exact acyclic hx
  have hderived : BaseChain (g.relink derived base previous) derived (base :: above) :=
    .link (by rw [baseOf_relink known, if_pos rfl]) hbase'
  induction h with
  | @root id hid =>
    by_cases heq : id = derived
    · subst heq
      exact ⟨_, hderived⟩
    · exact ⟨[], .root (by rw [baseOf_relink known, if_neg heq, hid])⟩
  | @link id b rest hid _ ih =>
    by_cases heq : id = derived
    · subst heq
      exact ⟨_, hderived⟩
    · obtain ⟨chain', h'⟩ := ih
      exact ⟨b :: chain', .link (by rw [baseOf_relink known, if_neg heq, hid]) h'⟩

/-- Linking a class adds no other ways up than through the new link. -/
theorem derives_relink {derived base x y : ClassId} {previous : Option ClassId}
    (known : g.IsClass derived) (acyclic : ¬ g.Within base derived)
    (h : (g.relink derived base previous).Derives x y) :
    g.Derives x y ∨ (g.Within x derived ∧ g.Within base y) := by
  have step : ∀ {u v : ClassId}, (g.relink derived base previous).baseOf u = some v →
      (u = derived ∧ v = base) ∨ g.baseOf u = some v := by
    intro u v huv
    rw [baseOf_relink known] at huv
    by_cases hu : u = derived
    · rw [if_pos hu] at huv
      exact .inl ⟨hu, (Option.some.inj huv).symm⟩
    · rw [if_neg hu] at huv
      exact .inr huv
  induction h with
  | single huv =>
    rcases step huv with ⟨rfl, rfl⟩ | huv
    · exact .inr ⟨.inl rfl, .inl rfl⟩
    · exact .inl (.single huv)
  | tail _ huv ih =>
    rcases step huv with ⟨rfl, rfl⟩ | huv
    · rcases ih with ih | ⟨_, ih⟩
      · exact .inr ⟨.inr ih, .inl rfl⟩
      · exact absurd ih acyclic
    · rcases ih with ih | ⟨hx, rfl | ih⟩
      · exact .inl (.tail ih huv)
      · exact .inr ⟨hx, .inr (.single huv)⟩
      · exact .inr ⟨hx, .inr (.tail ih huv)⟩

theorem Forest.setBase (hf : g.Forest) {derived base : ClassId}
    (h : g.setBase derived base = .ok g') : ¬ g.Within base derived ∧ g'.Forest := by
  obtain ⟨_, _, _, _, hderived, hknown, hcycle, _, _, _, _, _, rfl⟩ := setBase_eq_ok h
  obtain ⟨above, hchain⟩ := hf.chain base
  have hlen := hf.length_lt hknown hchain
  have acyclic : derived ∉ base :: above := by
    rw [leadsTo_eq hchain (by omega)] at hcycle
    simpa using hcycle
  refine ⟨?_, ?_, ?_, ?_⟩
  · rintro (rfl | hd)
    · exact acyclic List.mem_cons_self
    · exact acyclic (List.mem_cons_of_mem _ (hchain.mem_iff.2 hd))
  · intro d b
    rw [mem_derivedOf_relink hknown, baseOf_relink hderived, hf.mem_derivedOf_iff]
    by_cases hd : d = derived
    · subst hd
      simp [eq_comm]
    · simp [hd]
  · intro b
    have hkept := hf.derived_nodup b
    unfold derivedOf
    rw [classes_relink]
    cases hc : g.classes[b.index]? with
    | none => simp
    | some c =>
      have hder : g.derivedOf b = c.derived := by simp [derivedOf, hc]
      rw [hder] at hkept
      have hnew : derived ∉ if g.baseOf derived = some b then
          c.derived.filter (· ≠ derived) else c.derived := by
        split
        · simp
        · rename_i hne
          rwa [← hder, hf.mem_derivedOf_iff]
      have hold : (if g.baseOf derived = some b then
          c.derived.filter (· ≠ derived) else c.derived).Nodup := by
        split
        · exact hkept.filter _
        · exact hkept
      refine List.nodup_append.2 ⟨hold, by split <;> simp, fun x hx y hy hxy => ?_⟩
      split at hy
      · rw [List.mem_singleton] at hy
        rw [hxy, hy] at hx
        exact hnew hx
      · cases hy
  · intro id
    obtain ⟨chain, h⟩ := hf.chain id
    exact chain_relink hderived hchain acyclic h

section Modify

variable {i : Nat} {f : StructuredType → StructuredType}

theorem baseOf_modify (classes : g'.classes = g.classes.modify i f)
    (same : ∀ c, (f c).base = c.base) : g'.baseOf = g.baseOf := by
  funext x
  simp only [baseOf, classes, Array.getElem?_modify]
  split
  · cases g.classes[x.index]? <;> simp [same]
  · rfl

theorem derivedOf_modify (classes : g'.classes = g.classes.modify i f)
    (same : ∀ c, (f c).derived = c.derived) : g'.derivedOf = g.derivedOf := by
  funext x
  simp only [derivedOf, classes, Array.getElem?_modify]
  split
  · cases g.classes[x.index]? <;> simp [same]
  · rfl

theorem ownProperties_modify (classes : g'.classes = g.classes.modify i f)
    (same : ∀ c, (f c).properties = c.properties) : g'.ownProperties = g.ownProperties := by
  funext x
  simp only [ownProperties, classes, Array.getElem?_modify]
  split
  · cases g.classes[x.index]? <;> simp [same]
  · rfl

end Modify

theorem baseOf_addMethod {owner : ClassId} {m : Method} {id : MethodId}
    (h : g.addMethod owner m = .ok (g', id)) : g'.baseOf = g.baseOf := by
  obtain rfl := addMethod_eq_ok h
  exact baseOf_modify (i := owner.index)
    (f := fun c => { c with methods := c.methods ++ [⟨g.methods.size⟩] }) rfl fun _ => rfl

theorem baseOf_addProperty {owner : ClassId} {p : Property} {id : PropertyId}
    (h : g.addProperty owner p = .ok (g', id)) : g'.baseOf = g.baseOf := by
  obtain ⟨_, _, _, _, _, _, rfl⟩ := addProperty_eq_ok h
  exact baseOf_modify (i := owner.index)
    (f := fun c => { c with properties := c.properties ++ [⟨g.properties.size⟩] }) rfl fun _ => rfl

theorem Built.forest (h : g.Built) : g.Forest := by
  induction h with
  | empty => exact ⟨by simp [derivedOf, baseOf, Graph.empty], by simp [derivedOf, Graph.empty],
      fun id => ⟨[], .root (by simp [baseOf, Graph.empty])⟩⟩
  | addClass _ fresh hadd hf =>
    obtain rfl := addClass_eq_ok hadd
    exact hf.congr (baseOf_push fresh) (derivedOf_push fresh)
  | addEnum _ hadd hf =>
    obtain rfl := addEnum_eq_ok hadd
    exact hf.congr rfl rfl
  | setBase _ hset hf => exact (hf.setBase hset).2
  | @addProperty g g' owner p id _ hadd hf =>
    refine hf.congr (baseOf_addProperty hadd) ?_
    obtain ⟨_, _, _, _, _, _, rfl⟩ := addProperty_eq_ok hadd
    exact derivedOf_modify (i := owner.index)
      (f := fun c => { c with properties := c.properties ++ [⟨g.properties.size⟩] })
      rfl fun _ => rfl
  | addContainerProperty _ hadd hf =>
    obtain ⟨_, rfl⟩ := addContainerProperty_eq_ok hadd
    exact hf.congr rfl rfl
  | @addMethod g g' owner m id _ hadd hf =>
    refine hf.congr (baseOf_addMethod hadd) ?_
    obtain rfl := addMethod_eq_ok hadd
    exact derivedOf_modify (i := owner.index)
      (f := fun c => { c with methods := c.methods ++ [⟨g.methods.size⟩] }) rfl fun _ => rfl

/-! ## Names stay distinct -/

theorem nameOf_of_getElem? {p : PropertyId} {q : Property}
    (h : g.properties[p.index]? = some q) : g.nameOf p = q.name := by
  simp [nameOf, h]

theorem className_of_classAt {id : ClassId} {c : StructuredType} (h : g.classAt id = .ok c) :
    g.className id = c.name := by
  simp [className, (classAt_eq_ok_iff g).1 h]

/-- Properties that are there keep their names when one is added. -/
theorem nameOf_push {p : PropertyId} {q : Property} {added : Property}
    (h : g.properties[p.index]? = some q) (properties : g'.properties = g.properties.push added) :
    g'.nameOf p = g.nameOf p := by
  have hlt := (Array.getElem?_eq_some_iff.1 h).1
  rw [nameOf, nameOf, properties, Array.getElem?_push_lt hlt, h,
    ← (Array.getElem?_eq_some_iff.1 h).2]

theorem getElem?_kept {p : PropertyId} {q : Property} {added : Property}
    (properties : g'.properties = g.properties.push added)
    (h : g.properties[p.index]? = some q) : g'.properties[p.index]? = some q := by
  rw [properties, Array.getElem?_push_lt (Array.getElem?_eq_some_iff.1 h).1]
  exact congrArg some (Array.getElem?_eq_some_iff.1 h).2

/-- A new property is not one of those that are there. -/
theorem nodup_append_new {ids : List PropertyId} (nodup : ids.Nodup)
    (known : ∀ p ∈ ids, ∃ q, g.properties[p.index]? = some q) :
    (ids ++ [PropertyId.mk g.properties.size]).Nodup := by
  refine List.nodup_append.2 ⟨nodup, by simp, fun p hp added hadded heq => ?_⟩
  obtain ⟨q, hq⟩ := known p hp
  rw [List.mem_singleton.1 hadded] at heq
  have hlt := (Array.getElem?_eq_some_iff.1 hq).1
  rw [heq] at hlt
  exact Nat.lt_irrefl _ hlt

theorem nameOf_added {added : Property} (properties : g'.properties = g.properties.push added) :
    g'.nameOf ⟨g.properties.size⟩ = added.name := by
  simp [nameOf, properties]

theorem firstNamedIn_eq_none {names : List String} {ids : List PropertyId}
    (h : g.firstNamedIn names ids = none) {p : PropertyId} {q : Property} (hp : p ∈ ids)
    (hq : g.properties[p.index]? = some q) : g.nameOf p ∉ names := by
  have := List.find?_eq_none.1 h p hp
  simpa [hq, nameOf] using this

theorem mem_propertyNames {ids : List PropertyId} {p : PropertyId} {q : Property} (hp : p ∈ ids)
    (hq : g.properties[p.index]? = some q) : g.nameOf p ∈ g.propertyNames ids := by
  refine List.mem_filterMap.2 ⟨p, hp, ?_⟩
  simp [hq, nameOf]

theorem firstDeclaring_eq_none {name : String} {ids : List ClassId}
    (h : g.firstDeclaring name ids = .ok none) {x : ClassId} (hx : x ∈ ids) {p : PropertyId}
    {q : Property} (hp : p ∈ g.ownProperties x) (hq : g.properties[p.index]? = some q) :
    g.nameOf p ≠ name := by
  induction ids with
  | nil => cases hx
  | cons id rest ih =>
    unfold firstDeclaring at h
    cases hc : g.classAt id with
    | error fault => simp [hc] at h
    | ok c =>
      rw [hc] at h
      simp only at h
      cases hfirst : g.firstNamedIn [name] c.properties with
      | some clash => simp [hfirst] at h
      | none =>
        rw [hfirst] at h
        rcases List.mem_cons.1 hx with rfl | hx
        · rw [ownProperties_of_classAt hc] at hp
          simpa using firstNamedIn_eq_none hfirst hp hq
        · exact ih h hx

/-- A property has one owner. -/
theorem WellOwned.owner_unique (hw : g.WellOwned) {x y : ClassId} {p : PropertyId}
    (hx : p ∈ g.ownProperties x) (hy : p ∈ g.ownProperties y) : x = y := by
  obtain ⟨q, hq, howner⟩ := hw.own_known hx
  obtain ⟨q', hq', howner'⟩ := hw.own_known hy
  rw [hq] at hq'
  cases hq'
  rw [howner] at howner'
  exact Owner.structured.inj howner'

/-- The conditions on owners speak of the members and their properties only. -/
theorem WellOwned.congr (hw : g.WellOwned) (base : g'.baseOf = g.baseOf)
    (own : g'.ownProperties = g.ownProperties) (properties : g'.properties = g.properties)
    (container : g'.container = g.container) : g'.WellOwned where
  own_known h := by
    rw [own] at h
    rw [properties]
    exact hw.own_known h
  own_nodup id := by
    rw [own]
    exact hw.own_nodup id
  own_names hyx hp hq hname := by
    rw [own] at hp hq
    rw [nameOf, nameOf, properties] at hname
    refine hw.own_names ?_ hp hq hname
    rwa [Within, Derives, base] at hyx
  entry_known h := by
    rw [container] at h
    rw [properties]
    exact hw.entry_known h
  entry_nodup := by
    rw [container]
    exact hw.entry_nodup
  entry_names hp hq hname := by
    rw [container] at hp hq
    rw [nameOf, nameOf, properties] at hname
    exact hw.entry_names hp hq hname

theorem WellOwned.setBase (hw : g.WellOwned) (hf : g.Forest) {derived base : ClassId}
    (h : g.setBase derived base = .ok g') : g'.WellOwned := by
  have acyclic := (hf.setBase h).1
  obtain ⟨above, inherited, below, declared, hderived, hbase, _, habove, hinherited, hbelow,
    hdeclared, hfree, rfl⟩ := setBase_eq_ok h
  have hbelow' : below = g.below derived := by
    rw [descendants_eq hf hderived] at hbelow
    exact (Except.ok.inj hbelow).symm
  obtain ⟨chain, hchain⟩ := hf.chain base
  have habove' : above = chain := by
    rw [ancestors_eq hf hbase hchain] at habove
    exact (Except.ok.inj habove).symm
  subst hbelow' habove'
  rw [gather_properties_eq (isClass_of_mem_chain hf hbase hchain)] at hinherited
  have known : ∀ x ∈ derived :: g.below derived, g.IsClass x := by
    intro x hx
    rcases List.mem_cons.1 hx with rfl | hx
    · exact hderived
    · exact isClass_of_mem_below hf hx
  rw [gather_properties_eq known] at hdeclared
  cases hinherited
  cases hdeclared
  -- what the new link relates is a class at or below `derived` and one at or above `base`
  have apart : ∀ {x y : ClassId} {p q : PropertyId}, g.Within y derived → g.Within base x →
      p ∈ g.ownProperties x → q ∈ g.ownProperties y → g.nameOf p ≠ g.nameOf q := by
    intro x y p q hy hx hp hq hname
    obtain ⟨p', hp', _⟩ := hw.own_known hp
    obtain ⟨q', hq', _⟩ := hw.own_known hq
    have hqmem : q ∈ (derived :: g.below derived).flatMap g.ownProperties := by
      refine List.mem_flatMap.2 ⟨y, ?_, hq⟩
      rcases hy with rfl | hy
      · exact List.mem_cons_self
      · exact List.mem_cons_of_mem _ ((mem_below_iff hf).2 hy)
    have hpmem : p ∈ (base :: above).flatMap g.ownProperties := by
      refine List.mem_flatMap.2 ⟨x, ?_, hp⟩
      rcases hx with rfl | hx
      · exact List.mem_cons_self
      · exact List.mem_cons_of_mem _ (hchain.mem_iff.2 hx)
    exact firstNamedIn_eq_none hfree hqmem hq' (hname ▸ mem_propertyNames hpmem hp')
  refine ⟨?_, ?_, ?_, hw.entry_known, hw.entry_nodup, hw.entry_names⟩
  · rw [ownProperties_relink]
    exact hw.own_known
  · rw [ownProperties_relink]
    exact hw.own_nodup
  · rw [ownProperties_relink]
    rintro x y p q (rfl | hyx) hp hq hname
    · exact hw.own_names (.inl rfl) hp hq hname
    · rcases derives_relink hderived acyclic hyx with hyx | ⟨hy, hx⟩
      · exact hw.own_names (.inr hyx) hp hq hname
      · exact absurd hname (apart hy hx hp hq)

theorem mem_ownProperties_addProperty {owner : ClassId} {p : Property} {id : PropertyId}
    (h : g.addProperty owner p = .ok (g', id)) {x : ClassId} {q : PropertyId} :
    q ∈ g'.ownProperties x ↔ q ∈ g.ownProperties x ∨ (x = owner ∧ q = ⟨g.properties.size⟩) := by
  obtain ⟨_, _, known, _, _, _, rfl⟩ := addProperty_eq_ok h
  simp only [ownProperties, Array.getElem?_modify]
  by_cases hx : x = owner
  · subst hx
    obtain ⟨c, hc⟩ := isClass_iff.1 known
    simp [(classAt_eq_ok_iff g).1 hc]
  · rw [if_neg fun heq => hx (id_eq_of_index_eq heq).symm]
    simp [hx]

theorem WellOwned.addProperty (hw : g.WellOwned) (hf : g.Forest) {owner : ClassId} {p : Property}
    {id : PropertyId} (h : g.addProperty owner p = .ok (g', id)) : g'.WellOwned := by
  have hmem := fun {x q} => mem_ownProperties_addProperty (x := x) (q := q) h
  have hbase := baseOf_addProperty h
  obtain ⟨above, below, known, habove, hbelow, hfree, heq⟩ := addProperty_eq_ok h
  have properties : g'.properties = g.properties.push { p with owner := .structured owner } := by
    rw [heq]
  have container : g'.container = g.container := by rw [heq]
  rw [descendants_eq hf known] at hbelow
  cases hbelow
  -- the new name is free in every class that is related to the owner
  have free : ∀ {x : ClassId} {q : PropertyId}, g.Within owner x ∨ g.Within x owner →
      q ∈ g.ownProperties x → g'.nameOf q ≠ p.name := by
    intro x q hx hq
    obtain ⟨r, hr, _⟩ := hw.own_known hq
    rw [nameOf_push hr properties]
    refine firstDeclaring_eq_none hfree ?_ hq hr
    rcases hx with (rfl | hx) | (rfl | hx)
    · exact List.mem_cons_self
    · exact List.mem_cons_of_mem _ (List.mem_append_left _ ((mem_ancestors_iff hf habove).2 hx))
    · exact List.mem_cons_self
    · exact List.mem_cons_of_mem _ (List.mem_append_right _ ((mem_below_iff hf).2 hx))
  refine ⟨?_, ?_, ?_, ?_, ?_, ?_⟩
  · intro x q hq
    rcases hmem.1 hq with hq | ⟨rfl, rfl⟩
    · obtain ⟨r, hr, hown⟩ := hw.own_known hq
      exact ⟨r, getElem?_kept properties hr, hown⟩
    · exact ⟨_, by rw [properties]; exact Array.getElem?_push_size, rfl⟩
  · intro x
    have hsub : g'.ownProperties x = g.ownProperties x ∨
        g'.ownProperties x = g.ownProperties x ++ [⟨g.properties.size⟩] := by
      subst heq
      simp only [ownProperties, Array.getElem?_modify]
      split
      · cases g.classes[x.index]? <;> simp
      · exact .inl rfl
    rcases hsub with hsub | hsub
    · rw [hsub]
      exact hw.own_nodup x
    · rw [hsub]
      refine nodup_append_new (hw.own_nodup x) fun q hq => ?_
      obtain ⟨r, hr, _⟩ := hw.own_known hq
      exact ⟨r, hr⟩
  · intro x y q r hyx hq hr hname
    have hyx' : g.Within y x := by rwa [Within, Derives, hbase] at hyx
    rcases hmem.1 hq with hq | ⟨rfl, rfl⟩ <;> rcases hmem.1 hr with hr | ⟨rfl, rfl⟩
    · obtain ⟨q', hq', _⟩ := hw.own_known hq
      obtain ⟨r', hr', _⟩ := hw.own_known hr
      rw [nameOf_push hq' properties, nameOf_push hr' properties] at hname
      exact hw.own_names hyx' hq hr hname
    · rw [nameOf_added properties] at hname
      exact absurd hname (free (.inl hyx') hq)
    · rw [nameOf_added properties] at hname
      exact absurd hname.symm (free (.inr hyx') hr)
    · rfl
  · intro q hq
    rw [container] at hq
    obtain ⟨r, hr, hown⟩ := hw.entry_known hq
    exact ⟨r, getElem?_kept properties hr, hown⟩
  · rw [container]
    exact hw.entry_nodup
  · intro q r hq hr hname
    rw [container] at hq hr
    obtain ⟨q', hq', _⟩ := hw.entry_known hq
    obtain ⟨r', hr', _⟩ := hw.entry_known hr
    rw [nameOf_push hq' properties, nameOf_push hr' properties] at hname
    exact hw.entry_names hq hr hname

theorem WellOwned.addContainerProperty (hw : g.WellOwned) {p : Property} {id : PropertyId}
    (h : g.addContainerProperty p = .ok (g', id)) : g'.WellOwned := by
  obtain ⟨hfree, heq⟩ := addContainerProperty_eq_ok h
  have properties : g'.properties = g.properties.push { p with owner := .container } := by
    rw [heq]
  have container : g'.container.properties = g.container.properties ++ [⟨g.properties.size⟩] := by
    rw [heq]
  have own : g'.ownProperties = g.ownProperties := by
    rw [heq]
    rfl
  have base : g'.baseOf = g.baseOf := by
    rw [heq]
    rfl
  have hmem : ∀ {q : PropertyId}, q ∈ g'.container.properties ↔
      q ∈ g.container.properties ∨ q = ⟨g.properties.size⟩ := by
    intro q
    rw [container, List.mem_append, List.mem_singleton]
  have free : ∀ {q : PropertyId}, q ∈ g.container.properties → g'.nameOf q ≠ p.name := by
    intro q hq
    obtain ⟨r, hr, _⟩ := hw.entry_known hq
    rw [nameOf_push hr properties]
    simpa using firstNamedIn_eq_none hfree hq hr
  refine ⟨?_, ?_, ?_, ?_, ?_, ?_⟩
  · intro x q hq
    rw [own] at hq
    obtain ⟨r, hr, hown⟩ := hw.own_known hq
    exact ⟨r, getElem?_kept properties hr, hown⟩
  · rw [own]
    exact hw.own_nodup
  · intro x y q r hyx hq hr hname
    rw [own] at hq hr
    obtain ⟨q', hq', _⟩ := hw.own_known hq
    obtain ⟨r', hr', _⟩ := hw.own_known hr
    rw [nameOf_push hq' properties, nameOf_push hr' properties] at hname
    refine hw.own_names ?_ hq hr hname
    rwa [Within, Derives, base] at hyx
  · intro q hq
    rcases hmem.1 hq with hq | rfl
    · obtain ⟨r, hr, hown⟩ := hw.entry_known hq
      exact ⟨r, getElem?_kept properties hr, hown⟩
    · exact ⟨_, by rw [properties]; exact Array.getElem?_push_size, rfl⟩
  · rw [container]
    refine nodup_append_new hw.entry_nodup fun q hq => ?_
    obtain ⟨r, hr, _⟩ := hw.entry_known hq
    exact ⟨r, hr⟩
  · intro q r hq hr hname
    rcases hmem.1 hq with hq | rfl <;> rcases hmem.1 hr with hr | rfl
    · obtain ⟨q', hq', _⟩ := hw.entry_known hq
      obtain ⟨r', hr', _⟩ := hw.entry_known hr
      rw [nameOf_push hq' properties, nameOf_push hr' properties] at hname
      exact hw.entry_names hq hr hname
    · rw [nameOf_added properties] at hname
      exact absurd hname (free hq)
    · rw [nameOf_added properties] at hname
      exact absurd hname.symm (free hr)
    · rfl

theorem Built.wellOwned (h : g.Built) : g.WellOwned := by
  induction h with
  | empty =>
    exact ⟨by simp [ownProperties, Graph.empty], by simp [ownProperties, Graph.empty],
      by simp [ownProperties, Graph.empty], by simp [Graph.empty], by simp [Graph.empty],
      by simp [Graph.empty]⟩
  | addClass _ fresh hadd hw =>
    obtain rfl := addClass_eq_ok hadd
    exact hw.congr (baseOf_push fresh) (ownProperties_push fresh) rfl rfl
  | addEnum _ hadd hw =>
    obtain rfl := addEnum_eq_ok hadd
    exact hw.congr rfl rfl rfl rfl
  | setBase hbuilt hset hw => exact hw.setBase hbuilt.forest hset
  | addProperty hbuilt hadd hw => exact hw.addProperty hbuilt.forest hadd
  | addContainerProperty _ hadd hw => exact hw.addContainerProperty hadd
  | @addMethod g g' owner m id _ hadd hw =>
    refine hw.congr (baseOf_addMethod hadd) ?_ ?_ ?_ <;> obtain rfl := addMethod_eq_ok hadd
    · exact ownProperties_modify (i := owner.index)
        (f := fun c => { c with methods := c.methods ++ [⟨g.methods.size⟩] }) rfl fun _ => rfl
    · rfl
    · rfl

/-! ## Methods -/

theorem parameters_nodup_of_addMethod {owner : ClassId} {m : Method} {id : MethodId}
    (h : g.addMethod owner m = .ok (g', id)) : (m.parameters.map (·.name)).Nodup := by
  unfold Graph.addMethod at h
  obtain ⟨c, _, h⟩ := Fallible.bind_eq_ok_iff.1 h
  split at h
  · cases h
  · rename_i hnone
    exact (Naming.firstRepeated_eq_none_iff.1 hnone).1

theorem Built.parameters_nodup (h : g.Built) :
    ∀ m ∈ g.methods, (m.parameters.map (·.name)).Nodup := by
  induction h with
  | empty => simp [Graph.empty]
  | addClass _ _ hadd ih =>
    obtain rfl := addClass_eq_ok hadd
    exact ih
  | addEnum _ hadd ih =>
    obtain rfl := addEnum_eq_ok hadd
    exact ih
  | setBase _ hset ih =>
    obtain ⟨_, _, _, _, _, _, _, _, _, _, _, _, rfl⟩ := setBase_eq_ok hset
    exact ih
  | addProperty _ hadd ih =>
    obtain ⟨_, _, _, _, _, _, rfl⟩ := addProperty_eq_ok hadd
    exact ih
  | addContainerProperty _ hadd ih =>
    obtain ⟨_, rfl⟩ := addContainerProperty_eq_ok hadd
    exact ih
  | addMethod _ hadd ih =>
    have distinct := parameters_nodup_of_addMethod hadd
    obtain rfl := addMethod_eq_ok hadd
    intro m hm
    rcases Array.mem_push.1 hm with hm | rfl
    · exact ih m hm
    · exact distinct

end Graph
end Schema
end EdmCommands
