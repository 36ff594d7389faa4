import EdmCommands.Proofs.Schema.Operations
import EdmCommands.Proofs.Synthesis.Declared
import EdmCommands.Proofs.Synthesis.Fields
import EdmCommands.Proofs.Synthesis.Hierarchy

/-!
# EdmCommands.Proofs.Synthesis.Resolved

What a resolved body says about a hierarchy. Seen from above, a property of a class goes to the
sets of the classes below; seen from a set, it has the properties that its class has or inherits.
The two views are one, as long as the classes that share a body have different names.

* `BodyExact`: the sets, fields and switches that a hierarchy calls for.
* `mem_entries_iff`: the entries of a set are the properties of its class.
* `resolve_exact_iff`: resolving is exact just when the concrete classes have different names.
-/

namespace EdmCommands
namespace Synthesis

open Schema

/-- The set has the fields of the properties of its class that can be sent, and the class has a
switch that is for this set only, unless it is the base. -/
structure SetExact (g : Graph) (base : ClassId) (operation : OperationKind) (c : Command)
    (d : ClassId) (set : String) : Prop where
  fields : ∃ ids, g.allProperties d = .ok ids ∧
    (∀ p ∈ ids, g.keyProperty base ≠ .ok (some p) → g.keyProperty d ≠ .ok (some p) →
      (HasField c (g.nameOf p) set ↔ Sendable g operation p)) ∧
    ∀ q ∈ c.parameters, q.location = .body → q.isIn set = true →
      ∃ p ∈ ids, g.nameOf p = q.effectiveWireName
  switch : d ≠ base → ∃ q, c.parameters.filter (isSwitchFor (g.qualify (g.className d))) = [q] ∧
    q.mandatory = true ∧ q.type = .switch ∧ q.membership = .only (.ofList [set])

/-- The sets are for the concrete classes of the hierarchy, breadth first, and each says of its
class what it should. No two fields have one name in the request. -/
structure BodyExact (g : Graph) (base : ClassId) (operation : OperationKind) (c : Command) :
    Prop where
  types : c.sets.map (·.derivedType) =
    (g.concrete base).map fun d => some (g.qualify (g.className d))
  names : c.setNames.Nodup
  sets : ∀ d set, (d, set) ∈ (g.concrete base).zip c.setNames →
    SetExact g base operation c d set
  wires : (wireNames c).Nodup

variable {g : Graph} {base d id : ClassId} {c c' : Command} {set : String}

/-! ## From above and from below -/

theorem lookup_eq_some_iff_mem {sets : List (ClassId × String)}
    (nodup : (sets.map (·.1)).Nodup) : sets.lookup id = some set ↔ (id, set) ∈ sets := by
  refine ⟨mem_of_lookup, fun h => ?_⟩
  obtain ⟨front, back, rfl⟩ := List.append_of_mem h
  refine List.lookup_eq_some_iff.2 ⟨front, back, rfl, fun entry hentry => ?_⟩
  rw [List.map_append, List.nodup_append] at nodup
  have apart := nodup.2.2 entry.1 (List.mem_map_of_mem hentry) id (by simp)
  simpa using fun heq => apart heq.symm

theorem mem_setsBelow_iff (hf : g.Forest) (known : g.IsClass id)
    {sets : List (ClassId × String)} (nodup : (sets.map (·.1)).Nodup) :
    set ∈ setsBelow g sets id ↔ ∃ d, g.Within d id ∧ (d, set) ∈ sets := by
  rw [mem_setsBelow, subtree_eq hf known]
  simp only [Graph.mem_hierarchy_iff hf, lookup_eq_some_iff_mem nodup]

/-- A class has or inherits just those properties that some class between it and the base stands
for. -/
theorem exists_standsFor_iff (within : g.Within d base) {p : PropertyId} :
    (∃ id, g.Within id base ∧ g.Within d id ∧ StandsFor g base id p) ↔
      ∃ owner, g.Within d owner ∧ p ∈ g.ownProperties owner := by
  constructor
  · rintro ⟨id, _, hid, owner, hp, rfl | ⟨rfl, hbase⟩⟩
    · exact ⟨owner, hid, hp⟩
    · exact ⟨owner, hid.trans hbase, hp⟩
  · rintro ⟨owner, howner, hp⟩
    rcases within.linear howner with habove | hbelow
    · exact ⟨base, .inl rfl, within, owner, hp, .inr ⟨rfl, habove⟩⟩
    · exact ⟨owner, hbelow, howner, owner, hp, .inl rfl⟩

theorem mem_entries_iff (hf : g.Forest) (known : g.IsClass base) {key : Option PropertyId}
    {sets : List (ClassId × String)} (nodup : (sets.map (·.1)).Nodup)
    (within : ∀ entry ∈ sets, g.Within entry.1 base) {entries : List BodyEntry}
    (h : bodyEntries g base key sets (base :: g.below base) = .ok entries) {p : PropertyId} :
    (∃ entry ∈ entries, entry.property = p ∧ set ∈ entry.sets) ↔
      some p ≠ key ∧ ∃ d, (d, set) ∈ sets ∧
        ∃ owner, g.Within d owner ∧ p ∈ g.ownProperties owner := by
  rw [mem_bodyEntries_iff hf h]
  constructor
  · rintro ⟨id, hid, hset, hstands, hkey⟩
    rw [mem_setsBelow_iff hf (isClass_of_mem_hierarchy hf known id hid) nodup] at hset
    obtain ⟨d, hd, hset⟩ := hset
    rw [Graph.mem_hierarchy_iff hf] at hid
    exact ⟨hkey, d, hset, (exists_standsFor_iff (within _ hset)).1 ⟨id, hid, hd, hstands⟩⟩
  · rintro ⟨hkey, d, hset, howner⟩
    obtain ⟨id, hid, hd, hstands⟩ := (exists_standsFor_iff (within _ hset)).2 howner
    rw [← Graph.mem_hierarchy_iff hf] at hid
    refine ⟨id, hid, ?_, hstands, hkey⟩
    exact (mem_setsBelow_iff hf (isClass_of_mem_hierarchy hf known id hid) nodup).2 ⟨d, hd, hset⟩

/-- A class has no two properties of one name. -/
theorem property_unique (hw : g.WellOwned) {p q : PropertyId}
    (hp : ∃ owner, g.Within d owner ∧ p ∈ g.ownProperties owner)
    (hq : ∃ owner, g.Within d owner ∧ q ∈ g.ownProperties owner)
    (heq : g.nameOf p = g.nameOf q) : p = q := by
  obtain ⟨x, hx, hp⟩ := hp
  obtain ⟨y, hy, hq⟩ := hq
  rcases hx.linear hy with h | h
  · exact (hw.own_names h hq hp heq.symm).symm
  · exact hw.own_names h hp hq heq

/-! ## Types with different names -/

theorem qualify_injective (g : Graph) : Function.Injective g.qualify := by
  intro a b h
  unfold Graph.qualify at h
  split at h
  · exact h
  · have letters := congrArg String.toList h
    simp only [String.toList_append, List.append_cancel_left_eq] at letters
    exact String.toList_inj.1 letters

/-- What is declared for the concrete classes, when they have different names. -/
structure Declares (g : Graph) (base : ClassId) (c : Command) (sets : List (ClassId × String))
    (c' : Command) : Prop where
  operation : c'.operation = c.operation
  sets_eq : sets = (g.concrete base).zip c'.setNames
  types : c'.sets.map (·.derivedType) =
    (g.concrete base).map fun d => some (g.qualify (g.className d))
  noFields : ∀ q ∈ c'.parameters, q.location ≠ .body
  switch : ∀ d set, (d, set) ∈ sets → d ≠ base →
    ∃ name, c'.parameters.filter (isSwitchFor (g.qualify (g.className d))) =
      [typeSwitch name set (g.qualify (g.className d))]

namespace Declares

variable {sets : List (ClassId × String)}

theorem length_eq (h : Declares g base c sets c') :
    (g.concrete base).length = c'.setNames.length := by
  have := congrArg List.length h.types
  simpa [Command.setNames] using this.symm

theorem classes (h : Declares g base c sets c') : sets.map (·.1) = g.concrete base := by
  rw [h.sets_eq]
  exact List.map_fst_zip (Nat.le_of_eq h.length_eq)

theorem names (h : Declares g base c sets c') : sets.map (·.2) = c'.setNames := by
  rw [h.sets_eq]
  exact List.map_snd_zip (Nat.le_of_eq h.length_eq.symm)

theorem within (h : Declares g base c sets c') (hf : g.Forest) :
    ∀ entry ∈ sets, g.Within entry.1 base := by
  intro entry hentry
  have hmem : entry.1 ∈ g.concrete base := by
    rw [← h.classes]
    exact List.mem_map_of_mem hentry
  exact ((Graph.mem_concrete_iff hf).1 hmem).1

end Declares

theorem declareTypes_declares (distinct : ((g.concrete base).map g.className).Nodup)
    (noSets : c.sets = []) (paths : ∀ p ∈ c.parameters, p.location = .path) :
    Declares g base c (declareTypes base c ((g.concrete base).map (concreteType g))).2
      (declareTypes base c ((g.concrete base).map (concreteType g))).1 := by
  have ids : ((g.concrete base).map (concreteType g)).map (·.id) = g.concrete base := by
    simp [Function.comp_def, concreteType]
  have qualified : ((g.concrete base).map (concreteType g)).map (·.qualified) =
      ((g.concrete base).map g.className).map g.qualify := by
    simp [Function.comp_def, concreteType]
  have different : (((g.concrete base).map (concreteType g)).map (·.qualified)).Nodup := by
    rw [qualified]
    exact distinct.map (qualify_injective g)
  have noSwitch : ∀ q : String, ∀ p ∈ c.parameters, isSwitchFor q p = false := by
    intro q p hp
    simp [isSwitchFor, paths p hp]
  obtain ⟨sets, switches, hdeclared, heq⟩ := declareTypes_eq base different
    (c := c) (by simp [noSets]) (fun t _ => noSwitch t.qualified)
  rw [heq, ids]
  refine ⟨rfl, ?_, ?_, ?_, ?_⟩
  · simp [Command.setNames, noSets]
  · simp [noSets, hdeclared.derivedTypes, Function.comp_def, concreteType]
  · intro q hq
    rcases List.mem_append.1 hq with hq | hq
    · rw [paths q hq]
      exact ParameterLocation.noConfusion
    · obtain ⟨name, set, t, _, rfl⟩ := hdeclared.of_mem_switches q hq
      rw [typeSwitch_location]
      exact ParameterLocation.noConfusion
  · intro d set hset hbase
    have none_before : c.parameters.filter (isSwitchFor (g.qualify (g.className d))) = [] :=
      List.filter_eq_nil_iff.2 fun p hp => by simp [noSwitch _ p hp]
    have hzip : (concreteType g d, set) ∈
        ((g.concrete base).map (concreteType g)).zip (sets.map (·.name)) := by
      rw [List.zip_map_left]
      exact List.mem_map.2 ⟨_, hset, rfl⟩
    dsimp only
    rw [List.filter_append, none_before, List.nil_append]
    exact hdeclared.switches_eq different hzip hbase

/-! ## Exactness -/

theorem chooseDefault_rest (c : Command) (sets : List String) :
    (chooseDefault c sets).parameters = c.parameters ∧
      (chooseDefault c sets).setNames = c.setNames ∧
      (chooseDefault c sets).sets.map (·.derivedType) = c.sets.map (·.derivedType) := by
  unfold chooseDefault
  split
  · exact ⟨rfl, by simp [Command.setNames, Function.comp_def], by simp [Function.comp_def]⟩
  · exact ⟨rfl, rfl, rfl⟩

/-- The stages of a resolved body, for a built graph. -/
theorem stages_of_resolve (hb : g.Built) (h : resolve g base c = (c', none)) :
    ∃ key entries merged,
      g.keyProperty base = .ok key ∧ g.IsClass base ∧
      bodyEntries g base key
        (declareTypes base c ((g.concrete base).map (concreteType g))).2
        (base :: g.below base) = .ok entries ∧
      mergeEntries g (declareTypes base c ((g.concrete base).map (concreteType g))).1 entries =
        (merged, none) ∧
      c' = chooseDefault merged
        ((declareTypes base c ((g.concrete base).map (concreteType g))).2.map (·.2)) := by
  obtain ⟨order, types, key, entries, merged, horder, htypes, _, hkey, hentries, hmerged, rfl⟩ :=
    resolve_eq_ok h
  have known := isClass_of_hierarchy horder
  obtain rfl := concreteTypes_of_hierarchy hb.forest horder htypes
  rw [hierarchy_eq hb.forest known] at horder
  cases horder
  exact ⟨key, entries, merged, hkey, known, hentries, hmerged, rfl⟩

/-- What a resolved body has of what was merged into it. -/
theorem resolve_parts (hb : g.Built) (h : resolve g base c = (c', none)) :
    ∃ key entries merged,
      g.keyProperty base = .ok key ∧ g.IsClass base ∧
      bodyEntries g base key
        (declareTypes base c ((g.concrete base).map (concreteType g))).2
        (base :: g.below base) = .ok entries ∧
      Merges g (declareTypes base c ((g.concrete base).map (concreteType g))).1 entries merged ∧
      c'.parameters = merged.parameters ∧ c'.setNames = merged.setNames ∧
      c'.sets.map (·.derivedType) = merged.sets.map (·.derivedType) := by
  obtain ⟨key, entries, merged, hkey, known, hentries, hmerged, rfl⟩ := stages_of_resolve hb h
  exact ⟨key, entries, merged, hkey, known, hentries, mergeEntries_merges hmerged,
    chooseDefault_rest _ _⟩

/-- A set has a field for each property of its class that can be sent, but for the key. -/
theorem hasField_iff {declared : Command} (hf : g.Forest) (known : g.IsClass base)
    {key : Option PropertyId} {sets : List (ClassId × String)} {entries : List BodyEntry}
    (declares : Declares g base c sets declared) (differ : SetsDiffer declared)
    (h : bodyEntries g base key sets (base :: g.below base) = .ok entries)
    (merges : Merges g declared entries c') (hset : (d, set) ∈ sets) {wire : String} :
    HasField c' wire set ↔ ∃ p, g.nameOf p = wire ∧ Sendable g c.operation p ∧ some p ≠ key ∧
      ∃ owner, g.Within d owner ∧ p ∈ g.ownProperties owner := by
  have classes : (sets.map (·.1)).Nodup := by
    rw [declares.classes]
    exact Graph.nodup_concrete hf
  have names : (sets.map (·.2)).Nodup := by
    rw [declares.names]
    exact differ.names
  have none_before : ¬ HasField declared wire set := by
    rintro ⟨q, hq, hfield, _⟩
    exact declares.noFields q hq (isBodyField_iff.1 hfield).1
  rw [merges.fields, declares.operation]
  constructor
  · rintro (hfield | ⟨entry, hentry, hsend, hname, hmem⟩)
    · exact absurd hfield none_before
    obtain ⟨hkey, other, hother, howner⟩ :=
      (mem_entries_iff hf known classes (declares.within hf) h).1 ⟨entry, hentry, rfl, hmem⟩
    -- A set is for one class only.
    obtain rfl : other = d :=
      congrArg Prod.fst (List.inj_on_of_nodup_map names hother hset rfl)
    exact ⟨entry.property, hname, hsend, hkey, howner⟩
  · rintro ⟨p, hname, hsend, hkey, howner⟩
    obtain ⟨entry, hentry, rfl, hmem⟩ :=
      (mem_entries_iff hf known classes (declares.within hf) h).2 ⟨hkey, d, hset, howner⟩
    exact .inr ⟨entry, hentry, hsend, hname, hmem⟩

/-- The fields of a set, told by name, tell which properties of the class are sent. -/
theorem fields_exact (hb : g.Built) (known : g.IsClass d) {key : Option PropertyId}
    (hkey : g.keyProperty base = .ok key) {operation : OperationKind}
    (field : ∀ wire, HasField c wire set ↔ ∃ p, g.nameOf p = wire ∧ Sendable g operation p ∧
      some p ≠ key ∧ ∃ owner, g.Within d owner ∧ p ∈ g.ownProperties owner) :
    ∃ ids, g.allProperties d = .ok ids ∧
      (∀ p ∈ ids, g.keyProperty base ≠ .ok (some p) → g.keyProperty d ≠ .ok (some p) →
        (HasField c (g.nameOf p) set ↔ Sendable g operation p)) ∧
      ∀ q ∈ c.parameters, q.location = .body → q.isIn set = true →
        ∃ p ∈ ids, g.nameOf p = q.effectiveWireName := by
  obtain ⟨above, hchain⟩ := hb.forest.chain d
  have hids := Graph.allProperties_eq hb.forest known hchain
  have mem_ids {p : PropertyId} := Graph.mem_allProperties_iff (p := p) hb.forest hids
  refine ⟨_, hids, ?_, ?_⟩
  · intro p hp hbase _
    rw [field]
    constructor
    · rintro ⟨q, hname, hsend, _, howner⟩
      obtain rfl := property_unique hb.wellOwned howner (mem_ids.1 hp) hname
      exact hsend
    · intro hsend
      refine ⟨p, rfl, hsend, ?_, mem_ids.1 hp⟩
      rintro rfl
      exact hbase hkey
  · intro q hq hlocation hin
    obtain ⟨p, hname, _, _, howner⟩ := (field _).1 ⟨q, hq, isBodyField_iff.2 ⟨hlocation, rfl⟩, hin⟩
    exact ⟨p, mem_ids.2 howner, hname⟩

/-- With different names the sets are exact, whatever else the graph looks like. -/
theorem bodyExact_of_distinct (hb : g.Built) (noSets : c.sets = [])
    (paths : ∀ p ∈ c.parameters, p.location = .path) (h : resolve g base c = (c', none))
    (distinct : ((g.concrete base).map g.className).Nodup) :
    BodyExact g base c.operation c' := by
  obtain ⟨key, entries, merged, hkey, known, hentries, hmerges, parameters, names, types⟩ :=
    resolve_parts hb h
  have hdeclares := declareTypes_declares distinct noSets paths
  have hdiffer := (SetsDiffer.of_sets_nil noSets).declareTypes base
    ((g.concrete base).map (concreteType g))
  generalize (declareTypes base c ((g.concrete base).map (concreteType g))).2 = sets at *
  generalize (declareTypes base c ((g.concrete base).map (concreteType g))).1 = declared at *
  have setNames : c'.setNames = declared.setNames := by
    rw [names, Command.setNames, hmerges.sets, Command.setNames]
  refine ⟨by rw [types, hmerges.sets, hdeclares.types], by rw [setNames]; exact hdiffer.names,
    fun d set hset => ?_, ?_⟩
  · rw [setNames, ← hdeclares.sets_eq] at hset
    have hclass : g.IsClass d := isClass_of_mem_hierarchy hb.forest known d
      ((Graph.mem_hierarchy_iff hb.forest).2 (hdeclares.within hb.forest _ hset))
    constructor
    · refine fields_exact hb hclass hkey fun wire => ?_
      rw [HasField, parameters]
      exact hasField_iff hb.forest known hdeclares hdiffer hentries hmerges hset
    · intro hbase
      obtain ⟨name, hswitch⟩ := hdeclares.switch d set hset hbase
      exact ⟨_, by rw [parameters, hmerges.switches, hswitch], typeSwitch_spec _ _ _⟩
  · have none_before : wireNames declared = [] := by
      rw [wireNames, List.map_eq_nil_iff, List.filter_eq_nil_iff]
      intro q hq
      simpa using hdeclares.noFields q hq
    rw [wireNames, parameters]
    refine hmerges.wires ?_
    rw [none_before]
    exact List.nodup_nil

/-- Types of one name share a set, so a hierarchy that has two is missing one. -/
theorem distinct_of_bodyExact (noSets : c.sets = []) (h : resolve g base c = (c', none))
    (exact_body : BodyExact g base c.operation c') :
    ((g.concrete base).map g.className).Nodup := by
  obtain ⟨order, types, key, entries, merged, _, _, _, _, _, hmerged, rfl⟩ := resolve_eq_ok h
  have hdiffer := (SetsDiffer.of_sets_nil noSets).declareTypes base types
  have nodup := hdiffer.types
  rw [← (mergeEntries_merges hmerged).sets, ← (chooseDefault_rest merged _).2.2,
    exact_body.types] at nodup
  refine List.Nodup.of_map (fun name => some (g.qualify name)) ?_
  simpa [Function.comp_def] using nodup

/-- Resolving a command without sets and fields is exact just when the concrete classes of the
hierarchy have different names. -/
theorem resolve_exact_iff (hb : g.Built) (noSets : c.sets = [])
    (paths : ∀ p ∈ c.parameters, p.location = .path) (h : resolve g base c = (c', none)) :
    BodyExact g base c.operation c' ↔ ((g.concrete base).map g.className).Nodup :=
  ⟨distinct_of_bodyExact noSets h, bodyExact_of_distinct hb noSets paths h⟩

/-- A command that makes an item, without a body. -/
def newItem : Command :=
  { name := ⟨.new, "Item"⟩
    operation := .post
    httpMethod := .post
    urlTemplate := "items"
    route := "items" }

theorem resolve_exact_library :
    ∃ c', resolve Graph.library ⟨0⟩ newItem = (c', none) ∧ c'.setNames = ["Book", "Disc"] ∧
      BodyExact Graph.library ⟨0⟩ .post c' := by
  have done : (resolve Graph.library ⟨0⟩ newItem).2 = none := by decide +kernel
  have h : resolve Graph.library ⟨0⟩ newItem =
      ((resolve Graph.library ⟨0⟩ newItem).1, none) := Prod.ext rfl done
  exact ⟨_, h, by decide +kernel,
    (resolve_exact_iff Graph.library_built rfl (by simp [newItem]) h).2 (by decide +kernel)⟩

/-- In a graph with two classes of one name the body of the class above has one set for both. -/
theorem resolve_twins_inexact :
    ¬ ∀ (g : Graph) (base : ClassId) (c c' : Command), g.Built → c.sets = [] →
      (∀ p ∈ c.parameters, p.location = .path) → resolve g base c = (c', none) →
        BodyExact g base c.operation c' := by
  intro exact_body
  have done : (resolve Graph.twins ⟨0⟩ newItem).2 = none := by decide +kernel
  have h := exact_body Graph.twins ⟨0⟩ newItem (resolve Graph.twins ⟨0⟩ newItem).1
    Graph.twins_built rfl (by simp [newItem]) (Prod.ext rfl done)
  have one : (resolve Graph.twins ⟨0⟩ newItem).1.sets.length = 1 := by decide +kernel
  have two : (Graph.twins.concrete ⟨0⟩).length = 2 := by decide +kernel
  have same := congrArg List.length h.types
  rw [List.length_map, List.length_map, one, two] at same
  omega

end Synthesis
end EdmCommands
