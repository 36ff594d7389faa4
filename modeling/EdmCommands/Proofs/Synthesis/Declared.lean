import EdmCommands.Proofs.Synthesis.Body

/-!
# EdmCommands.Proofs.Synthesis.Declared

The sets and switches that types get in a command without any. They are in the order of the types,
and each type has its own, as long as no two types have the same qualified name; two that do share
a set.

* `Declared`: sets and switches for types, one after the other.
* `declareTypes_eq`: those that a command gets.
* `SetsDiffer`: no two sets are for types of one name, whatever the types are called.
-/

namespace EdmCommands
namespace Synthesis

open Schema

/-- The sets and switches of types. The base has no switch. -/
inductive Declared (base : ClassId) :
    List ConcreteType → List ParameterSet → List Parameter → Prop where
  | nil : Declared base [] [] []
  | base {t : ConcreteType} {types : List ConcreteType} {sets : List ParameterSet}
      {switches : List Parameter} (set : String) :
      t.id = base → Declared base types sets switches →
      Declared base (t :: types) ({ name := set, derivedType := some t.qualified } :: sets) switches
  | derived {t : ConcreteType} {types : List ConcreteType} {sets : List ParameterSet}
      {switches : List Parameter} (set name : String) :
      t.id ≠ base → Declared base types sets switches →
      Declared base (t :: types) ({ name := set, derivedType := some t.qualified } :: sets)
        (typeSwitch name set t.qualified :: switches)

variable {base : ClassId} {c : Command} {t : ConcreteType} {types : List ConcreteType}

/-! ## Switches -/

@[simp] theorem typeSwitch_location (name set qualified : String) :
    (typeSwitch name set qualified).location = .typeDiscriminator := by
  simp [typeSwitch, Parameter.withDescription, Parameter.inSets]

@[simp] theorem typeSwitch_discriminator (name set qualified : String) :
    (typeSwitch name set qualified).discriminator = some qualified := rfl

theorem isSwitchFor_typeSwitch {name set qualified other : String} :
    isSwitchFor other (typeSwitch name set qualified) = true ↔ qualified = other := by
  simp [isSwitchFor]

/-- What a switch is: it must be given in its set and belongs to no other one. -/
theorem typeSwitch_spec (name set qualified : String) :
    (typeSwitch name set qualified).mandatory = true ∧
      (typeSwitch name set qualified).type = .switch ∧
      (typeSwitch name set qualified).membership = .only (.ofList [set]) := by
  simp [typeSwitch, Parameter.withDescription, Parameter.inSets]

/-! ## One type after the other -/

theorem declareType_eq (base : ClassId) (freshSet : ∀ s ∈ c.sets, s.derivedType ≠ some t.qualified)
    (freshSwitch : ∀ p ∈ c.parameters, isSwitchFor t.qualified p = false) :
    ∃ set name, declareType base c t =
      ({ c with
        sets := c.sets ++ [{ name := set, derivedType := some t.qualified }]
        parameters := c.parameters ++
          if t.id = base then [] else [typeSwitch name set t.qualified] }, set) := by
  have none_found : c.sets.find? (·.derivedType == some t.qualified) = none :=
    List.find?_eq_none.2 fun s hs => by simpa using freshSet s hs
  have no_switch : c.parameters.any (isSwitchFor t.qualified) = false :=
    List.any_eq_false.2 fun p hp => by simp [freshSwitch p hp]
  refine ⟨Naming.freshName (Naming.pascalCase t.name) c.setNames,
    Naming.freshName (Naming.freshName (Naming.pascalCase t.name) c.setNames) c.parameterNames, ?_⟩
  unfold declareType ensureSet
  rw [none_found]
  dsimp only
  split
  · rw [List.append_nil]
  · unfold ensureSwitch
    dsimp only
    rw [no_switch]
    rfl

theorem declareTypes_eq (base : ClassId) (distinct : (types.map (·.qualified)).Nodup)
    (freshSets : ∀ t ∈ types, ∀ s ∈ c.sets, s.derivedType ≠ some t.qualified)
    (freshSwitches : ∀ t ∈ types, ∀ p ∈ c.parameters, isSwitchFor t.qualified p = false) :
    ∃ sets switches, Declared base types sets switches ∧
      declareTypes base c types =
        ({ c with sets := c.sets ++ sets, parameters := c.parameters ++ switches },
          (types.map (·.id)).zip (sets.map (·.name))) := by
  induction types generalizing c with
  | nil => exact ⟨[], [], .nil, by simp [declareTypes]⟩
  | cons t types ih =>
    rw [List.forall_mem_cons] at freshSets freshSwitches
    obtain ⟨hfree, hdistinct⟩ := List.nodup_cons.1 distinct
    obtain ⟨set, name, hdeclared⟩ := declareType_eq base freshSets.1 freshSwitches.1
    have other : ∀ u ∈ types, t.qualified ≠ u.qualified := fun u hu heq =>
      hfree (List.mem_map.2 ⟨u, hu, heq.symm⟩)
    -- What is declared for the first type is not what the others look for.
    obtain ⟨sets, switches, hrest, hall⟩ := ih (c := (declareType base c t).1) hdistinct
      (by
        intro u hu s hs
        rw [hdeclared] at hs
        rcases List.mem_append.1 hs with hs | hs
        · exact freshSets.2 u hu s hs
        · rw [List.mem_singleton.1 hs]
          exact fun heq => other u hu (Option.some.inj heq))
      (by
        intro u hu p hp
        rw [hdeclared] at hp
        rcases List.mem_append.1 hp with hp | hp
        · exact freshSwitches.2 u hu p hp
        · split at hp
          · cases hp
          · rw [List.mem_singleton.1 hp, Bool.eq_false_iff, ne_eq, isSwitchFor_typeSwitch]
            exact other u hu)
    rw [hdeclared] at hall
    unfold declareTypes
    rw [hdeclared]
    simp only [hall, List.append_assoc]
    by_cases hbase : t.id = base
    · exact ⟨_, _, .base set hbase hrest, by simp [hbase]⟩
    · exact ⟨_, _, .derived set name hbase hrest, by simp [hbase]⟩

namespace Declared

variable {sets : List ParameterSet} {switches : List Parameter}

theorem derivedTypes (h : Declared base types sets switches) :
    sets.map (·.derivedType) = types.map fun t => some t.qualified := by
  induction h with
  | nil => rfl
  | base set _ _ ih => rw [List.map_cons, List.map_cons, ih]
  | derived set name _ _ ih => rw [List.map_cons, List.map_cons, ih]

theorem of_mem_switches (h : Declared base types sets switches) :
    ∀ p ∈ switches, ∃ name set, ∃ t ∈ types, p = typeSwitch name set t.qualified := by
  induction h with
  | nil => simp
  | base set _ _ ih =>
    intro p hp
    obtain ⟨name, set, t, ht, rfl⟩ := ih p hp
    exact ⟨name, set, t, List.mem_cons_of_mem _ ht, rfl⟩
  | derived set name _ _ ih =>
    intro p hp
    rcases List.mem_cons.1 hp with rfl | hp
    · exact ⟨name, set, _, List.mem_cons_self, rfl⟩
    · obtain ⟨name, set, t, ht, rfl⟩ := ih p hp
      exact ⟨name, set, t, List.mem_cons_of_mem _ ht, rfl⟩

theorem no_switch (h : Declared base types sets switches) {qualified : String}
    (free : qualified ∉ types.map (·.qualified)) :
    switches.filter (isSwitchFor qualified) = [] := by
  refine List.filter_eq_nil_iff.2 fun p hp => ?_
  obtain ⟨name, set, t, ht, rfl⟩ := h.of_mem_switches p hp
  rw [isSwitchFor_typeSwitch]
  rintro rfl
  exact free (List.mem_map_of_mem ht)

/-- A type other than the base has one switch, for its own set. -/
theorem switches_eq (h : Declared base types sets switches)
    (distinct : (types.map (·.qualified)).Nodup) {set : String}
    (hset : (t, set) ∈ types.zip (sets.map (·.name))) (hbase : t.id ≠ base) :
    ∃ name, switches.filter (isSwitchFor t.qualified) = [typeSwitch name set t.qualified] := by
  induction h with
  | nil => cases hset
  | @base u types sets switches own hown hrest ih =>
    obtain ⟨_, hdistinct⟩ := List.nodup_cons.1 distinct
    rcases List.mem_cons.1 hset with heq | hset
    · cases heq
      exact absurd hown hbase
    · exact ih hdistinct hset
  | @derived u types sets switches own name hown hrest ih =>
    obtain ⟨hfree, hdistinct⟩ := List.nodup_cons.1 distinct
    rcases List.mem_cons.1 hset with heq | hset
    · cases heq
      refine ⟨name, ?_⟩
      rw [List.filter_cons_of_pos (isSwitchFor_typeSwitch.2 rfl), hrest.no_switch hfree]
    · have other : ¬ isSwitchFor t.qualified (typeSwitch name own u.qualified) = true := by
        rw [isSwitchFor_typeSwitch]
        intro heq
        exact hfree (List.mem_map.2 ⟨t, (List.of_mem_zip hset).1, heq.symm⟩)
      rw [List.filter_cons_of_neg other]
      exact ih hdistinct hset

end Declared

/-! ## Sets stay apart -/

/-- No two sets are for types of one name, and none have one name themselves. -/
structure SetsDiffer (c : Command) : Prop where
  types : (c.sets.map (·.derivedType)).Nodup
  names : c.setNames.Nodup

namespace SetsDiffer

theorem of_sets_nil (h : c.sets = []) : SetsDiffer c :=
  ⟨by simp [h], by simp [h, Command.setNames]⟩

theorem ensureSet (h : SetsDiffer c) : SetsDiffer (Synthesis.ensureSet c t).1 := by
  unfold Synthesis.ensureSet
  split
  · exact h
  · rename_i hnone
    constructor
    · rw [List.map_append, List.nodup_append]
      refine ⟨h.types, by simp, fun a ha b hb hab => ?_⟩
      obtain ⟨s, hs, rfl⟩ := List.mem_map.1 ha
      rw [List.map_singleton, List.mem_singleton] at hb
      have := List.find?_eq_none.1 hnone s hs
      simp [hab, hb] at this
    · rw [Command.setNames, List.map_append, List.nodup_append]
      refine ⟨h.names, by simp, fun a ha b hb hab => ?_⟩
      rw [List.map_singleton, List.mem_singleton] at hb
      rw [hab, hb] at ha
      exact Naming.freshName_not_mem _ _ ha

theorem declareType (h : SetsDiffer c) : SetsDiffer (Synthesis.declareType base c t).1 := by
  have sets : (Synthesis.declareType base c t).1.sets = (Synthesis.ensureSet c t).1.sets := by
    unfold Synthesis.declareType ensureSwitch
    dsimp only
    split
    · rfl
    · split <;> rfl
  exact ⟨by rw [sets]; exact h.ensureSet.types,
    by rw [Command.setNames, sets]; exact h.ensureSet.names⟩

theorem declareTypes (h : SetsDiffer c) (base : ClassId) (types : List ConcreteType) :
    SetsDiffer (Synthesis.declareTypes base c types).1 := by
  induction types generalizing c with
  | nil => exact h
  | cons t types ih => exact ih h.declareType

end SetsDiffer

end Synthesis
end EdmCommands
