import EdmCommands.Proofs.Synthesis.Heads
import EdmCommands.Proofs.Synthesis.Resolved
import EdmCommands.Proofs.Synthesis.Settled

/-!
# EdmCommands.Proofs.Synthesis.Defaults

Which parameter set of a create or update command is the default. A set is chosen by the number of
parameters that must be given in it, and these are the parameters of the path, the same in all sets,
and the switch for its type. So a set without a switch is the default, and where all sets have one,
the first of those with the fewest parameters is.

* `Switched`: what must be given in a set, through the types and the fields of a hierarchy.
* `Resolved`: how the default of a command relates to the sets for the concrete classes.
* `DefaultIntended`: the default is the set of the class of the route where this class is concrete,
  and else the smallest set.
* `defaultIntended_iff_of_commands`: the commands of a route have this default, unless the class has
  a namesake below and another set is smaller than its own.
* `not_defaultIntended_of_namesakes`: with a namesake the default may need a switch for no reason.
-/

namespace EdmCommands

namespace Synthesis

open Schema

/-- The number of parameters that must be given in a set. -/
def demands (c : Command) (set : String) : Nat :=
  c.parameters.countP fun p => p.isIn set && p.isMandatoryIn set

def hasSwitch (c : Command) (qualified : String) : Bool :=
  c.parameters.any (isSwitchFor qualified)

/-- The parameters that must be given are `n` in all sets, and a switch in the set of its type. -/
structure Switched (n : Nat) (c : Command) : Prop where
  differ : SetsDiffer c
  optional : ∀ p ∈ c.parameters, p.location = .body → ∀ set, p.isMandatoryIn set = false
  covered : ∀ qualified, hasSwitch c qualified = true → ∃ set, setFor c qualified = some set
  new : ∀ set, set ∉ c.setNames → demands c set = n
  own : ∀ qualified set, setFor c qualified = some set →
    demands c set = n + if hasSwitch c qualified then 1 else 0

def classSet (g : Graph) (c : Command) (d : ClassId) : Option String :=
  setFor c (g.qualify (g.className d))

/-- The number of parameters in the set for a class. -/
def setSize (g : Graph) (c : Command) (d : ClassId) : Nat :=
  ((classSet g c d).map fun set => (c.parametersIn set).length).getD 0

/-- The default set of the command is the one for the class. -/
def IsDefault (g : Graph) (c : Command) (d : ClassId) : Prop :=
  ∃ set, classSet g c d = some set ∧ c.defaultSet.map (·.name) = some set

/-- The set for the class has the fewest parameters, and no class before it has one as small. -/
def FirstSmallest (g : Graph) (c : Command) (ds : List ClassId) (d : ClassId) : Prop :=
  ∃ front back, ds = front ++ d :: back ∧ (∀ e ∈ front, setSize g c d < setSize g c e) ∧
    ∀ e ∈ back, setSize g c d ≤ setSize g c e

/-- No switch is needed by default where the class of the route can be sent itself; else the
default is as short as can be. -/
def DefaultIntended (g : Graph) (base : ClassId) (c : Command) : Prop :=
  if g.isConcrete base then IsDefault g c base
  else ∃ d, FirstSmallest g c (g.concrete base) d ∧ IsDefault g c d

/-- A concrete class below another one has the same name. -/
def HasNamesake (g : Graph) (base : ClassId) : Prop :=
  ∃ d ∈ g.below base, g.isConcrete d = true ∧ g.className d = g.className base

variable {g : Graph} {base d : ClassId} {c c' : Command} {t : ConcreteType} {set name : String}
  {qualified : String} {n : Nat}

/-! ## Sets and switches -/

theorem of_setFor (h : setFor c qualified = some set) :
    ∃ s ∈ c.sets, s.derivedType = some qualified ∧ s.name = set := by
  obtain ⟨s, hs, hname⟩ := Option.map_eq_some_iff.1 h
  have htype := List.find?_some hs
  exact ⟨s, List.mem_of_find?_eq_some hs, by simpa using htype, hname⟩

theorem mem_setNames_of_setFor (h : setFor c qualified = some set) : set ∈ c.setNames := by
  obtain ⟨s, hs, _, rfl⟩ := of_setFor h
  exact List.mem_map_of_mem hs

/-- A set is for one type only. -/
theorem SetsDiffer.setFor_injective (h : SetsDiffer c) {other : String}
    (hset : setFor c qualified = some set) (hother : setFor c other = some set) :
    qualified = other := by
  obtain ⟨s, hs, htype, rfl⟩ := of_setFor hset
  obtain ⟨s', hs', htype', heq⟩ := of_setFor hother
  obtain rfl := List.inj_on_of_nodup_map h.names hs' hs heq
  exact Option.some.inj (htype.symm.trans htype')

theorem ensureSet_cases (c : Command) (t : ConcreteType) :
    (ensureSet c t).1 = c ∨
      setFor c t.qualified = none ∧ ∃ set, set ∉ c.setNames ∧
        (ensureSet c t).1 =
          { c with sets := c.sets ++ [{ name := set, derivedType := some t.qualified }] } := by
  unfold ensureSet
  split
  · exact .inl rfl
  · rename_i hnone
    refine .inr ⟨?_, _, Naming.freshName_not_mem _ _, rfl⟩
    rw [setFor, hnone]
    rfl

theorem ensureSwitch_cases (c : Command) (set : String) (t : ConcreteType) :
    hasSwitch c t.qualified = true ∧ ensureSwitch c set t = c ∨
      hasSwitch c t.qualified = false ∧ ∃ name, ensureSwitch c set t =
        { c with parameters := c.parameters ++ [typeSwitch name set t.qualified] } := by
  unfold ensureSwitch
  split
  · rename_i hswitch
    exact .inl ⟨hswitch, rfl⟩
  · rename_i hnone
    exact .inr ⟨by simpa [hasSwitch] using hnone, _, rfl⟩

theorem isIn_typeSwitch {other : String} :
    (typeSwitch name set qualified).isIn other = true ↔ other = set := by
  rw [Parameter.isIn, (typeSwitch_spec name set qualified).2.2]
  simp [SetMembership.contains]

theorem isMandatoryIn_typeSwitch (name set qualified other : String) :
    (typeSwitch name set qualified).isMandatoryIn other = true := by
  rw [Parameter.isMandatoryIn, (typeSwitch_spec name set qualified).1, Bool.true_or]

/-- A switch must be given in its set, and in no other one. -/
theorem demands_append_switch (other : String) :
    demands { c with parameters := c.parameters ++ [typeSwitch name set qualified] } other =
      demands c other + if other = set then 1 else 0 := by
  rw [demands, List.countP_append, List.countP_singleton, isMandatoryIn_typeSwitch, Bool.and_true]
  simp only [isIn_typeSwitch]
  rfl

theorem hasSwitch_append_switch (other : String) :
    hasSwitch { c with parameters := c.parameters ++ [typeSwitch name set qualified] } other =
      (hasSwitch c other || (qualified == other)) := by
  have last : isSwitchFor other (typeSwitch name set qualified) = (qualified == other) := by
    rw [Bool.eq_iff_iff, isSwitchFor_typeSwitch, beq_iff_eq]
  rw [hasSwitch, List.any_append, List.any_cons, List.any_nil, Bool.or_false, last]
  rfl

theorem setFor_append_set (other : String) (hnone : setFor c qualified = none) :
    setFor { c with sets := c.sets ++ [{ name := set, derivedType := some qualified }] } other =
      if other = qualified then some set else setFor c other := by
  unfold setFor at hnone ⊢
  rw [Option.map_eq_none_iff] at hnone
  rw [List.find?_append]
  by_cases hother : other = qualified
  · subst hother
    rw [hnone]
    simp
  · have last : [({ name := set, derivedType := some qualified } : ParameterSet)].find?
        (·.derivedType == some other) = none := by
      simp [Ne.symm hother]
    rw [last, Option.or_none, if_neg hother]

theorem hasSwitch_congr (h : ∀ qualified, c'.parameters.filter (isSwitchFor qualified) =
    c.parameters.filter (isSwitchFor qualified)) : hasSwitch c' = hasSwitch c := by
  funext qualified
  have heq := congrArg (·.any (isSwitchFor qualified)) (h qualified)
  simpa [hasSwitch, List.any_filter] using heq

theorem hasSwitch_of_paths (paths : ∀ p ∈ c.parameters, p.location = .path) :
    hasSwitch c qualified = false := by
  refine List.any_eq_false.2 fun p hp => ?_
  simp [isSwitchFor, paths p hp]

namespace Switched

theorem of_paths (noSets : c.sets = [])
    (paths : ∀ p ∈ c.parameters, p.location = .path ∧ p.membership = .all ∧ p.mandatory = true) :
    Switched c.parameters.length c where
  differ := .of_sets_nil noSets
  optional p hp hbody := by
    rw [(paths p hp).1] at hbody
    cases hbody
  covered qualified hswitch := by
    rw [hasSwitch_of_paths fun p hp => (paths p hp).1] at hswitch
    cases hswitch
  new set _ := by
    rw [demands, List.countP_eq_length]
    intro p hp
    obtain ⟨_, hall, hmandatory⟩ := paths p hp
    simp [Parameter.isIn, Parameter.isMandatoryIn, hall, hmandatory, SetMembership.contains]
  own qualified set hset := by
    simp [setFor, noSets] at hset

theorem ensureSet (h : Switched n c) (t : ConcreteType) :
    Switched n (Synthesis.ensureSet c t).1 := by
  have differ := h.differ.ensureSet (t := t)
  rcases ensureSet_cases c t with heq | ⟨hnone, set, hnew, heq⟩
  · rwa [heq]
  rw [heq] at differ ⊢
  -- no type gets a switch before it has a set
  have unswitched : hasSwitch c t.qualified = false := by
    rw [Bool.eq_false_iff]
    intro hswitch
    obtain ⟨set, hset⟩ := h.covered _ hswitch
    rw [hnone] at hset
    cases hset
  refine ⟨differ, h.optional, fun qualified hswitch => ?_, fun other hother => ?_,
    fun qualified other hother => ?_⟩
  · rw [setFor_append_set qualified hnone]
    split
    · exact ⟨set, rfl⟩
    · exact h.covered qualified hswitch
  · refine h.new other fun hmem => hother ?_
    rw [Command.setNames, List.map_append]
    exact List.mem_append_left _ hmem
  · rw [setFor_append_set qualified hnone] at hother
    split at hother
    · rename_i hsame
      cases hother
      have switch : hasSwitch
          { c with sets := c.sets ++ [{ name := set, derivedType := some t.qualified }] }
          qualified = false := hsame ▸ unswitched
      rw [switch]
      exact h.new set hnew
    · exact h.own qualified other hother

theorem ensureSwitch (h : Switched n c) (hset : setFor c t.qualified = some set) :
    Switched n (Synthesis.ensureSwitch c set t) := by
  rcases ensureSwitch_cases c set t with ⟨_, heq⟩ | ⟨hnone, name, heq⟩
  · rwa [heq]
  rw [heq]
  refine ⟨⟨h.differ.types, h.differ.names⟩, ?_, fun qualified hswitch => ?_,
    fun other hother => ?_, fun qualified other hother => ?_⟩
  · rw [List.forall_mem_append, List.forall_mem_singleton]
    refine ⟨h.optional, fun hbody => ?_⟩
    rw [typeSwitch_location] at hbody
    cases hbody
  · rw [hasSwitch_append_switch, Bool.or_eq_true, beq_iff_eq] at hswitch
    rcases hswitch with hswitch | rfl
    · exact h.covered qualified hswitch
    · exact ⟨set, hset⟩
  · have apart : other ≠ set := by
      rintro rfl
      exact hother (mem_setNames_of_setFor hset)
    rw [demands_append_switch, if_neg apart, Nat.add_zero]
    exact h.new other hother
  · rw [demands_append_switch, hasSwitch_append_switch, h.own qualified other hother]
    by_cases hsame : t.qualified = qualified
    · subst hsame
      obtain rfl := Option.some.inj (hother.symm.trans hset)
      simp [hnone]
    · have apart : other ≠ set := by
        rintro rfl
        exact hsame (h.differ.setFor_injective hset hother)
      simp [hsame, apart]

theorem declareType (h : Switched n c) (base : ClassId) (t : ConcreteType) :
    Switched n (Synthesis.declareType base c t).1 := by
  have hset := setFor_ensureSet c t
  unfold Synthesis.declareType
  dsimp only
  split
  · exact h.ensureSet t
  · exact (h.ensureSet t).ensureSwitch hset

theorem declareTypes (h : Switched n c) (base : ClassId) (types : List ConcreteType) :
    Switched n (Synthesis.declareTypes base c types).1 := by
  induction types generalizing c with
  | nil => exact h
  | cons t rest ih => exact ih (h.declareType base t)

theorem congr (h : Switched n c) (sets : c'.sets = c.sets)
    (optional : ∀ p ∈ c'.parameters, p.location = .body → ∀ set, p.isMandatoryIn set = false)
    (switches : ∀ qualified, c'.parameters.filter (isSwitchFor qualified) =
      c.parameters.filter (isSwitchFor qualified))
    (same : ∀ set, demands c' set = demands c set) : Switched n c' := by
  have hfor : setFor c' = setFor c := by
    funext qualified
    rw [setFor, sets, setFor]
  have hnames : c'.setNames = c.setNames := by
    rw [Command.setNames, sets, Command.setNames]
  have hswitch := hasSwitch_congr switches
  refine ⟨⟨sets ▸ h.differ.types, hnames ▸ h.differ.names⟩, optional, ?_, ?_, ?_⟩
  · rw [hswitch, hfor]
    exact h.covered
  · intro set hset
    rw [same]
    exact h.new set (hnames ▸ hset)
  · intro qualified set hset
    rw [same, hswitch]
    exact h.own qualified set (hfor ▸ hset)

theorem mergeProperty (h : Switched n c) (p : Property) (type : ParameterType)
    (sets : List String) (discriminator : Option String) :
    Switched n (Synthesis.mergeProperty c p type sets discriminator) := by
  have optional := h.optional
  -- what must be given is not among the fields of the body, neither before nor behind
  rcases mergeProperty_cases c p type sets discriminator with
    ⟨front, q, back, heq, hlocation, _, hmerged⟩ | ⟨_, hmerged⟩
  · rw [heq, List.forall_mem_append, List.forall_mem_cons] at optional
    have hq := optional.2.1 hlocation
    have hwide : ∀ set, (widen sets type discriminator q).isMandatoryIn set = false := hq
    refine h.congr mergeProperty_rest.2 ?_ switches_mergeProperty fun set => ?_
    · rw [hmerged, List.forall_mem_append, List.forall_mem_cons]
      exact ⟨optional.1, fun _ => hwide, optional.2.2⟩
    · rw [demands, hmerged, demands, heq]
      simp [hq, hwide]
  · have hadded : ∀ set, (newField c p type sets discriminator).isMandatoryIn set = false := by
      intro set
      simp [newField, Parameter.inSets, Parameter.isMandatoryIn, NameSet.contains, NameSet.empty]
    refine h.congr mergeProperty_rest.2 ?_ switches_mergeProperty fun set => ?_
    · rw [hmerged, List.forall_mem_append, List.forall_mem_singleton]
      exact ⟨optional, fun _ => hadded⟩
    · rw [demands, hmerged, List.countP_append, List.countP_singleton, hadded, Bool.and_false]
      rfl

theorem mergeEntry {entry : BodyEntry} (h : Switched n c)
    (hmerge : Synthesis.mergeEntry g c entry = .ok c') : Switched n c' := by
  obtain ⟨p, _, ⟨_, rfl⟩ | ⟨_, type, _, rfl⟩⟩ := mergeEntry_cases hmerge
  · exact h
  · exact h.mergeProperty p type entry.sets entry.discriminator

theorem mergeEntries {entries : List BodyEntry} (h : Switched n c)
    (hmerge : Synthesis.mergeEntries g c entries = (c', none)) : Switched n c' := by
  induction entries generalizing c with
  | nil =>
    cases hmerge
    exact h
  | cons entry rest ih =>
    unfold Synthesis.mergeEntries at hmerge
    split at hmerge
    · cases hmerge
    · rename_i merged hmerged
      exact ih (h.mergeEntry hmerged) hmerge

end Switched

/-! ## The types of a hierarchy -/

theorem hasSwitch_declareType_iff :
    hasSwitch (declareType base c t).1 qualified = true ↔
      hasSwitch c qualified = true ∨ t.id ≠ base ∧ t.qualified = qualified := by
  have kept : hasSwitch (ensureSet c t).1 = hasSwitch c := by
    rcases ensureSet_cases c t with heq | ⟨_, _, _, heq⟩
    · rw [heq]
    · rw [heq]
      rfl
  unfold declareType
  dsimp only
  split
  · rename_i hbase
    simp [kept, hbase]
  · rename_i hbase
    rcases ensureSwitch_cases (ensureSet c t).1 (ensureSet c t).2 t with
      ⟨hswitch, heq⟩ | ⟨_, name, heq⟩
    · rw [heq, kept, iff_self_or]
      rintro ⟨_, rfl⟩
      rwa [kept] at hswitch
    · rw [heq, hasSwitch_append_switch, kept, Bool.or_eq_true, beq_iff_eq]
      simp [hbase]

theorem hasSwitch_declareTypes_iff {types : List ConcreteType} :
    hasSwitch (declareTypes base c types).1 qualified = true ↔
      hasSwitch c qualified = true ∨ ∃ t ∈ types, t.id ≠ base ∧ t.qualified = qualified := by
  induction types generalizing c with
  | nil => simp [declareTypes]
  | cons t rest ih =>
    rw [declareTypes, List.exists_mem_cons_iff, ← or_assoc, ← hasSwitch_declareType_iff]
    exact ih

/-- Each type is told the set that the command has for it in the end. -/
theorem sets_declareTypes (base : ClassId) (c : Command) (types : List ConcreteType) :
    List.Forall₂ (fun t entry => entry.1 = t.id ∧
        setFor (declareTypes base c types).1 t.qualified = some entry.2)
      types (declareTypes base c types).2 := by
  induction types generalizing c with
  | nil => exact .nil
  | cons t rest ih =>
    refine .cons ⟨rfl, ?_⟩ (ih _)
    exact (declareTypes_keeps base _ rest).sets _ _ (declared_of_declareType base c t).1

/-! ## The default -/

/-- The set for a class, as it is offered as the default. -/
def classCandidate (g : Graph) (c : Command) (d : ClassId) : Selection.Candidate :=
  candidateOf c ((classSet g c d).getD "")

theorem mandatory_candidateOf (c : Command) (set : String) :
    (candidateOf c set).mandatory = demands c set := by
  simp only [candidateOf, Command.parametersIn, demands, List.countP_filter, Bool.and_comm]

theorem total_classCandidate (h : classSet g c d = some set) :
    (classCandidate g c d).total = setSize g c d := by
  rw [classCandidate, setSize, h]
  rfl

theorem setFor_chooseDefault (c : Command) (sets : List String) :
    setFor (chooseDefault c sets) = setFor c := by
  funext qualified
  unfold chooseDefault
  split
  · unfold setFor
    rw [List.find?_map, Option.map_map]
    rfl
  · rfl

theorem classSet_chooseDefault (c : Command) (sets : List String) :
    classSet g (chooseDefault c sets) = classSet g c := by
  funext d
  rw [classSet, setFor_chooseDefault, classSet]

theorem classCandidate_chooseDefault (c : Command) (sets : List String) :
    classCandidate g (chooseDefault c sets) = classCandidate g c := by
  funext d
  rw [classCandidate, classSet_chooseDefault, candidateOf_congr (chooseDefault_rest c sets).1,
    classCandidate]

theorem defaultSet_chooseDefault {sets : List String} {best : Selection.Candidate}
    (h : Selection.selectDefault (sets.map (candidateOf c)) = some best)
    (declared : best.name ∈ c.setNames) :
    (chooseDefault c sets).defaultSet.map (·.name) = some best.name := by
  obtain ⟨s, hs, hname⟩ := List.mem_map.1 declared
  cases hfound : c.sets.find? (·.name == best.name) with
  | none => exact absurd hname (by simpa using List.find?_eq_none.1 hfound s hs)
  | some s =>
    have hbest := List.find?_some hfound
    rw [beq_iff_eq] at hbest
    unfold chooseDefault
    rw [h, Command.defaultSet, List.find?_map, Option.map_map]
    change (c.sets.find? (·.name == best.name)).map (·.name) = some best.name
    rw [hfound, Option.map_some, hbest]

/-- Of the sets for some classes the default is the first one of least weight. -/
theorem exists_isDefault {ds : List ClassId} {sets : List String}
    (h : List.Forall₂ (fun d set => classSet g c d = some set) ds sets) (nonempty : sets ≠ []) :
    ∃ front d back, ds = front ++ d :: back ∧ IsDefault g (chooseDefault c sets) d ∧
      (∀ e ∈ front, (classCandidate g c d).weight < (classCandidate g c e).weight) ∧
      ∀ e ∈ back, (classCandidate g c d).weight ≤ (classCandidate g c e).weight := by
  have offered : sets.map (candidateOf c) = ds.map (classCandidate g c) := by
    refine Fallible.map_eq_map_of_forall₂ h fun d set hset => ?_
    rw [classCandidate, hset, Option.getD_some]
  have candidates : sets.map (candidateOf c) ≠ [] := by simpa using nonempty
  obtain ⟨best, hbest⟩ := Selection.exists_selectDefault candidates
  have hchosen := hbest
  rw [offered] at hchosen
  obtain ⟨front, d, back, rfl, rfl, hfront, hback⟩ := Selection.selectDefault_map hchosen
  obtain ⟨set, _, hset⟩ := Fallible.exists_of_mem_left h (a := d) (by simp)
  have hname : (classCandidate g c d).name = set := by
    rw [classCandidate, hset, Option.getD_some]
    rfl
  refine ⟨front, d, back, rfl, ⟨set, ?_, ?_⟩, hfront, hback⟩
  · rw [classSet_chooseDefault, hset]
  · rw [← hname]
    refine defaultSet_chooseDefault hbest ?_
    rw [hname]
    exact mem_setNames_of_setFor hset

/-- A class other than the base has a switch, and the base shares that of a namesake. -/
theorem demands_classSet {entries : List BodyEntry} {merged : Command}
    (paths : ∀ p ∈ c.parameters, p.location = .path) (hswitched : Switched n merged)
    (hmerges : Merges g (declareTypes base c ((g.concrete base).map (concreteType g))).1 entries
      merged) (hset : classSet g merged d = some set) :
    demands merged set =
      n + if ∃ e ∈ g.concrete base, e ≠ base ∧ g.className e = g.className d then 1 else 0 := by
  have hswitch : hasSwitch merged (g.qualify (g.className d)) = true ↔
      ∃ e ∈ g.concrete base, e ≠ base ∧ g.className e = g.className d := by
    rw [hasSwitch_congr hmerges.switches, hasSwitch_declareTypes_iff, hasSwitch_of_paths paths]
    simp [concreteType, (qualify_injective g).eq_iff]
  rw [hswitched.own _ _ hset]
  simp only [hswitch]

/-- What a resolved command says of the concrete classes of its hierarchy. -/
structure Resolved (g : Graph) (base : ClassId) (n : Nat) (c : Command) : Prop where
  sets : ∀ d ∈ g.concrete base, ∃ set, classSet g c d = some set
  demands : ∀ d ∈ g.concrete base, (classCandidate g c d).mandatory =
    n + if ∃ e ∈ g.concrete base, e ≠ base ∧ g.className e = g.className d then 1 else 0
  chosen : ∃ front d back, g.concrete base = front ++ d :: back ∧ IsDefault g c d ∧
    (∀ e ∈ front, (classCandidate g c d).weight < (classCandidate g c e).weight) ∧
    ∀ e ∈ back, (classCandidate g c d).weight ≤ (classCandidate g c e).weight

theorem resolved_of_resolve (hb : g.Built) (noSets : c.sets = [])
    (paths : ∀ p ∈ c.parameters, p.location = .path ∧ p.membership = .all ∧ p.mandatory = true)
    (h : resolve g base c = (c', none)) : Resolved g base c.parameters.length c' := by
  obtain ⟨order, types, key, entries, merged, horder, htypes, nonempty, _, _, hmerged, rfl⟩ :=
    resolve_eq_ok h
  obtain rfl := concreteTypes_of_hierarchy hb.forest horder htypes
  have hswitched := ((Switched.of_paths noSets paths).declareTypes base
    ((g.concrete base).map (concreteType g))).mergeEntries hmerged
  have hmerges := mergeEntries_merges hmerged
  have hclasses : List.Forall₂ (fun d set => classSet g merged d = some set) (g.concrete base)
      ((declareTypes base c ((g.concrete base).map (concreteType g))).2.map (·.2)) := by
    have hsets := sets_declareTypes base c ((g.concrete base).map (concreteType g))
    rw [List.forall₂_map_left_iff] at hsets
    rw [List.forall₂_map_right_iff]
    refine hsets.imp fun d entry hentry => ?_
    rw [classSet, setFor, hmerges.sets]
    exact hentry.2
  have known : ∀ d ∈ g.concrete base, ∃ set, classSet g merged d = some set := by
    intro d hd
    obtain ⟨set, _, hset⟩ := Fallible.exists_of_mem_left hclasses hd
    exact ⟨set, hset⟩
  constructor
  · rwa [classSet_chooseDefault]
  · intro d hd
    obtain ⟨set, hset⟩ := known d hd
    rw [classCandidate_chooseDefault, classCandidate, hset, Option.getD_some,
      mandatory_candidateOf]
    exact demands_classSet (fun p hp => (paths p hp).1) hswitched hmerges hset
  · rw [classCandidate_chooseDefault]
    exact exists_isDefault hclasses (by simpa using nonempty)

/-! ## What is intended -/

theorem IsDefault.setSize_eq {e : ClassId} (hd : IsDefault g c d) (he : IsDefault g c e) :
    setSize g c d = setSize g c e := by
  obtain ⟨set, hset, hdefault⟩ := hd
  obtain ⟨set', hset', hdefault'⟩ := he
  obtain rfl := Option.some.inj (hdefault.symm.trans hdefault')
  rw [setSize, hset, setSize, hset']

theorem hasNamesake_iff (hf : g.Forest) :
    HasNamesake g base ↔ ∃ e ∈ g.concrete base, e ≠ base ∧ g.className e = g.className base := by
  unfold HasNamesake Graph.concrete
  refine exists_congr fun e => ?_
  rw [List.mem_filter, List.mem_cons]
  constructor
  · rintro ⟨hbelow, hconcrete, hname⟩
    refine ⟨⟨.inr hbelow, hconcrete⟩, ?_, hname⟩
    rintro rfl
    exact Graph.self_not_mem_below hf hbelow
  · rintro ⟨⟨rfl | hbelow, hconcrete⟩, hne, hname⟩
    · exact absurd rfl hne
    · exact ⟨hbelow, hconcrete, hname⟩

namespace Resolved

theorem total_eq (h : Resolved g base n c) (hd : d ∈ g.concrete base) :
    (classCandidate g c d).total = setSize g c d := by
  obtain ⟨set, hset⟩ := h.sets d hd
  exact total_classCandidate hset

/-- Where all sets demand as much, the default is the first of the smallest ones. -/
theorem exists_firstSmallest (h : Resolved g base n c) {m : Nat}
    (same : ∀ d ∈ g.concrete base, (classCandidate g c d).mandatory = m) :
    ∃ d, FirstSmallest g c (g.concrete base) d ∧ IsDefault g c d := by
  obtain ⟨front, d, back, heq, hdefault, hfront, hback⟩ := h.chosen
  have hmem : d ∈ g.concrete base := by simp [heq]
  refine ⟨d, ⟨front, back, heq, fun e he => ?_, fun e he => ?_⟩, hdefault⟩
  · have hother : e ∈ g.concrete base := by simp [heq, he]
    rw [← h.total_eq hmem, ← h.total_eq hother, ← Selection.Candidate.weight_lt_iff]
    · exact hfront e he
    · rw [same d hmem, same e hother]
  · have hother : e ∈ g.concrete base := by simp [heq, he]
    rw [← h.total_eq hmem, ← h.total_eq hother, ← Selection.Candidate.weight_le_iff]
    · exact hback e he
    · rw [same d hmem, same e hother]

/-- A class without a namesake needs no switch, so its set is the default. -/
theorem isDefault_base (hf : g.Forest) (h : Resolved g base n c)
    (concrete : g.isConcrete base = true) (alone : ¬ HasNamesake g base) :
    IsDefault g c base := by
  obtain ⟨front, d, back, heq, hdefault, hfront, hback⟩ := h.chosen
  have hmem : d ∈ g.concrete base := by simp [heq]
  have hbase : base ∈ g.concrete base := (Graph.mem_concrete_iff hf).2 ⟨.inl rfl, concrete⟩
  by_cases hd : d = base
  · exact hd ▸ hdefault
  have least : (classCandidate g c d).weight ≤ (classCandidate g c base).weight := by
    rw [heq, List.mem_append, List.mem_cons] at hbase
    rcases hbase with hbase | rfl | hbase
    · exact (hfront base hbase).le
    · exact absurd rfl hd
    · exact hback base hbase
  have fewer : (classCandidate g c base).mandatory < (classCandidate g c d).mandatory := by
    rw [h.demands base hbase, h.demands d hmem, if_neg ((hasNamesake_iff hf).not.1 alone),
      if_pos ⟨d, hmem, hd, rfl⟩]
    omega
  exact absurd (Selection.Candidate.weight_lt_of_mandatory_lt fewer) (not_lt.2 least)

/-- Where the base is abstract or has a namesake, each set has a switch. -/
theorem demands_eq (hf : g.Forest) (h : Resolved g base n c)
    (switched : g.isConcrete base = true → HasNamesake g base) :
    ∀ d ∈ g.concrete base, (classCandidate g c d).mandatory = n + 1 := by
  intro d hd
  rw [h.demands d hd, if_pos]
  by_cases hbase : d = base
  · subst hbase
    exact (hasNamesake_iff hf).1 (switched ((Graph.mem_concrete_iff hf).1 hd).2)
  · exact ⟨d, hd, hbase, rfl⟩

theorem defaultIntended_iff (hf : g.Forest) (h : Resolved g base n c) :
    DefaultIntended g base c ↔ (g.isConcrete base = true → HasNamesake g base →
      ∀ d ∈ g.concrete base, setSize g c base ≤ setSize g c d) := by
  unfold DefaultIntended
  by_cases concrete : g.isConcrete base = true
  · rw [if_pos concrete]
    by_cases namesake : HasNamesake g base
    · obtain ⟨d, ⟨front, back, heq, hfront, hback⟩, hdefault⟩ :=
        h.exists_firstSmallest (h.demands_eq hf fun _ => namesake)
      constructor
      · intro hbase _ _ e he
        rw [hbase.setSize_eq hdefault]
        rw [heq, List.mem_append, List.mem_cons] at he
        rcases he with he | rfl | he
        · exact (hfront e he).le
        · exact le_rfl
        · exact hback e he
      · intro smallest
        -- the base comes first, so nothing in front of the default can be as small
        have hcons : g.concrete base = base :: (g.below base).filter g.isConcrete :=
          List.filter_cons_of_pos concrete
        cases front with
        | nil =>
          rw [hcons] at heq
          exact (List.cons.inj heq).1 ▸ hdefault
        | cons e front =>
          rw [hcons] at heq
          obtain rfl := (List.cons.inj heq).1
          have := smallest concrete namesake d (by simp [hcons, (List.cons.inj heq).2])
          have := hfront base List.mem_cons_self
          omega
    · exact iff_of_true (h.isDefault_base hf concrete namesake) fun _ hname =>
        absurd hname namesake
  · rw [if_neg concrete]
    exact iff_of_true (h.exists_firstSmallest (h.demands_eq hf fun hbase => absurd hbase concrete))
      fun hbase => absurd hbase concrete

end Resolved

/-! ## The commands of a route -/

theorem Resolved.summarize (h : Resolved g base n c) (summary : String) :
    Resolved g base n { c with summary := summary } :=
  ⟨h.sets, h.demands, h.chosen⟩

theorem resolve_of_withBody (h : withBody g base c = .ok c') : resolve g base c = (c', none) := by
  unfold withBody at h
  split at h
  · rename_i done hdone
    cases h
    exact hdone
  · cases h

/-- A command on a route gets its body when it has the parameters of the route and no others. -/
theorem resolved_of_withBody {t : Target} (hb : t.graph.Built) {verb : Verb} {noun url : String}
    {operation : OperationKind} {method : HttpMethod} {terminalId : Bool} (id : Option String)
    {c₁ c₂ c₃ : Command} (hcommand : t.command verb noun operation method url = .ok c₁)
    (hpath : c₁.addParameters (pathParameters terminalId t.route.segments) = .ok c₂)
    (hbody : withBody t.graph base { c₂ with idParameter := id } = .ok c₃) :
    ∃ n, Resolved t.graph base n c₃ := by
  obtain ⟨_, _, rfl⟩ := Fallible.map_eq_ok_iff.1 hcommand
  obtain rfl := Command.addParameters_eq_ok hpath
  exact ⟨_, resolved_of_resolve hb rfl (fun p hp => of_mem_pathParameters hp)
    (resolve_of_withBody hbody)⟩

theorem resolved_of_create {t : Target} (hb : t.graph.Built) (h : create t base = .ok c) :
    ∃ n, Resolved t.graph base n c := by
  obtain ⟨c₁, hcommand, h⟩ := Fallible.bind_eq_ok_iff.1 h
  obtain ⟨c₂, hpath, h⟩ := Fallible.bind_eq_ok_iff.1 h
  obtain ⟨c₃, hbody, h⟩ := Fallible.bind_eq_ok_iff.1 h
  cases h
  obtain ⟨n, hresolved⟩ := resolved_of_withBody hb c₂.idParameter hcommand hpath hbody
  exact ⟨n, hresolved.summarize _⟩

theorem resolved_of_update {t : Target} (hb : t.graph.Built) (h : update t base = .ok c) :
    ∃ n, Resolved t.graph base n c := by
  obtain ⟨c₁, hcommand, h⟩ := Fallible.bind_eq_ok_iff.1 h
  obtain ⟨c₂, hpath, h⟩ := Fallible.bind_eq_ok_iff.1 h
  obtain ⟨c₃, hbody, h⟩ := Fallible.bind_eq_ok_iff.1 h
  cases h
  obtain ⟨n, hresolved⟩ := resolved_of_withBody hb _ hcommand hpath hbody
  exact ⟨n, hresolved.summarize _⟩

/-- The default set of a command that creates or updates a resource is the intended one, unless the
class of the route has a namesake below and another set is smaller than its own. -/
theorem defaultIntended_iff_of_commands (hb : g.Built) {config : Config} {route : Route.Rendered}
    {id : PropertyId} {p : Property} {cs : List Command} (hp : g.propertyAt id = .ok p)
    (htype : p.type = .structured base) (h : commands g config route id = .ok cs) (hc : c ∈ cs)
    (hop : c.operation = .post ∨ c.operation = .patch) :
    (∀ d ∈ g.concrete base, ∃ set, classSet g c d = some set) ∧
      (DefaultIntended g base c ↔ (g.isConcrete base = true → HasNamesake g base →
        ∀ d ∈ g.concrete base, setSize g c base ≤ setSize g c d)) := by
  obtain ⟨q, read, rest, hq, rfl, hread, hrest⟩ := heads_of_commands h
  obtain rfl := Except.ok.inj (hp.symm.trans hq)
  have follows : Follows ⟨g, config, route, p⟩ c := by
    rcases List.mem_cons.1 hc with rfl | hc
    · rcases hread with hread | hread <;> simp [hread.operation] at hop
    · exact hrest c hc
  have resolved : ∃ n, Resolved g base n c := by
    rcases hop with hpost | hpatch
    · obtain ⟨target, htarget, hcreate⟩ := follows.post hpost
      obtain rfl := TypeRef.structured.inj (htype.symm.trans htarget)
      exact resolved_of_create (t := ⟨g, config, route, p⟩) hb hcreate
    · obtain ⟨target, htarget, hupdate⟩ := follows.patch hpatch
      obtain rfl := TypeRef.structured.inj (htype.symm.trans htarget)
      exact resolved_of_update (t := ⟨g, config, route, p⟩) hb hupdate
  obtain ⟨n, resolved⟩ := resolved
  exact ⟨resolved.sets, resolved.defaultIntended_iff hb.forest⟩

/-- The items of the library are abstract, and of the sets for books and discs, which are of one
size, the first is the default. -/
theorem defaultIntended_of_items :
    ∃ p cs c, Graph.library.propertyAt ⟨7⟩ = .ok p ∧ p.type = .structured ⟨0⟩ ∧
      commands Graph.library {} itemsRoute ⟨7⟩ = .ok cs ∧ c ∈ cs ∧ c.operation = .post ∧
      c.defaultSet.map (·.name) = some "Book" ∧ DefaultIntended Graph.library ⟨0⟩ c := by
  have hp : Graph.library.propertyAt ⟨7⟩ =
      .ok { name := "items", type := .structured ⟨0⟩, isCollection := true } := by decide +kernel
  have made : (commands Graph.library {} itemsRoute ⟨7⟩).map
      (fun cs => cs.map fun c => (c.operation, c.defaultSet.map (·.name))) =
        .ok [(.search, some "Search"), (.post, some "Book"), (.patch, some "Book"),
          (.delete, some "Delete"), (.action, some "Renew")] := by decide +kernel
  obtain ⟨cs, hcs, hmap⟩ := Fallible.map_eq_ok_iff.1 made
  have hmem : (OperationKind.post, some "Book") ∈
      cs.map fun c => (c.operation, c.defaultSet.map (·.name)) := by simp [hmap]
  obtain ⟨c, hc, heq⟩ := List.mem_map.1 hmem
  obtain ⟨hop, hdefault⟩ := Prod.mk.inj heq
  refine ⟨_, cs, c, hp, rfl, hcs, hc, hop, hdefault, ?_⟩
  exact (defaultIntended_iff_of_commands Graph.library_built hp rfl hcs hc (.inl hop)).2.2
    fun habstract => absurd habstract (by decide +kernel)

/-- An item that can be sent as what its class is, as what a class of the same name below is, or as
another thing. -/
def namesakes : Graph :=
  { namespaceName := "shop"
    container := { name := "Shop", properties := [⟨1⟩] }
    classes := #[
      { name := "shop.Item", kind := .entity, derived := [⟨1⟩, ⟨2⟩] },
      { name := "shop.Item", kind := .entity, base := some ⟨0⟩, properties := [⟨0⟩] },
      { name := "Other", kind := .entity, base := some ⟨0⟩ }]
    properties := #[
      { name := "pages", type := .primitive .int32, owner := .structured ⟨1⟩ },
      { name := "item", type := .structured ⟨0⟩ }] }

def namesakesOperations : List Graph.Operation :=
  [.addClass { name := "shop.Item", kind := .entity },
    .addClass { name := "shop.Item", kind := .entity },
    .addClass { name := "Other", kind := .entity },
    .setBase ⟨1⟩ ⟨0⟩,
    .setBase ⟨2⟩ ⟨0⟩,
    .addProperty ⟨1⟩ { name := "pages", type := .primitive .int32 },
    .addContainerProperty { name := "item", type := .structured ⟨0⟩ }]

theorem namesakes_built : namesakes.Built := by
  have fresh : ∀ op ∈ namesakesOperations, op.AddsFresh := by
    simp only [namesakesOperations, List.forall_mem_cons, Graph.Operation.AddsFresh,
      List.not_mem_nil, false_imp_iff, implies_true, and_true]
    exact ⟨⟨rfl, rfl, rfl, rfl⟩, ⟨rfl, rfl, rfl, rfl⟩, ⟨rfl, rfl, rfl, rfl⟩⟩
  exact (Graph.Built.empty "shop" "Shop").applyAll fresh (by decide +kernel)

/-- The item is concrete, and yet the default is a set that needs a switch. -/
theorem not_defaultIntended_of_namesakes :
    ¬ ∀ (g : Graph) (config : Config) (route : Route.Rendered) (id : PropertyId) (p : Property)
      (base : ClassId) (cs : List Command) (c : Command), g.Built → g.propertyAt id = .ok p →
        p.type = .structured base → commands g config route id = .ok cs → c ∈ cs →
        c.operation = .post ∨ c.operation = .patch → DefaultIntended g base c := by
  intro intended
  have hp : namesakes.propertyAt ⟨1⟩ = .ok { name := "item", type := .structured ⟨0⟩ } := by
    decide +kernel
  have made : (commands namesakes {} ⟨[{ name := "item" }]⟩ ⟨1⟩).map (fun cs => cs.map fun c =>
      (c.operation, c.defaultSet.map (·.name), classSet namesakes c ⟨0⟩)) =
        .ok [(.get, some "Get", none), (.post, some "Other", some "ShopItem"),
          (.patch, some "Other", some "ShopItem"), (.delete, some "Delete", none)] := by
    decide +kernel
  obtain ⟨cs, hcs, hmap⟩ := Fallible.map_eq_ok_iff.1 made
  have hmem : (OperationKind.post, some "Other", some "ShopItem") ∈ cs.map fun c =>
      (c.operation, c.defaultSet.map (·.name), classSet namesakes c ⟨0⟩) := by simp [hmap]
  obtain ⟨c, hc, heq⟩ := List.mem_map.1 hmem
  obtain ⟨hop, hrest⟩ := Prod.mk.inj heq
  obtain ⟨hdefault, hset⟩ := Prod.mk.inj hrest
  have hintended := intended namesakes {} ⟨[{ name := "item" }]⟩ ⟨1⟩ _ ⟨0⟩ cs c namesakes_built hp
    rfl hcs hc (.inl hop)
  rw [DefaultIntended, if_pos (by decide +kernel)] at hintended
  obtain ⟨set, hown, hdefault'⟩ := hintended
  rw [hset] at hown
  rw [hdefault, ← hown] at hdefault'
  exact absurd hdefault' (by decide)

end Synthesis
end EdmCommands
