import EdmCommands.Command.Basic
import EdmCommands.Proofs.Fallible
import EdmCommands.Proofs.Naming
import EdmCommands.Synthesis.Body

/-!
# EdmCommands.Proofs.Command.Valid

The rules of the command model, and the operations that keep them.

* `Parameter.FitsIn`: a parameter is used in declared sets only, and is mandatory only there.
* `Command.Coherent`: what holds of a command at every stage of its making.
* `Command.Valid`: the rules for a finished command; `validate_eq_ok_iff` says that they are what
  is checked.
* `Command.Extends`: a command with more sets and parameters, none of them in the address.
-/

namespace EdmCommands

/-- Where a parameter is used in some sets only, there is one and they are declared. It is
mandatory only in sets it is used in. -/
structure Parameter.FitsIn (p : Parameter) (sets : List String) : Prop where
  inSome : ∀ members, p.membership = .only members → ∃ s, s ∈ members
  declared : ∀ members, p.membership = .only members → ∀ s ∈ members, s ∈ sets
  mandatory : ∀ s ∈ p.mandatoryIn, p.isIn s = true

namespace Parameter.FitsIn

variable {p : Parameter} {sets : List String}

theorem mono {sets' : List String} (h : p.FitsIn sets) (sub : sets ⊆ sets') :
    p.FitsIn sets' :=
  ⟨h.inSome, fun members hm s hs => sub (h.declared members hm s hs), h.mandatory⟩

/-- A parameter of all sets fits anywhere. -/
theorem of_all (hall : p.membership = .all) : p.FitsIn sets := by
  refine ⟨?_, ?_, ?_⟩
  · intro members hm
    rw [hall] at hm
    cases hm
  · intro members hm
    rw [hall] at hm
    cases hm
  · intro s _
    simp [isIn, hall, SetMembership.contains]

/-- A parameter of some declared sets that is not mandatory in single ones fits. -/
theorem of_only {members : List String}
    (honly : p.membership = .only (.ofList members)) (hnone : p.mandatoryIn = .empty)
    (nonempty : members ≠ []) (sub : members ⊆ sets) : p.FitsIn sets := by
  refine ⟨?_, ?_, ?_⟩
  · intro m hm
    rw [honly] at hm
    cases hm
    obtain ⟨s, hs⟩ := List.exists_mem_of_ne_nil _ nonempty
    exact ⟨s, NameSet.mem_ofList.2 hs⟩
  · intro m hm s hs
    rw [honly] at hm
    cases hm
    exact sub (NameSet.mem_ofList.1 hs)
  · intro s hs
    rw [hnone] at hs
    cases hs

end Parameter.FitsIn

namespace Command

/-- Sets and parameters have distinct names, and the parameters fit in the sets. -/
structure Coherent (c : Command) : Prop where
  sets : c.setNames.Nodup
  names : c.parameterNames.Nodup
  fits : ∀ p ∈ c.parameters, p.FitsIn c.setNames

/-- The rules of the model: there are sets and one of them is the default, and the identifier is a
parameter. -/
structure Valid (c : Command) : Prop extends Coherent c where
  hasSets : c.sets ≠ []
  oneDefault : c.sets.countP (·.isDefault) = 1
  declaredId : ∀ id, c.idParameter = some id → id ∈ c.parameterNames

/-- The parameters whose values are part of the address. -/
def pathParameters (c : Command) : List Parameter :=
  c.parameters.filter (·.location == .path)

/-- The command `c'` is `c` with more sets and parameters, where those of the address stay as they
are. -/
structure Extends (c c' : Command) : Prop where
  rest : c' = { c with sets := c'.sets, parameters := c'.parameters }
  sets : c.setNames <+: c'.setNames
  names : c.parameterNames <+: c'.parameterNames
  path : c'.pathParameters = c.pathParameters

variable {c c' : Command} {p : Parameter} {sets : List String}

/-! ## What is checked -/

theorem checkMembership_eq_ok_iff :
    checkMembership sets p = .ok () ↔
      ∀ members, p.membership = .only members → (∃ s, s ∈ members) ∧ ∀ s ∈ members, s ∈ sets := by
  unfold checkMembership
  cases p.membership with
  | all => simp
  | only members =>
    simp only [SetMembership.only.injEq, forall_eq']
    by_cases hempty : members.names = []
    · have none_in : ¬ ∃ s, s ∈ members := by
        rintro ⟨s, hs⟩
        rw [← NameSet.mem_names, hempty] at hs
        cases hs
      simp [NameSet.isEmpty, hempty, none_in]
    · have some_in : ∃ s, s ∈ members := List.exists_mem_of_ne_nil _ hempty
      have nonempty : members.isEmpty = false := by simpa [NameSet.isEmpty] using hempty
      simp only [nonempty, Bool.false_eq_true, if_false, some_in, true_and]
      cases hfind : members.names.find? (!sets.contains ·) with
      | none =>
        have := List.find?_eq_none.1 hfind
        simpa using this
      | some unknown =>
        have hmem := List.mem_of_find?_eq_some hfind
        have hunknown := List.find?_some hfind
        simp only [reduceCtorEq, false_iff]
        exact fun h => by simp [h unknown hmem] at hunknown

theorem checkMandatory_eq_ok_iff :
    checkMandatory p = .ok () ↔ ∀ s ∈ p.mandatoryIn, p.isIn s = true := by
  unfold checkMandatory
  cases hfind : p.mandatoryIn.names.find? (!p.isIn ·) with
  | none =>
    have := List.find?_eq_none.1 hfind
    simpa using this
  | some stray =>
    have hmem := List.mem_of_find?_eq_some hfind
    have hstray := List.find?_some hfind
    simp only [reduceCtorEq, false_iff]
    exact fun h => by simp [h stray hmem] at hstray

theorem checkParameters_eq_ok_iff {seen : List String} {ps : List Parameter} :
    checkParameters sets seen ps = .ok () ↔
      (ps.map (·.name)).Nodup ∧ (∀ p ∈ ps, p.name ∉ seen) ∧ ∀ p ∈ ps, p.FitsIn sets := by
  induction ps generalizing seen with
  | nil => simp [checkParameters]
  | cons p rest ih =>
    have fits_iff : p.FitsIn sets ↔
        checkMembership sets p = .ok () ∧ checkMandatory p = .ok () := by
      rw [checkMembership_eq_ok_iff, checkMandatory_eq_ok_iff]
      exact ⟨fun h => ⟨fun m hm => ⟨h.inSome m hm, h.declared m hm⟩, h.mandatory⟩,
        fun h => ⟨fun m hm => (h.1 m hm).1, fun m hm => (h.1 m hm).2, h.2⟩⟩
    unfold checkParameters
    by_cases hseen : p.name ∈ seen
    · simp [hseen]
    · rw [if_neg (by simpa using hseen), List.map_cons, List.nodup_cons, List.forall_mem_cons,
        List.forall_mem_cons, fits_iff]
      cases checkMembership sets p with
      | error cause => simp
      | ok =>
        cases checkMandatory p with
        | error cause => simp
        | ok =>
          simp only [ih, List.mem_cons, not_or, List.mem_map, not_exists, not_and, true_and,
            and_true, hseen, not_false_eq_true]
          constructor
          · rintro ⟨hnodup, hfresh, hfits⟩
            exact ⟨⟨fun q hq => (hfresh q hq).1, hnodup⟩, fun q hq => (hfresh q hq).2, hfits⟩
          · rintro ⟨⟨hname, hnodup⟩, hfresh, hfits⟩
            exact ⟨hnodup, fun q hq => ⟨hname q hq, hfresh q hq⟩, hfits⟩

theorem checkId_eq_ok_iff :
    c.checkId = .ok () ↔ ∀ id, c.idParameter = some id → id ∈ c.parameterNames := by
  unfold checkId
  cases c.idParameter with
  | none => simp
  | some id => by_cases h : id ∈ c.parameterNames <;> simp [h]

/-- The check accepts exactly the commands that obey the rules. -/
theorem validate_eq_ok_iff : c.validate = .ok () ↔ c.Valid := by
  rw [validate, Fallible.mapError_eq_ok_iff, check]
  by_cases hsets : c.sets = []
  · simp only [hsets, List.isEmpty_nil, if_true, reduceCtorEq, false_iff]
    exact fun h => h.hasSets hsets
  rw [if_neg (by simpa using hsets)]
  by_cases hdefault : c.sets.countP (·.isDefault) = 1
  · simp only [hdefault, ne_eq, not_true_eq_false, if_false]
    cases hrepeated : Naming.firstRepeated [] c.setNames with
    | some name =>
      simp only [reduceCtorEq, false_iff]
      intro h
      rw [Naming.firstRepeated_eq_none_iff.2 ⟨h.sets, by simp⟩] at hrepeated
      cases hrepeated
    | none =>
      have hnodup := (Naming.firstRepeated_eq_none_iff.1 hrepeated).1
      cases hparameters : checkParameters c.setNames [] c.parameters with
      | error cause =>
        simp only [reduceCtorEq, false_iff]
        intro h
        rw [checkParameters_eq_ok_iff.2 ⟨h.names, by simp, h.fits⟩] at hparameters
        cases hparameters
      | ok =>
        obtain ⟨hnames, _, hfits⟩ := checkParameters_eq_ok_iff.1 hparameters
        simp only [checkId_eq_ok_iff]
        exact ⟨fun hid => ⟨⟨hnodup, hnames, hfits⟩, hsets, hdefault, hid⟩, fun h => h.declaredId⟩
  · simp only [hdefault, ne_eq, not_false_eq_true, if_true, reduceCtorEq, false_iff]
    exact fun h => hdefault h.oneDefault

/-! ## Sets and parameters are added -/

theorem hasSet_iff {name : String} : c.hasSet name = true ↔ name ∈ c.setNames := by
  simp [hasSet, setNames]

theorem parameter?_eq_none_iff {name : String} :
    c.parameter? name = none ↔ name ∉ c.parameterNames := by
  simp [parameter?, parameterNames]

theorem addSet_eq_ok {set : ParameterSet} (h : c.addSet set = .ok c') :
    set.name ∉ c.setNames ∧ c' = { c with sets := c.sets ++ [set] } := by
  unfold addSet at h
  split at h
  · cases h
  · rename_i hfree
    cases h
    exact ⟨fun hmem => hfree (hasSet_iff.2 hmem), rfl⟩

theorem setDefault_eq_ok {name : String} (h : c.setDefault name = .ok c') :
    name ∈ c.setNames ∧
      c' = { c with sets := c.sets.map fun s => { s with isDefault := s.name == name } } := by
  unfold setDefault at h
  split at h
  · rename_i hset
    cases h
    exact ⟨hasSet_iff.1 hset, rfl⟩
  · cases h

theorem addParameter_eq_ok (h : c.addParameter p = .ok c') :
    p.name ∉ c.parameterNames ∧ c' = { c with parameters := c.parameters ++ [p] } := by
  unfold addParameter at h
  split at h
  · cases h
  · rename_i hfree
    cases h
    exact ⟨parameter?_eq_none_iff.1 hfree, rfl⟩

theorem Coherent.addSet (h : c.Coherent) {set : ParameterSet} (fresh : set.name ∉ c.setNames) :
    Coherent { c with sets := c.sets ++ [set] } := by
  have names : setNames { c with sets := c.sets ++ [set] } = c.setNames ++ [set.name] := by
    simp [setNames]
  refine ⟨?_, h.names, fun p hp => ?_⟩
  · rw [names, List.nodup_append]
    refine ⟨h.sets, by simp, fun a ha b hb hab => fresh ?_⟩
    rwa [← List.mem_singleton.1 hb, ← hab]
  · rw [names]
    exact (h.fits p hp).mono (List.subset_append_left _ _)

theorem Coherent.addParameter (h : c.Coherent) (fresh : p.name ∉ c.parameterNames)
    (fits : p.FitsIn c.setNames) : Coherent { c with parameters := c.parameters ++ [p] } := by
  have names : parameterNames { c with parameters := c.parameters ++ [p] } =
      c.parameterNames ++ [p.name] := by simp [parameterNames]
  refine ⟨h.sets, ?_, ?_⟩
  · rw [names, List.nodup_append]
    refine ⟨h.names, by simp, fun a ha b hb hab => fresh ?_⟩
    rwa [← List.mem_singleton.1 hb, ← hab]
  · intro q hq
    rcases List.mem_append.1 hq with hq | hq
    · exact h.fits q hq
    · rw [List.mem_singleton.1 hq]
      exact fits

theorem addParameters_eq_ok {ps : List Parameter} (h : c.addParameters ps = .ok c') :
    c' = { c with parameters := c.parameters ++ ps } := by
  induction ps generalizing c with
  | nil =>
    cases h
    rw [List.append_nil]
  | cons p rest ih =>
    unfold addParameters at h
    rw [List.foldlM_cons] at h
    obtain ⟨c₁, hadd, h⟩ := Fallible.bind_eq_ok_iff.1 h
    obtain ⟨_, rfl⟩ := addParameter_eq_ok hadd
    rw [ih h, List.append_assoc]
    rfl

theorem Coherent.addParameters (hc : c.Coherent) {ps : List Parameter}
    (fits : ∀ p ∈ ps, p.FitsIn c.setNames) (h : c.addParameters ps = .ok c') : c'.Coherent := by
  induction ps generalizing c with
  | nil =>
    cases h
    exact hc
  | cons p rest ih =>
    unfold addParameters at h
    rw [List.foldlM_cons] at h
    obtain ⟨c₁, hadd, h⟩ := Fallible.bind_eq_ok_iff.1 h
    obtain ⟨hfresh, rfl⟩ := addParameter_eq_ok hadd
    rw [List.forall_mem_cons] at fits
    exact ih (hc.addParameter hfresh fits.1) fits.2 h

/-- The command with one of its sets as the default. -/
theorem Coherent.setDefault (h : c.Coherent) {name : String} (declared : name ∈ c.setNames) :
    Coherent { c with sets := c.sets.map fun s => { s with isDefault := s.name == name } } ∧
      (c.sets.map fun s => { s with isDefault := s.name == name }).countP (·.isDefault) = 1 := by
  have names : setNames { c with sets := c.sets.map fun s =>
      { s with isDefault := s.name == name } } = c.setNames := by
    simp [setNames, Function.comp_def]
  refine ⟨⟨by rw [names]; exact h.sets, h.names, by rw [names]; exact h.fits⟩, ?_⟩
  have := List.count_eq_one_of_mem h.sets declared
  rw [setNames, List.count, List.countP_map] at this
  rw [List.countP_map]
  exact this

/-! ## What is refused -/

section Refused

variable {f : Fault}

theorem addSet_eq_error {set : ParameterSet} (h : c.addSet set = .error f) :
    set.name ∈ c.setNames := by
  unfold addSet at h
  split at h
  · rename_i hset
    exact hasSet_iff.1 hset
  · cases h

theorem setDefault_eq_error {name : String} (h : c.setDefault name = .error f) :
    name ∉ c.setNames := by
  unfold setDefault at h
  split at h
  · cases h
  · rename_i hset
    exact fun hmem => hset (hasSet_iff.2 hmem)

theorem addParameter_eq_error (h : c.addParameter p = .error f) :
    p.name ∈ c.parameterNames ∧ f = c.fault (.duplicateParameter p.name) := by
  unfold addParameter at h
  split at h
  · rename_i found hfound
    cases h
    refine ⟨by_contra fun hfree => ?_, rfl⟩
    rw [parameter?_eq_none_iff.2 hfree] at hfound
    cases hfound
  · cases h

/-- Parameters that are taken have names that the command did not have. -/
theorem fresh_of_addParameters {ps : List Parameter} (h : c.addParameters ps = .ok c') :
    ∀ name ∈ ps.map (·.name), name ∉ c.parameterNames := by
  induction ps generalizing c with
  | nil => simp
  | cons p rest ih =>
    unfold addParameters at h
    rw [List.foldlM_cons] at h
    obtain ⟨c₁, hadd, h⟩ := Fallible.bind_eq_ok_iff.1 h
    obtain ⟨hfresh, rfl⟩ := addParameter_eq_ok hadd
    rw [List.map_cons, List.forall_mem_cons]
    refine ⟨hfresh, fun name hname hmem => ih h name hname ?_⟩
    simp only [parameterNames, List.map_append, List.mem_append]
    exact .inl hmem

/-- Parameters with distinct names are refused only for a name that the command has. -/
theorem addParameters_eq_error {ps : List Parameter} (distinct : (ps.map (·.name)).Nodup)
    (h : c.addParameters ps = .error f) :
    ∃ name ∈ ps.map (·.name), name ∈ c.parameterNames ∧
      f = c.fault (.duplicateParameter name) := by
  induction ps generalizing c with
  | nil => cases h
  | cons p rest ih =>
    rw [List.map_cons, List.nodup_cons] at distinct
    unfold addParameters at h
    rw [List.foldlM_cons] at h
    rcases Fallible.bind_eq_error_iff.1 h with h | ⟨c₁, hadd, h⟩
    · obtain ⟨hmem, rfl⟩ := addParameter_eq_error h
      exact ⟨p.name, by simp, hmem, rfl⟩
    · obtain ⟨_, rfl⟩ := addParameter_eq_ok hadd
      obtain ⟨name, hname, hmem, rfl⟩ := ih distinct.2 h
      refine ⟨name, List.mem_cons_of_mem _ hname, ?_, rfl⟩
      -- the name is not that of the parameter just added
      have hother : name ≠ p.name := fun heq => distinct.1 (heq ▸ hname)
      simpa [parameterNames, hother] using hmem

end Refused

/-! ## One parameter is changed -/

section ModifyFirst

open Synthesis (modifyFirst)

variable {α β : Type} {test : α → Bool} {change : α → α}

theorem mem_modifyFirst {x : α} {l : List α} (h : x ∈ modifyFirst test change l) :
    x ∈ l ∨ ∃ y ∈ l, test y = true ∧ x = change y := by
  induction l with
  | nil => cases h
  | cons y rest ih =>
    unfold modifyFirst at h
    split at h
    · rename_i htest
      rcases List.mem_cons.1 h with rfl | h
      · exact .inr ⟨y, List.mem_cons_self, htest, rfl⟩
      · exact .inl (List.mem_cons_of_mem _ h)
    · rcases List.mem_cons.1 h with rfl | h
      · exact .inl List.mem_cons_self
      · rcases ih h with h | ⟨z, hz, hchange⟩
        · exact .inl (List.mem_cons_of_mem _ h)
        · exact .inr ⟨z, List.mem_cons_of_mem _ hz, hchange⟩

/-- What a change keeps of an element, it keeps of the list. -/
theorem map_modifyFirst {f : α → β} (kept : ∀ x, f (change x) = f x) (l : List α) :
    (modifyFirst test change l).map f = l.map f := by
  induction l with
  | nil => rfl
  | cons x rest ih =>
    unfold modifyFirst
    split
    · rw [List.map_cons, List.map_cons, kept]
    · rw [List.map_cons, List.map_cons, ih]

/-- Elements that are not looked for stay as they are. -/
theorem filter_modifyFirst {keep : α → Bool} (other : ∀ x, test x = true → keep x = false)
    (kept : ∀ x, keep (change x) = keep x) (l : List α) :
    (modifyFirst test change l).filter keep = l.filter keep := by
  induction l with
  | nil => rfl
  | cons x rest ih =>
    unfold modifyFirst
    split
    · rename_i htest
      simp [kept, other x htest]
    · rw [List.filter_cons, List.filter_cons, ih]

end ModifyFirst

/-- One parameter is changed to one of the same name that fits. -/
theorem Coherent.modifyFirst (h : c.Coherent) {test : Parameter → Bool}
    {change : Parameter → Parameter} (name : ∀ p, (change p).name = p.name)
    (fits : ∀ p ∈ c.parameters, (change p).FitsIn c.setNames) :
    Coherent { c with parameters := Synthesis.modifyFirst test change c.parameters } := by
  refine ⟨h.sets, ?_, fun p hp => ?_⟩
  · rw [parameterNames, map_modifyFirst name]
    exact h.names
  · rcases mem_modifyFirst hp with hp | ⟨q, hq, _, rfl⟩
    · exact h.fits p hp
    · exact fits q hq

/-! ## Commands that grow -/

namespace Extends

theorem refl (c : Command) : c.Extends c :=
  ⟨rfl, List.prefix_rfl, List.prefix_rfl, rfl⟩

theorem trans {c₁ c₂ c₃ : Command} (h₁ : c₁.Extends c₂) (h₂ : c₂.Extends c₃) : c₁.Extends c₃ := by
  refine ⟨?_, h₁.sets.trans h₂.sets, h₁.names.trans h₂.names, h₂.path.trans h₁.path⟩
  rw [h₂.rest, h₁.rest]

theorem addSet (c : Command) (set : ParameterSet) :
    c.Extends { c with sets := c.sets ++ [set] } := by
  refine ⟨rfl, ?_, List.prefix_rfl, rfl⟩
  simp [setNames]

theorem setDefault (c : Command) (name : String) :
    c.Extends { c with sets := c.sets.map fun s => { s with isDefault := s.name == name } } := by
  refine ⟨rfl, ?_, List.prefix_rfl, rfl⟩
  simp [setNames, Function.comp_def]

theorem addParameter (c : Command) {p : Parameter} (location : p.location ≠ .path) :
    c.Extends { c with parameters := c.parameters ++ [p] } := by
  refine ⟨rfl, List.prefix_rfl, ?_, ?_⟩
  · simp [parameterNames]
  · simp [pathParameters, location]

theorem modifyFirst (c : Command) {test : Parameter → Bool} {change : Parameter → Parameter}
    (other : ∀ p, test p = true → p.location ≠ .path) (name : ∀ p, (change p).name = p.name)
    (location : ∀ p, (change p).location = p.location) :
    c.Extends { c with parameters := Synthesis.modifyFirst test change c.parameters } := by
  refine ⟨rfl, List.prefix_rfl, ?_, ?_⟩
  · exact ⟨[], (List.append_nil _).trans (map_modifyFirst name c.parameters).symm⟩
  · refine filter_modifyFirst (fun p hp => ?_) (fun p => ?_) _
    · simpa using other p hp
    · rw [location]

theorem id (h : c.Extends c') : c'.idParameter = c.idParameter := by
  rw [h.rest]

end Extends

end Command
end EdmCommands
