import EdmCommands.Proofs.Command.Parameter
import EdmCommands.Proofs.Command.Valid
import EdmCommands.Proofs.Selection
import EdmCommands.Synthesis.Body

/-!
# EdmCommands.Proofs.Synthesis.Body

Resolving a body keeps the rules of the command model, whatever the schema graph looks like.

* `Grows`: the rules of a command in the making are kept and the address is left alone.
* `declareTypes_grows`, `mergeEntries_grows`, `chooseDefault_grows`: the stages of `resolve`.
* `withBody_grows`: a command that obeys the rules so far, with a body, has a default set too.
-/

namespace EdmCommands
namespace Synthesis

open Schema

/-- A command becomes another one by a step that keeps the rules and leaves the address alone. -/
structure Grows (c c' : Command) : Prop where
  extended : c.Extends c'
  coherent : c.Coherent → c'.Coherent

namespace Grows

theorem refl (c : Command) : Grows c c :=
  ⟨.refl c, id⟩

theorem trans {c₁ c₂ c₃ : Command} (h₁ : Grows c₁ c₂) (h₂ : Grows c₂ c₃) : Grows c₁ c₃ :=
  ⟨h₁.extended.trans h₂.extended, fun h => h₂.coherent (h₁.coherent h)⟩

end Grows

variable {g : Graph} {base : ClassId} {c c' : Command}

/-! ## Sets and switches -/

theorem ensureSet_grows (t : ConcreteType) :
    Grows c (ensureSet c t).1 ∧ (ensureSet c t).2 ∈ (ensureSet c t).1.setNames := by
  unfold ensureSet
  split
  · rename_i s hs
    exact ⟨.refl c, List.mem_map.2 ⟨s, List.mem_of_find?_eq_some hs, rfl⟩⟩
  · refine ⟨⟨.addSet c _, fun h => h.addSet ?_⟩, by simp [Command.setNames]⟩
    exact Naming.freshName_not_mem _ _

theorem typeSwitch_fits {name set qualified : String} {sets : List String} (h : set ∈ sets) :
    (typeSwitch name set qualified).FitsIn sets := by
  have only : (typeSwitch name set qualified).membership = .only (.ofList [set]) := by
    simp [typeSwitch, Parameter.withDescription, Parameter.inSets]
  refine .of_only only ?_ (by simp) (by simpa using h)
  simp [typeSwitch, Parameter.withDescription, Parameter.inSets]

theorem ensureSwitch_grows {set : String} (t : ConcreteType) (h : set ∈ c.setNames) :
    Grows c (ensureSwitch c set t) ∧ (ensureSwitch c set t).sets = c.sets := by
  unfold ensureSwitch
  split
  · exact ⟨.refl c, rfl⟩
  · have name : (typeSwitch (Naming.freshName set c.parameterNames) set t.qualified).name =
        Naming.freshName set c.parameterNames := by
      simp [typeSwitch, Parameter.withDescription, Parameter.inSets]
    refine ⟨⟨.addParameter c ?_, fun hc => hc.addParameter ?_ (typeSwitch_fits h)⟩, rfl⟩
    · simp [typeSwitch, Parameter.withDescription, Parameter.inSets]
    · rw [name]
      exact Naming.freshName_not_mem _ _

theorem declareType_grows (base : ClassId) (c : Command) (t : ConcreteType) :
    Grows c (declareType base c t).1 ∧
      (declareType base c t).2 ∈ (declareType base c t).1.setNames := by
  obtain ⟨hgrows, hset⟩ := ensureSet_grows (c := c) t
  unfold declareType
  dsimp only
  split
  · exact ⟨hgrows, hset⟩
  · obtain ⟨hswitch, hsame⟩ := ensureSwitch_grows t hset
    refine ⟨hgrows.trans hswitch, ?_⟩
    rwa [Command.setNames, hsame]

theorem declareTypes_grows (base : ClassId) (c : Command) (types : List ConcreteType) :
    Grows c (declareTypes base c types).1 ∧
      ∀ entry ∈ (declareTypes base c types).2,
        entry.2 ∈ (declareTypes base c types).1.setNames := by
  induction types generalizing c with
  | nil => exact ⟨.refl c, by simp [declareTypes]⟩
  | cons t rest ih =>
    obtain ⟨hgrows, hset⟩ := declareType_grows base c t
    obtain ⟨hrest, hsets⟩ := ih (declareType base c t).1
    unfold declareTypes
    dsimp only
    refine ⟨hgrows.trans hrest, ?_⟩
    rw [List.forall_mem_cons]
    exact ⟨hrest.extended.sets.subset hset, hsets⟩

/-! ## Body parameters -/

theorem mem_setsBelow {sets : List (ClassId × String)} {id : ClassId} {set : String} :
    set ∈ setsBelow g sets id ↔ ∃ current ∈ subtree g id, sets.lookup current = some set := by
  simp [setsBelow]

theorem mem_of_lookup {sets : List (ClassId × String)} {id : ClassId} {set : String}
    (h : sets.lookup id = some set) : (id, set) ∈ sets := by
  obtain ⟨front, back, rfl, _⟩ := List.lookup_eq_some_iff.1 h
  simp

theorem sets_of_mem_bodyEntries {key : Option PropertyId} {sets : List (ClassId × String)}
    {ids : List ClassId} {entries : List BodyEntry}
    (h : bodyEntries g base key sets ids = .ok entries) :
    ∀ entry ∈ entries, entry.sets ≠ [] ∧ entry.sets ⊆ sets.map (·.2) := by
  induction ids generalizing entries with
  | nil =>
    cases h
    simp
  | cons id rest ih =>
    unfold bodyEntries at h
    dsimp only at h
    split at h
    · exact ih h
    · cases h
    · rename_i first others ids discriminator hmembers hdeclared
      split at h
      · cases h
      · rename_i found hfound
        cases h
        intro entry hentry
        rcases List.mem_append.1 hentry with hentry | hentry
        · obtain ⟨p, _, rfl⟩ := List.mem_map.1 hentry
          refine ⟨by simp [hmembers], fun set hset => ?_⟩
          obtain ⟨current, _, hlookup⟩ := mem_setsBelow.1 hset
          exact List.mem_map.2 ⟨_, mem_of_lookup hlookup, rfl⟩
        · exact ih hfound entry hentry

theorem fieldName_not_mem (c : Command) (field label : String) :
    fieldName c field label ∉ c.parameterNames := by
  unfold fieldName
  dsimp only
  split
  · exact Naming.freshName_not_mem _ _
  · rename_i hfree
    simpa using hfree

/-- The membership after several more sets. -/
theorem foldl_insert_eq (sets : List String) (m : SetMembership) :
    sets.foldl SetMembership.insert m =
      match m with
      | .all => .all
      | .only members => .only (sets.foldl NameSet.insert members) := by
  induction sets generalizing m with
  | nil => cases m <;> rfl
  | cons set rest ih => cases m <;> exact ih _

theorem contains_foldl_insert {sets : List String} {m : SetMembership} {set : String} :
    (sets.foldl SetMembership.insert m).contains set = true ↔
      set ∈ sets ∨ m.contains set = true := by
  rw [foldl_insert_eq]
  cases m with
  | all => simp [SetMembership.contains]
  | only members => simp [SetMembership.contains, NameSet.mem_foldl_insert]

theorem widen_fits {p : Parameter} {sets declared : List String} {type : ParameterType}
    {discriminator : Option String} (h : p.FitsIn declared) (sub : sets ⊆ declared) :
    (widen sets type discriminator p).FitsIn declared := by
  have membership : (widen sets type discriminator p).membership =
      sets.foldl SetMembership.insert p.membership := rfl
  refine ⟨?_, ?_, ?_⟩
  · intro members hm
    rw [membership, foldl_insert_eq] at hm
    cases hp : p.membership with
    | all => rw [hp] at hm; cases hm
    | only old =>
      rw [hp] at hm
      cases hm
      obtain ⟨s, hs⟩ := h.inSome old hp
      exact ⟨s, NameSet.mem_foldl_insert.2 (.inr hs)⟩
  · intro members hm s hs
    rw [membership, foldl_insert_eq] at hm
    cases hp : p.membership with
    | all => rw [hp] at hm; cases hm
    | only old =>
      rw [hp] at hm
      cases hm
      rcases NameSet.mem_foldl_insert.1 hs with hs | hs
      · exact sub hs
      · exact h.declared old hp s hs
  · intro s hs
    rw [Parameter.isIn, membership, contains_foldl_insert]
    exact .inr (h.mandatory s hs)

theorem location_of_isBodyField {wire : String} {p : Parameter} (h : isBodyField wire p = true) :
    p.location = .body := by
  simp only [isBodyField, Bool.and_eq_true, beq_iff_eq] at h
  exact h.1

theorem mergeProperty_grows {p : Property} {type : ParameterType} {sets : List String}
    {discriminator : Option String} (nonempty : sets ≠ []) (sub : sets ⊆ c.setNames) :
    Grows c (mergeProperty c p type sets discriminator) ∧
      (mergeProperty c p type sets discriminator).sets = c.sets := by
  unfold mergeProperty
  split
  · refine ⟨⟨.modifyFirst c ?_ (fun _ => rfl) (fun _ => rfl), fun h => ?_⟩, rfl⟩
    · intro q hq
      rw [location_of_isBodyField hq]
      simp
    · exact h.modifyFirst (fun _ => rfl) fun q hq => widen_fits (h.fits q hq) sub
  · refine ⟨⟨.addParameter c ?_, fun h => h.addParameter ?_ ?_⟩, rfl⟩
    · simp [Parameter.inSets]
    · simpa [Parameter.inSets] using fieldName_not_mem c p.name "Property"
    · exact .of_only rfl (by simp [Parameter.inSets]) nonempty sub

theorem mergeEntry_grows {entry : BodyEntry} (nonempty : entry.sets ≠ [])
    (sub : entry.sets ⊆ c.setNames) (h : mergeEntry g c entry = .ok c') :
    Grows c c' ∧ c'.sets = c.sets := by
  unfold mergeEntry at h
  split at h
  · cases h
  split at h
  · cases h
  · cases h
    exact ⟨.refl _, rfl⟩
  · split at h
    · cases h
    · cases h
      exact mergeProperty_grows nonempty sub

theorem mergeEntries_grows {entries : List BodyEntry}
    (fit : ∀ entry ∈ entries, entry.sets ≠ [] ∧ entry.sets ⊆ c.setNames)
    (h : mergeEntries g c entries = (c', none)) : Grows c c' ∧ c'.sets = c.sets := by
  induction entries generalizing c with
  | nil =>
    cases h
    exact ⟨.refl _, rfl⟩
  | cons entry rest ih =>
    rw [List.forall_mem_cons] at fit
    unfold mergeEntries at h
    split at h
    · cases h
    · rename_i merged hmerged
      obtain ⟨hgrows, hsets⟩ := mergeEntry_grows fit.1.1 fit.1.2 hmerged
      have names : merged.setNames = c.setNames := by rw [Command.setNames, hsets, Command.setNames]
      obtain ⟨hrest, hsame⟩ := ih (by rw [names]; exact fit.2) h
      exact ⟨hgrows.trans hrest, hsame.trans hsets⟩

/-! ## The default -/

theorem chooseDefault_grows {sets : List String} (nonempty : sets ≠ [])
    (sub : sets ⊆ c.setNames) :
    Grows c (chooseDefault c sets) ∧
      (c.Coherent → (chooseDefault c sets).sets.countP (·.isDefault) = 1) := by
  have offered : sets.map (candidateOf c) ≠ [] := by simpa using nonempty
  obtain ⟨best, hbest⟩ := Selection.exists_selectDefault offered
  have declared : best.name ∈ c.setNames := by
    obtain ⟨set, hset, rfl⟩ := List.mem_map.1 (Selection.mem_of_selectDefault hbest)
    exact sub hset
  unfold chooseDefault
  rw [hbest]
  exact ⟨⟨.setDefault c _, fun h => (h.setDefault declared).1⟩, fun h => (h.setDefault declared).2⟩

/-- What `resolve` does when it succeeds. -/
theorem resolve_eq_ok (h : resolve g base c = (c', none)) :
    ∃ order types key entries merged, hierarchy g base = .ok order ∧
      concreteTypes g order = .ok types ∧ (declareTypes base c types).2 ≠ [] ∧
      g.keyProperty base = .ok key ∧
      bodyEntries g base key (declareTypes base c types).2 order = .ok entries ∧
      mergeEntries g (declareTypes base c types).1 entries = (merged, none) ∧
      c' = chooseDefault merged ((declareTypes base c types).2.map (·.2)) := by
  unfold resolve at h
  split at h
  · cases h
  rename_i order horder
  split at h
  · cases h
  rename_i types htypes
  dsimp only at h
  split at h
  · split at h <;> cases h
  rename_i hsets
  split at h
  · cases h
  rename_i key hkey
  split at h
  · cases h
  rename_i entries hentries
  split at h
  · cases h
  rename_i merged hmerged
  cases h
  exact ⟨order, types, key, entries, merged, horder, htypes, by simpa using hsets, hkey, hentries,
    hmerged, rfl⟩

/-- A command that obeys the rules so far, with a body, has a default set. -/
theorem withBody_grows (h : withBody g base c = .ok c') :
    Grows c c' ∧ (c.Coherent → c'.sets.countP (·.isDefault) = 1) := by
  unfold withBody at h
  split at h
  · rename_i done hdone
    cases h
    obtain ⟨order, types, key, entries, merged, _, _, hsets, _, hentries, hmerged, rfl⟩ :=
      resolve_eq_ok hdone
    obtain ⟨hdeclared, hnames⟩ := declareTypes_grows base c types
    have sub : (declareTypes base c types).2.map (·.2) ⊆
        (declareTypes base c types).1.setNames := by
      intro set hset
      obtain ⟨entry, hentry, rfl⟩ := List.mem_map.1 hset
      exact hnames entry hentry
    have fit := sets_of_mem_bodyEntries hentries
    obtain ⟨hbody, hsame⟩ := mergeEntries_grows (fun entry hentry =>
      ⟨(fit entry hentry).1, List.Subset.trans (fit entry hentry).2 sub⟩) hmerged
    have names : merged.setNames = (declareTypes base c types).1.setNames := by
      rw [Command.setNames, hsame, Command.setNames]
    rw [← names] at sub
    obtain ⟨hdefault, hone⟩ := chooseDefault_grows (by simpa using hsets) sub
    exact ⟨(hdeclared.trans hbody).trans hdefault,
      fun hc => hone (hbody.coherent (hdeclared.coherent hc))⟩
  · cases h

end Synthesis
end EdmCommands
