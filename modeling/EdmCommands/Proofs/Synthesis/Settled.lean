import EdmCommands.Proofs.Schema.Operations
import EdmCommands.Proofs.Synthesis.Fields

/-!
# EdmCommands.Proofs.Synthesis.Settled

A body that is resolved stays as it is when it is resolved again. Each stage finds what it made
the first time: the set and the switch of each type, the field of each entry, and the same best
set. No condition on the schema graph or on the command is needed, because the stages look for what
they need by the same keys by which they add it.

* `Keeps`: a command still selects types as another one does.
* `Absorbs`: merging an entry into a command changes nothing.
* `absorbs_of_mergeEntry`, `Absorbs.mergeEntry`: one step; `absorbs_of_mergeEntries`: all of them.
* `resolve_resolved`: so nothing changes.
-/

namespace EdmCommands
namespace Synthesis

open Schema

variable {g : Graph} {base : ClassId} {c c' : Command} {t : ConcreteType}

/-! ## Types that are declared already -/

/-- The name of the set that selects a type. -/
def setFor (c : Command) (qualified : String) : Option String :=
  (c.sets.find? (·.derivedType == some qualified)).map (·.name)

/-- Where a command has a set or a switch for a type, another one has the same set, and a switch. -/
structure Keeps (c c' : Command) : Prop where
  sets : ∀ qualified set, setFor c qualified = some set → setFor c' qualified = some set
  switches : ∀ qualified, c.parameters.any (isSwitchFor qualified) = true →
    c'.parameters.any (isSwitchFor qualified) = true

namespace Keeps

theorem refl (c : Command) : Keeps c c :=
  ⟨fun _ _ h => h, fun _ h => h⟩

theorem trans {c₁ c₂ c₃ : Command} (h₁ : Keeps c₁ c₂) (h₂ : Keeps c₂ c₃) : Keeps c₁ c₃ :=
  ⟨fun q s h => h₂.sets q s (h₁.sets q s h), fun q h => h₂.switches q (h₁.switches q h)⟩

/-- What is added comes behind what is found first. -/
theorem append (c : Command) (sets : List ParameterSet) (parameters : List Parameter) :
    Keeps c { c with sets := c.sets ++ sets, parameters := c.parameters ++ parameters } := by
  constructor
  · intro qualified set h
    obtain ⟨s, hs, hname⟩ := Option.map_eq_some_iff.1 h
    unfold setFor
    rw [List.find?_append, hs, Option.some_or, Option.map_some, hname]
  · intro qualified h
    rw [List.any_append, h, Bool.true_or]

end Keeps

/-- A type gets at most one set and one switch, behind those that are there. -/
theorem declareType_appends (base : ClassId) (c : Command) (t : ConcreteType) :
    ∃ sets switches, (declareType base c t).1 =
      { c with sets := c.sets ++ sets, parameters := c.parameters ++ switches } := by
  have hset : ∃ sets, (ensureSet c t).1 = { c with sets := c.sets ++ sets } := by
    unfold ensureSet
    split
    · exact ⟨[], by rw [List.append_nil]⟩
    · exact ⟨_, rfl⟩
  have hswitch : ∀ (c : Command) (set : String), ∃ switches,
      ensureSwitch c set t = { c with parameters := c.parameters ++ switches } := by
    intro c set
    unfold ensureSwitch
    split
    · exact ⟨[], by rw [List.append_nil]⟩
    · exact ⟨_, rfl⟩
  obtain ⟨sets, hsets⟩ := hset
  unfold declareType
  dsimp only
  rw [hsets]
  by_cases hbase : t.id = base
  · exact ⟨sets, [], by rw [if_pos hbase, List.append_nil]⟩
  · obtain ⟨switches, hadded⟩ := hswitch { c with sets := c.sets ++ sets } (ensureSet c t).2
    exact ⟨sets, switches, by rw [if_neg hbase, hadded]⟩

theorem declareType_keeps (base : ClassId) (c : Command) (t : ConcreteType) :
    Keeps c (declareType base c t).1 := by
  obtain ⟨sets, switches, h⟩ := declareType_appends base c t
  rw [h]
  exact .append c sets switches

theorem declareTypes_keeps (base : ClassId) (c : Command) (types : List ConcreteType) :
    Keeps c (declareTypes base c types).1 := by
  induction types generalizing c with
  | nil => exact .refl c
  | cons t rest ih => exact (declareType_keeps base c t).trans (ih _)

theorem setFor_ensureSet (c : Command) (t : ConcreteType) :
    setFor (ensureSet c t).1 t.qualified = some (ensureSet c t).2 := by
  unfold ensureSet setFor
  split
  · rename_i s hs
    rw [hs, Option.map_some]
  · rename_i hnone
    rw [List.find?_append, hnone]
    simp

/-- A type that is declared has the set it got, and a switch unless it is the base. -/
theorem declared_of_declareType (base : ClassId) (c : Command) (t : ConcreteType) :
    setFor (declareType base c t).1 t.qualified = some (declareType base c t).2 ∧
      (t.id ≠ base → (declareType base c t).1.parameters.any (isSwitchFor t.qualified) = true) := by
  have hset := setFor_ensureSet c t
  unfold declareType
  dsimp only
  by_cases hbase : t.id = base
  · rw [if_pos hbase]
    exact ⟨hset, fun hne => absurd hbase hne⟩
  · rw [if_neg hbase]
    unfold ensureSwitch
    split
    · rename_i hswitch
      exact ⟨hset, fun _ => hswitch⟩
    · refine ⟨hset, fun _ => ?_⟩
      simp [isSwitchFor, typeSwitch, Parameter.withDescription, Parameter.inSets]

theorem declareType_of_declared {set : String} (hset : setFor c t.qualified = some set)
    (hswitch : t.id ≠ base → c.parameters.any (isSwitchFor t.qualified) = true) :
    declareType base c t = (c, set) := by
  obtain ⟨s, hs, hname⟩ := Option.map_eq_some_iff.1 hset
  have hfound : ensureSet c t = (c, set) := by
    unfold ensureSet
    rw [hs]
    simp only [hname]
  unfold declareType
  rw [hfound]
  dsimp only
  by_cases hbase : t.id = base
  · rw [if_pos hbase]
  · rw [if_neg hbase, ensureSwitch, if_pos (hswitch hbase)]

/-- Types that were declared once are found again, with the sets that they got then. -/
theorem declareTypes_of_keeps {types : List ConcreteType}
    (h : Keeps (declareTypes base c types).1 c') :
    declareTypes base c' types = (c', (declareTypes base c types).2) := by
  induction types generalizing c with
  | nil => rfl
  | cons t rest ih =>
    have hrest : Keeps (declareTypes base (declareType base c t).1 rest).1 c' := h
    have hfirst := (declareTypes_keeps base (declareType base c t).1 rest).trans hrest
    obtain ⟨hset, hswitch⟩ := declared_of_declareType base c t
    have again : declareType base c' t = (c', (declareType base c t).2) :=
      declareType_of_declared (hfirst.sets _ _ hset)
        fun hbase => hfirst.switches _ (hswitch hbase)
    simp only [declareTypes, again, ih hrest]

theorem Merges.keeps {entries : List BodyEntry} (h : Merges g c entries c') : Keeps c c' := by
  constructor
  · intro qualified set hset
    rwa [setFor, h.sets]
  · intro qualified hany
    obtain ⟨p, hp, hswitch⟩ := List.any_eq_true.1 hany
    have hmem : p ∈ c'.parameters.filter (isSwitchFor qualified) := by
      rw [h.switches]
      exact List.mem_filter.2 ⟨hp, hswitch⟩
    exact List.any_eq_true.2 ⟨p, (List.mem_filter.1 hmem).1, hswitch⟩

theorem chooseDefault_keeps (c : Command) (sets : List String) :
    Keeps c (chooseDefault c sets) := by
  unfold chooseDefault
  split
  · refine ⟨fun qualified set h => ?_, fun _ h => h⟩
    unfold setFor at h ⊢
    rw [List.find?_map, Option.map_map]
    exact h
  · exact .refl c

/-! ## One field -/

section ModifyFirst

variable {α : Type} {test other : α → Bool} {change : α → α}

theorem find?_modifyFirst (kept : ∀ x, test x = true → test (change x) = true) (l : List α) :
    (modifyFirst test change l).find? test = (l.find? test).map change := by
  induction l with
  | nil => rfl
  | cons x rest ih =>
    by_cases hx : test x = true
    · simp [modifyFirst, hx, kept x hx]
    · simp [modifyFirst, hx, ih]

theorem find?_modifyFirst_other
    (apart : ∀ x, test x = true → other x = false ∧ other (change x) = false) (l : List α) :
    (modifyFirst test change l).find? other = l.find? other := by
  induction l with
  | nil => rfl
  | cons x rest ih =>
    by_cases hx : test x = true
    · simp [modifyFirst, hx, (apart x hx).1, (apart x hx).2]
    · simp only [modifyFirst, hx, Bool.false_eq_true, if_false, List.find?_cons, ih]

theorem modifyFirst_of_fixed {x : α} {l : List α} (found : l.find? test = some x)
    (fixed : change x = x) : modifyFirst test change l = l := by
  induction l with
  | nil => cases found
  | cons y rest ih =>
    by_cases hy : test y = true
    · rw [List.find?_cons_of_pos hy] at found
      cases found
      rw [modifyFirst, if_pos hy, fixed]
    · rw [List.find?_cons_of_neg hy] at found
      rw [modifyFirst, if_neg hy, ih found]

end ModifyFirst

section Widen

variable {p q : Parameter} {sets sets' : List String} {type type' : ParameterType}
  {discriminator discriminator' : Option String}

/-- A parameter is as wide as it can get for an entry: it is in the sets, and its type and its
derived type are those of the entry or given up. -/
theorem widen_eq_self_iff :
    widen sets type discriminator p = p ↔
      (∀ set ∈ sets, p.isIn set = true) ∧ (p.type = type ∨ p.type = .object) ∧
        (p.discriminator = discriminator ∨ p.discriminator = none) := by
  have members : sets.foldl SetMembership.insert p.membership = p.membership ↔
      ∀ set ∈ sets, p.isIn set = true := by
    constructor
    · intro h set hset
      rw [Parameter.isIn, ← h, contains_foldl_insert]
      exact .inl hset
    · intro h
      unfold Parameter.isIn at h
      rw [foldl_insert_eq]
      cases hm : p.membership with
      | all => rfl
      | only old =>
        rw [hm] at h
        refine congrArg SetMembership.only (NameSet.eq_of_mem_iff fun x => ?_)
        rw [NameSet.mem_foldl_insert, or_iff_right_iff_imp]
        exact fun hx => NameSet.contains_iff.1 (h x hx)
  have types : (if p.type = type then p.type else .object) = p.type ↔
      p.type = type ∨ p.type = .object := by
    by_cases htype : p.type = type
    · simp [htype]
    · simp [htype, eq_comm]
  have discriminators : (if p.discriminator = discriminator then p.discriminator else none) =
      p.discriminator ↔ p.discriminator = discriminator ∨ p.discriminator = none := by
    by_cases hd : p.discriminator = discriminator
    · simp [hd]
    · simp [hd, eq_comm]
  rw [← members, ← types, ← discriminators]
  constructor
  · intro h
    exact ⟨congrArg Parameter.membership h, congrArg Parameter.type h,
      congrArg Parameter.discriminator h⟩
  · rintro ⟨hm, ht, hd⟩
    rw [widen, hm, ht, hd]

theorem widen_widen (p : Parameter) :
    widen sets type discriminator (widen sets type discriminator p) =
      widen sets type discriminator p := by
  refine widen_eq_self_iff.2 ⟨fun set hset => isIn_widen.2 (.inl hset), ?_, ?_⟩
  · by_cases htype : p.type = type
    · exact .inl (by simp [widen, htype])
    · exact .inr (by simp [widen, htype])
  · by_cases hd : p.discriminator = discriminator
    · exact .inl (by simp [widen, hd])
    · exact .inr (by simp [widen, hd])

/-- Another entry does not make a parameter narrower. -/
theorem widen_of_widen (h : widen sets type discriminator p = p) :
    widen sets type discriminator (widen sets' type' discriminator' p) =
      widen sets' type' discriminator' p := by
  obtain ⟨hin, htype, hdiscriminator⟩ := widen_eq_self_iff.1 h
  refine widen_eq_self_iff.2 ⟨fun set hset => isIn_widen.2 (.inr (hin set hset)), ?_, ?_⟩
  · by_cases ht : p.type = type'
    · rwa [widen, if_pos ht]
    · exact .inr (by simp [widen, ht])
  · by_cases hd : p.discriminator = discriminator'
    · rwa [widen, if_pos hd]
    · exact .inr (by simp [widen, hd])

theorem widen_newField {property : Property} :
    widen sets type discriminator (newField c property type sets discriminator) =
      newField c property type sets discriminator := by
  refine widen_eq_self_iff.2 ⟨fun set hset => isIn_newField.2 hset, .inl ?_, .inl rfl⟩
  simp [newField, Parameter.inSets]

end Widen

section MergeProperty

variable {p : Property} {type : ParameterType} {sets : List String}
  {discriminator : Option String} {q : Parameter}

theorem isBodyField_widen {wire : String} :
    isBodyField wire (widen sets type discriminator q) = isBodyField wire q := rfl

theorem mergeProperty_of_found (h : c.parameters.find? (isBodyField p.name) = some q) :
    mergeProperty c p type sets discriminator =
      { c with
        parameters :=
          modifyFirst (isBodyField p.name) (widen sets type discriminator) c.parameters } := by
  have hany : c.parameters.any (isBodyField p.name) = true :=
    List.any_eq_true.2 ⟨q, List.mem_of_find?_eq_some h, List.find?_some h⟩
  rw [mergeProperty, if_pos hany]

theorem mergeProperty_of_not_found (h : c.parameters.find? (isBodyField p.name) = none) :
    mergeProperty c p type sets discriminator =
      { c with parameters := c.parameters ++ [newField c p type sets discriminator] } := by
  have hany : ¬ c.parameters.any (isBodyField p.name) = true := by
    rw [List.any_eq_true]
    rintro ⟨q, hq, hfield⟩
    exact List.find?_eq_none.1 h q hq hfield
  rw [mergeProperty, if_neg hany]
  rfl

theorem isBodyField_newField {wire : String} :
    isBodyField wire (newField c p type sets discriminator) = (p.name == wire) := by
  rw [isBodyField, newField_wire, newField_location]
  rfl

/-- After a property is merged, its field is as wide as the property asks. -/
theorem exists_field_mergeProperty (c : Command) (p : Property) (type : ParameterType)
    (sets : List String) (discriminator : Option String) :
    ∃ q, (mergeProperty c p type sets discriminator).parameters.find? (isBodyField p.name) =
      some q ∧ widen sets type discriminator q = q := by
  cases h : c.parameters.find? (isBodyField p.name) with
  | some q =>
    refine ⟨widen sets type discriminator q, ?_, widen_widen q⟩
    rw [mergeProperty_of_found h]
    dsimp only
    rw [find?_modifyFirst (fun x hx => by rwa [isBodyField_widen]), h, Option.map_some]
  | none =>
    refine ⟨newField c p type sets discriminator, ?_, widen_newField⟩
    rw [mergeProperty_of_not_found h]
    dsimp only
    rw [List.find?_append, h, Option.none_or]
    simp [isBodyField_newField]

/-- A field that is as wide as some entry asks stays so when a property is merged. -/
theorem exists_field_of_mergeProperty {wire : String} {sets' : List String}
    {type' : ParameterType} {discriminator' : Option String}
    (found : c.parameters.find? (isBodyField wire) = some q)
    (wide : widen sets' type' discriminator' q = q) :
    ∃ r, (mergeProperty c p type sets discriminator).parameters.find? (isBodyField wire) =
      some r ∧ widen sets' type' discriminator' r = r := by
  cases h : c.parameters.find? (isBodyField p.name) with
  | some r =>
    rw [mergeProperty_of_found h]
    dsimp only
    by_cases hwire : wire = p.name
    · subst hwire
      rw [find?_modifyFirst (fun x hx => by rwa [isBodyField_widen]), found, Option.map_some]
      exact ⟨_, rfl, widen_of_widen wide⟩
    · refine ⟨q, ?_, wide⟩
      rw [find?_modifyFirst_other (fun x hx => ?_), found]
      have hother : isBodyField wire x = false := by
        rw [Bool.eq_false_iff, ne_eq, isBodyField_iff]
        rintro ⟨_, heq⟩
        exact hwire (heq.symm.trans (isBodyField_iff.1 hx).2)
      exact ⟨hother, by rwa [isBodyField_widen]⟩
  | none =>
    refine ⟨q, ?_, wide⟩
    rw [mergeProperty_of_not_found h]
    dsimp only
    rw [List.find?_append, found, Option.some_or]

end MergeProperty

/-! ## All fields -/

/-- Merging the entry changes nothing: its property is not sent, or there is a field for it that is
as wide as the entry asks. -/
def Absorbs (g : Graph) (c : Command) (entry : BodyEntry) : Prop :=
  ∃ p, g.propertyAt entry.property = .ok p ∧
    (isEligible g p c.operation = .ok false ∨
      isEligible g p c.operation = .ok true ∧
        ∃ type q, g.parameterType p.type p.isCollection = .ok type ∧
          c.parameters.find? (isBodyField p.name) = some q ∧
          widen entry.sets type entry.discriminator q = q)

variable {entry other : BodyEntry} {entries : List BodyEntry}

theorem mergeEntry_of_absorbs (h : Absorbs g c entry) : mergeEntry g c entry = .ok c := by
  obtain ⟨p, hp, hno | ⟨hyes, type, q, htype, hfound, hwide⟩⟩ := h
  · simp only [mergeEntry, hp, hno]
  · simp only [mergeEntry, hp, hyes, htype]
    rw [mergeProperty_of_found hfound, modifyFirst_of_fixed hfound hwide]

/-- What merging an entry does: nothing, or it merges the property. -/
theorem mergeEntry_cases (h : mergeEntry g c entry = .ok c') :
    ∃ p, g.propertyAt entry.property = .ok p ∧
      (isEligible g p c.operation = .ok false ∧ c' = c ∨
        isEligible g p c.operation = .ok true ∧
          ∃ type, g.parameterType p.type p.isCollection = .ok type ∧
            c' = mergeProperty c p type entry.sets entry.discriminator) := by
  unfold mergeEntry at h
  split at h
  · cases h
  rename_i p hp
  refine ⟨p, hp, ?_⟩
  split at h
  · cases h
  · rename_i hno
    cases h
    exact .inl ⟨hno, rfl⟩
  · rename_i hyes
    split at h
    · cases h
    · rename_i type htype
      cases h
      exact .inr ⟨hyes, type, htype, rfl⟩

theorem absorbs_of_mergeEntry (h : mergeEntry g c entry = .ok c') : Absorbs g c' entry := by
  obtain ⟨p, hp, ⟨hno, rfl⟩ | ⟨hyes, type, htype, rfl⟩⟩ := mergeEntry_cases h
  · exact ⟨p, hp, .inl hno⟩
  · obtain ⟨q, hfound, hwide⟩ :=
      exists_field_mergeProperty c p type entry.sets entry.discriminator
    refine ⟨p, hp, .inr ⟨?_, type, q, htype, hfound, hwide⟩⟩
    rwa [mergeProperty_rest.1]

theorem Absorbs.mergeEntry (h : Absorbs g c entry) (hmerge : mergeEntry g c other = .ok c') :
    Absorbs g c' entry := by
  obtain ⟨_, _, ⟨_, rfl⟩ | ⟨_, type', _, rfl⟩⟩ := mergeEntry_cases hmerge
  · exact h
  · obtain ⟨p, hp, hno | ⟨hyes, type, q, htype, hfound, hwide⟩⟩ := h
    · exact ⟨p, hp, .inl (by rwa [mergeProperty_rest.1])⟩
    · obtain ⟨r, hfound, hwide⟩ := exists_field_of_mergeProperty hfound hwide
      refine ⟨p, hp, .inr ⟨?_, type, r, htype, hfound, hwide⟩⟩
      rwa [mergeProperty_rest.1]

theorem Absorbs.mergeEntries (h : Absorbs g c entry)
    (hmerge : mergeEntries g c entries = (c', none)) : Absorbs g c' entry := by
  induction entries generalizing c with
  | nil =>
    cases hmerge
    exact h
  | cons next rest ih =>
    unfold Synthesis.mergeEntries at hmerge
    split at hmerge
    · cases hmerge
    · rename_i merged hmerged
      exact ih (h.mergeEntry hmerged) hmerge

theorem absorbs_of_mergeEntries (h : mergeEntries g c entries = (c', none)) :
    ∀ entry ∈ entries, Absorbs g c' entry := by
  induction entries generalizing c with
  | nil => simp
  | cons next rest ih =>
    unfold mergeEntries at h
    split at h
    · cases h
    · rename_i merged hmerged
      rw [List.forall_mem_cons]
      exact ⟨(absorbs_of_mergeEntry hmerged).mergeEntries h, ih h⟩

theorem mergeEntries_of_absorbs (h : ∀ entry ∈ entries, Absorbs g c entry) :
    mergeEntries g c entries = (c, none) := by
  induction entries with
  | nil => rfl
  | cons next rest ih =>
    rw [List.forall_mem_cons] at h
    rw [mergeEntries, mergeEntry_of_absorbs h.1]
    exact ih h.2

/-! ## The default -/

theorem candidateOf_congr (h : c'.parameters = c.parameters) : candidateOf c' = candidateOf c := by
  funext set
  simp only [candidateOf, Command.parametersIn, h]

/-- The best set depends on the parameters only, and it is the default already. -/
theorem chooseDefault_chooseDefault (c : Command) (sets : List String) :
    chooseDefault (chooseDefault c sets) sets = chooseDefault c sets := by
  have hparameters : (chooseDefault c sets).parameters = c.parameters := by
    unfold chooseDefault
    split <;> rfl
  have hcandidates := candidateOf_congr hparameters
  cases hbest : Selection.selectDefault (sets.map (candidateOf c)) with
  | none => simp only [chooseDefault, hbest]
  | some best =>
    have hchosen : chooseDefault c sets = { c with
        sets := c.sets.map fun s => { s with isDefault := s.name == best.name } } := by
      simp only [chooseDefault, hbest]
    rw [chooseDefault, hcandidates, hbest, hchosen]
    simp only [List.map_map, Function.comp_def]

theorem Absorbs.chooseDefault (h : Absorbs g c entry) (sets : List String) :
    Absorbs g (Synthesis.chooseDefault c sets) entry := by
  have same : (Synthesis.chooseDefault c sets).parameters = c.parameters ∧
      (Synthesis.chooseDefault c sets).operation = c.operation := by
    unfold Synthesis.chooseDefault
    split <;> exact ⟨rfl, rfl⟩
  unfold Absorbs
  rw [same.1, same.2]
  exact h

/-! ## The whole body -/

/-- The stages of `resolve`, put together. -/
theorem resolve_of_stages {order : List ClassId} {types : List ConcreteType}
    {sets : List (ClassId × String)} {key : Option PropertyId} {declared merged : Command}
    (horder : hierarchy g base = .ok order) (htypes : concreteTypes g order = .ok types)
    (hdeclared : declareTypes base c types = (declared, sets)) (nonempty : sets ≠ [])
    (hkey : g.keyProperty base = .ok key)
    (hentries : bodyEntries g base key sets order = .ok entries)
    (hmerged : mergeEntries g declared entries = (merged, none)) :
    resolve g base c = (chooseDefault merged (sets.map (·.2)), none) := by
  have hsome : sets.isEmpty = false := by simpa using nonempty
  simp only [resolve, horder, htypes, hdeclared, hsome, Bool.false_eq_true, if_false, hkey,
    hentries, hmerged]

/-- A command with a resolved body stays as it is, in every part, when its body is resolved again,
whatever sets and parameters it had at first. -/
theorem resolve_resolved (h : resolve g base c = (c', none)) :
    resolve g base c' = (c', none) := by
  obtain ⟨order, types, key, entries, merged, horder, htypes, hsets, hkey, hentries, hmerged,
    rfl⟩ := resolve_eq_ok h
  have hkeeps : Keeps (declareTypes base c types).1
      (chooseDefault merged ((declareTypes base c types).2.map (·.2))) :=
    (mergeEntries_merges hmerged).keeps.trans (chooseDefault_keeps merged _)
  have habsorbs := fun entry hentry =>
    (absorbs_of_mergeEntries hmerged entry hentry).chooseDefault
      ((declareTypes base c types).2.map (·.2))
  have again := resolve_of_stages horder htypes (declareTypes_of_keeps hkeeps) hsets hkey hentries
    (mergeEntries_of_absorbs habsorbs)
  rw [again, chooseDefault_chooseDefault]

/-- A command that makes a disc of the library, with a set and fields that no type asked for; one
of them is called as the switch of the discs will be. -/
def newDisc : Command :=
  { name := ⟨.new, "Item"⟩
    operation := .post
    httpMethod := .post
    urlTemplate := "items"
    route := "items"
    sets := [{ name := "Book", isDefault := true }]
    parameters := [
      { name := "Disc", wireName := some "title", type := .switch, location := .body
        discriminator := some "library.Disc", membership := .only (.ofList ["Book"]) }] }

theorem resolve_resolved_library :
    ∃ c', resolve Graph.library ⟨0⟩ newDisc = (c', none) ∧
      c'.setNames = ["Book", "Book1", "Disc"] ∧ c'.parameterNames = ["Disc", "Book1", "Disc1"] ∧
      resolve Graph.library ⟨0⟩ c' = (c', none) := by
  have done : (resolve Graph.library ⟨0⟩ newDisc).2 = none := by decide +kernel
  have h : resolve Graph.library ⟨0⟩ newDisc =
      ((resolve Graph.library ⟨0⟩ newDisc).1, none) := Prod.ext rfl done
  exact ⟨_, h, by decide +kernel, by decide +kernel, resolve_resolved h⟩

end Synthesis
end EdmCommands
