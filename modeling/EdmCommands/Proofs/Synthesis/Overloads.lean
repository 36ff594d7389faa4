import EdmCommands.Proofs.Synthesis.Commands
import EdmCommands.Proofs.Synthesis.Fields

/-!
# EdmCommands.Proofs.Synthesis.Overloads

What merging the arguments of overloads does. Arguments are merged one at a time, so the invariant
is about those merged so far, each with the set of its overload: a parameter stands for all of them
that have its name.

* `Carries`: a parameter and the arguments that it stands for.
* `Merged`: the invariant of a command.
* `Merged.mergeArgument`, `Merged.mergeArguments`, `Merged.mergeOverloads`: one argument, one
  overload, all of them.
-/

namespace EdmCommands
namespace Synthesis

open Schema

variable {g : Graph} {location : ParameterLocation} {c c' : Command} {p : Parameter}

/-- An argument of the overload that has a set. -/
structure Argument where
  set : String
  declared : MethodParameter

/-- The parameters at the place of arguments. -/
def argumentParameters (location : ParameterLocation) (c : Command) : List Parameter :=
  c.parameters.filter (·.location == location)

def argumentNames (location : ParameterLocation) (c : Command) : List String :=
  (argumentParameters location c).map (·.effectiveWireName)

/-- The parameters of methods that have a name. -/
def declarations (name : String) (declared : List MethodParameter) : List MethodParameter :=
  declared.filter (·.name == name)

/-- The type is the one that all declarations agree on, or any value goes because two of them
disagree. -/
def CommonType (g : Graph) (declared : List MethodParameter) (type : ParameterType) : Prop :=
  (∀ q ∈ declared, g.parameterType q.type q.isCollection = .ok type) ∨
    type = .object ∧ ∃ q ∈ declared, ∃ q' ∈ declared,
      g.parameterType q.type q.isCollection ≠ g.parameterType q'.type q'.isCollection

/-- The checks for null are those that a declaration asks for: none where its value may be null, and
else the one that its type needs. -/
def ChecksAs (g : Graph) (q : MethodParameter) (p : Parameter) : Prop :=
  ∃ type, g.parameterType q.type q.isCollection = .ok type ∧
    p.validateNotNullOrEmpty = (!q.nullable && type.isTextual) ∧
    p.validateNotNull = (!q.nullable && !type.isTextual)

/-! ## One parameter -/

/-- The parameter stands for the arguments of its name: it is in their sets and in no others, it is
mandatory where the argument may not be null, and it takes what they take. It is checked as the
first of them asks. -/
structure Carries (g : Graph) (args : List Argument) (p : Parameter) : Prop where
  only : ∃ sets, p.membership = .only sets ∧ ∀ s ∈ p.mandatoryIn, s ∈ sets
  members : ∀ set, p.isIn set = true ↔
    ∃ a ∈ args, a.set = set ∧ a.declared.name = p.effectiveWireName
  mandatory : ∀ a ∈ args, a.declared.name = p.effectiveWireName →
    p.isMandatoryIn a.set = !a.declared.nullable
  declared : declarations p.effectiveWireName (args.map (·.declared)) ≠ []
  type : CommonType g (declarations p.effectiveWireName (args.map (·.declared))) p.type
  checks : ∃ q rest, declarations p.effectiveWireName (args.map (·.declared)) = q :: rest ∧
    ChecksAs g q p

section Carries

variable {args : List Argument} {a : Argument} {type : ParameterType}

theorem declarations_append_of_ne {name : String} {declared : List MethodParameter}
    {q : MethodParameter} (h : q.name ≠ name) :
    declarations name (declared ++ [q]) = declarations name declared := by
  simp [declarations, h]

theorem declarations_append_of_eq {name : String} {declared : List MethodParameter}
    {q : MethodParameter} (h : q.name = name) :
    declarations name (declared ++ [q]) = declarations name declared ++ [q] := by
  simp [declarations, h]

/-- An argument of another name changes nothing. -/
theorem Carries.other (h : Carries g args p) (hne : a.declared.name ≠ p.effectiveWireName) :
    Carries g (args ++ [a]) p := by
  have same : declarations p.effectiveWireName ((args ++ [a]).map (·.declared)) =
      declarations p.effectiveWireName (args.map (·.declared)) := by
    rw [List.map_append, List.map_singleton, declarations_append_of_ne hne]
  refine ⟨h.only, fun set => ?_, fun b hb hname => ?_, ?_, ?_, ?_⟩
  · rw [h.members]
    simp [or_and_right, exists_or, hne]
  · rcases List.mem_append.1 hb with hb | hb
    · exact h.mandatory b hb hname
    · rw [List.mem_singleton.1 hb] at hname
      exact absurd hname hne
  · rw [same]
    exact h.declared
  · rw [same]
    exact h.type
  · rw [same]
    exact h.checks

/-- One more declaration either has the type so far or makes it any value. -/
theorem CommonType.append {declared : List MethodParameter} {q : MethodParameter}
    {old : ParameterType} (h : CommonType g declared old) (nonempty : declared ≠ [])
    (htype : g.parameterType q.type q.isCollection = .ok type) :
    CommonType g (declared ++ [q]) (if old = type then old else .object) := by
  rcases h with agree | ⟨rfl, x, hx, y, hy, disagree⟩
  · by_cases hold : old = type
    · subst hold
      rw [if_pos rfl]
      left
      intro r hr
      rcases List.mem_append.1 hr with hr | hr
      · exact agree r hr
      · rw [List.mem_singleton.1 hr]
        exact htype
    · rw [if_neg hold]
      obtain ⟨x, hx⟩ := List.exists_mem_of_ne_nil declared nonempty
      refine .inr ⟨rfl, x, List.mem_append_left _ hx, q, by simp, ?_⟩
      rw [agree x hx, htype]
      exact fun heq => hold (Except.ok.inj heq)
  · have object : (if ParameterType.object = type then .object else .object) =
        ParameterType.object := ite_self _
    rw [object]
    exact .inr ⟨rfl, x, List.mem_append_left _ hx, y, List.mem_append_left _ hy, disagree⟩

/-- A parameter of one more set stands for the argument there too. -/
theorem Carries.share (h : Carries g args p) (hname : a.declared.name = p.effectiveWireName)
    (fresh : ∀ b ∈ args, b.set = a.set → b.declared.name ≠ a.declared.name)
    (htype : g.parameterType a.declared.type a.declared.isCollection = .ok type) :
    Carries g (args ++ [a]) (shareArgument a.set (!a.declared.nullable) type p) := by
  obtain ⟨sets, honly, hkept⟩ := h.only
  have isIn : ∀ set, p.isIn set = true ↔ set ∈ sets := by
    intro set
    rw [Parameter.isIn, honly]
    exact NameSet.contains_iff
  have outside : a.set ∉ sets := by
    intro hmem
    obtain ⟨b, hb, hset, hbname⟩ := (h.members a.set).1 ((isIn a.set).2 hmem)
    exact fresh b hb hset (hbname.trans hname.symm)
  have more : declarations p.effectiveWireName ((args ++ [a]).map (·.declared)) =
      declarations p.effectiveWireName (args.map (·.declared)) ++ [a.declared] := by
    rw [List.map_append, List.map_singleton, declarations_append_of_eq hname]
  refine ⟨⟨sets.insert a.set, ?_, fun s hs => ?_⟩, fun set => ?_, fun b hb hbname => ?_, ?_, ?_, ?_⟩
  · rw [shareArgument_membership, honly]
    rfl
  · have hin : p.isIn s = true ∨ s = a.set := by
      have := Parameter.isIn_of_mem_mandatoryIn_joinSet p
        (fun s hs => (isIn s).2 (hkept s hs)) hs
      exact (Parameter.isIn_joinSet.1 this).symm
    rw [NameSet.mem_insert, ← isIn]
    exact hin.symm
  · rw [shareArgument_effectiveWireName, isIn_shareArgument, h.members]
    simp only [List.mem_append, List.mem_singleton, or_and_right, exists_or, exists_eq_left, hname,
      and_true]
    rw [or_comm, eq_comm]
  · rw [shareArgument_effectiveWireName] at hbname
    rw [isMandatoryIn_shareArgument]
    rcases List.mem_append.1 hb with hb | hb
    · have hne : b.set ≠ a.set := fun heq => fresh b hb heq (hbname.trans hname.symm)
      have hmem : b.set ∈ sets := (isIn b.set).1 ((h.members b.set).2 ⟨b, hb, rfl, hbname⟩)
      rw [Parameter.isMandatoryIn_joinSet p honly outside hkept (.inr hmem), if_neg hne]
      exact h.mandatory b hb hbname
    · rw [List.mem_singleton.1 hb,
        Parameter.isMandatoryIn_joinSet p honly outside hkept (.inl rfl), if_pos rfl]
  · rw [shareArgument_effectiveWireName, more]
    simp
  · rw [shareArgument_effectiveWireName, more, shareArgument_type]
    exact h.type.append h.declared htype
  · obtain ⟨q, rest, hdeclared, hchecks⟩ := h.checks
    rw [shareArgument_effectiveWireName, more, hdeclared]
    refine ⟨q, rest ++ [a.declared], rfl, ?_⟩
    rwa [ChecksAs, shareArgument_checks.1, shareArgument_checks.2]

/-- An argument is a value. -/
theorem parameterType_ne_switch {ref : TypeRef} {isCollection : Bool}
    (h : g.parameterType ref isCollection = .ok type) : type ≠ .switch := by
  unfold Graph.parameterType at h
  obtain ⟨element, helement, rfl⟩ := Fallible.map_eq_ok_iff.1 h
  cases isCollection with
  | true => exact ParameterType.noConfusion
  | false =>
    cases ref with
    | primitive p =>
      cases helement
      exact ParameterType.noConfusion
    | enum id =>
      obtain ⟨e, _, rfl⟩ := Fallible.map_eq_ok_iff.1 helement
      exact ParameterType.noConfusion
    | structured id =>
      obtain ⟨c, _, rfl⟩ := Fallible.map_eq_ok_iff.1 helement
      cases c.isEntity <;> exact ParameterType.noConfusion

/-- The parameter made for an argument that has none yet. -/
def newArgument (c : Command) (set : String) (location : ParameterLocation) (wire : String)
    (type : ParameterType) (mandatory : Bool) : Parameter :=
  let plain : Parameter :=
    { name := fieldName c wire "Parameter", type := type, location := location }
  let own := (plain.withWireName wire).inSets [set]
  if mandatory then own.asMandatory else own

section NewArgument

variable {set wire : String} {mandatory : Bool}

theorem newArgument_location :
    (newArgument c set location wire type mandatory).location = location := by
  cases mandatory <;> simp [newArgument, Parameter.inSets]

theorem newArgument_wire :
    (newArgument c set location wire type mandatory).effectiveWireName = wire := by
  let plain : Parameter :=
    { name := fieldName c wire "Parameter", type := type, location := location }
  have own : (plain.withWireName wire).effectiveWireName = wire :=
    Parameter.effectiveWireName_withWireName plain wire rfl
  cases mandatory with
  | false => exact own
  | true =>
    change ((plain.withWireName wire).inSets [set]).asMandatory.effectiveWireName = wire
    rw [Parameter.asMandatory_eq]
    exact own

theorem newArgument_type : (newArgument c set location wire type mandatory).type = type := by
  cases mandatory <;> simp [newArgument, Parameter.inSets]

theorem newArgument_membership :
    (newArgument c set location wire type mandatory).membership = .only (.ofList [set]) := by
  cases mandatory <;> simp [newArgument, Parameter.inSets]

theorem newArgument_mandatory :
    (newArgument c set location wire type mandatory).mandatory = mandatory := by
  cases mandatory <;> simp [newArgument, Parameter.inSets]

theorem newArgument_mandatoryIn :
    (newArgument c set location wire type mandatory).mandatoryIn = .empty := by
  cases mandatory <;> simp [newArgument, Parameter.inSets]

theorem newArgument_checks {q : MethodParameter}
    (htype : g.parameterType q.type q.isCollection = .ok type) :
    ChecksAs g q (newArgument c set location wire type (!q.nullable)) := by
  have value : type ≠ .switch := parameterType_ne_switch htype
  refine ⟨type, htype, ?_⟩
  cases q.nullable with
  | true => simp [newArgument, Parameter.inSets]
  | false =>
    simp only [newArgument, Bool.not_false, if_true, Parameter.asMandatory_checks]
    simp [Parameter.inSets, value]

end NewArgument

theorem carries_newArgument (fresh : ∀ b ∈ args, b.declared.name ≠ a.declared.name)
    (htype : g.parameterType a.declared.type a.declared.isCollection = .ok type) :
    Carries g (args ++ [a])
      (newArgument c a.set location a.declared.name type (!a.declared.nullable)) := by
  have earlier : declarations a.declared.name (args.map (·.declared)) = [] := by
    refine List.filter_eq_nil_iff.2 fun q hq => ?_
    obtain ⟨b, hb, rfl⟩ := List.mem_map.1 hq
    simpa using fresh b hb
  have only : declarations a.declared.name ((args ++ [a]).map (·.declared)) = [a.declared] := by
    rw [List.map_append, List.map_singleton, declarations_append_of_eq rfl, earlier,
      List.nil_append]
  refine ⟨⟨_, newArgument_membership, ?_⟩, fun set => ?_, fun b hb hname => ?_, ?_, ?_, ?_⟩
  · rw [newArgument_mandatoryIn]
    intro s hs
    cases hs
  · rw [newArgument_wire, Parameter.isIn, newArgument_membership]
    constructor
    · intro h
      have : set = a.set := by simpa [SetMembership.contains] using h
      exact ⟨a, by simp, this.symm, rfl⟩
    · rintro ⟨b, hb, rfl, hname⟩
      rcases List.mem_append.1 hb with hb | hb
      · exact absurd hname (fresh b hb)
      · rw [List.mem_singleton.1 hb]
        simp [SetMembership.contains]
  · rw [newArgument_wire] at hname
    rcases List.mem_append.1 hb with hb | hb
    · exact absurd hname (fresh b hb)
    · rw [List.mem_singleton.1 hb, Parameter.isMandatoryIn, newArgument_mandatory,
        newArgument_mandatoryIn]
      exact Bool.or_false _
  · rw [newArgument_wire, only]
    simp
  · rw [newArgument_wire, only, newArgument_type]
    left
    simpa using htype
  · rw [newArgument_wire, only]
    exact ⟨a.declared, [], rfl, newArgument_checks htype⟩

end Carries

/-! ## All parameters -/

/-- The command has one parameter for each name among the arguments, which stands for them. -/
structure Merged (g : Graph) (location : ParameterLocation) (args : List Argument)
    (c : Command) : Prop where
  names : (argumentNames location c).Nodup
  carries : ∀ p ∈ argumentParameters location c, Carries g args p
  present : ∀ a ∈ args, a.declared.name ∈ argumentNames location c

section Merged

variable {args : List Argument} {a : Argument} {type : ParameterType}

theorem isArgument_iff {wire : String} :
    isArgument location wire p = true ↔ p.location = location ∧ p.effectiveWireName = wire := by
  simp [isArgument]

theorem mem_argumentParameters :
    p ∈ argumentParameters location c ↔ p ∈ c.parameters ∧ p.location = location := by
  simp [argumentParameters]

theorem any_isArgument_iff {wire : String} :
    c.parameters.any (isArgument location wire) = true ↔ wire ∈ argumentNames location c := by
  rw [List.any_eq_true, argumentNames, List.mem_map]
  simp only [isArgument_iff, mem_argumentParameters, and_assoc]

theorem Merged.of_same (h : Merged g location args c)
    (same : argumentParameters location c' = argumentParameters location c) :
    Merged g location args c' := by
  refine ⟨?_, ?_, ?_⟩
  · rw [argumentNames, same]
    exact h.names
  · rw [same]
    exact h.carries
  · rw [argumentNames, same]
    exact h.present

/-- The parameter of the name is shared, and the others have other names. -/
theorem Merged.share (h : Merged g location args c)
    (hany : c.parameters.any (isArgument location a.declared.name) = true)
    (fresh : ∀ b ∈ args, b.set = a.set → b.declared.name ≠ a.declared.name)
    (htype : g.parameterType a.declared.type a.declared.isCollection = .ok type) :
    Merged g location (args ++ [a])
      { c with
        parameters :=
          modifyFirst (isArgument location a.declared.name)
            (shareArgument a.set (!a.declared.nullable) type) c.parameters } := by
  obtain ⟨front, p, back, heq, hp, hchanged⟩ :=
    modifyFirst_eq (shareArgument a.set (!a.declared.nullable) type) hany
  obtain ⟨hlocation, hname⟩ := isArgument_iff.1 hp
  have before : argumentParameters location c =
      front.filter (·.location == location) ++ p :: back.filter (·.location == location) := by
    rw [argumentParameters, heq]
    simp [hlocation]
  have after : argumentParameters location
      { c with
        parameters :=
          modifyFirst (isArgument location a.declared.name)
            (shareArgument a.set (!a.declared.nullable) type) c.parameters } =
      front.filter (·.location == location) ++
        shareArgument a.set (!a.declared.nullable) type p ::
          back.filter (·.location == location) := by
    rw [argumentParameters, hchanged]
    simp [hlocation]
  have hcarries := h.carries
  have hnames := h.names
  rw [before] at hcarries
  rw [argumentNames, before, List.map_append, List.map_cons, List.nodup_middle, List.nodup_cons,
    List.mem_append, not_or] at hnames
  have others : ∀ q, q ∈ front.filter (·.location == location) ∨
      q ∈ back.filter (·.location == location) → a.declared.name ≠ q.effectiveWireName := by
    rintro q (hq | hq) hsame
    · exact hnames.1.1 (List.mem_map.2 ⟨q, hq, by rw [← hsame, hname]⟩)
    · exact hnames.1.2 (List.mem_map.2 ⟨q, hq, by rw [← hsame, hname]⟩)
  have kept : argumentNames location
      { c with
        parameters :=
          modifyFirst (isArgument location a.declared.name)
            (shareArgument a.set (!a.declared.nullable) type) c.parameters } =
      argumentNames location c := by
    rw [argumentNames, after, argumentNames, before]
    simp
  refine ⟨?_, fun q hq => ?_, fun b hb => ?_⟩
  · rw [kept]
    exact h.names
  · rw [after, List.mem_append, List.mem_cons] at hq
    rcases hq with hq | rfl | hq
    · exact (hcarries q (by simp only [List.mem_append, hq, true_or])).other (others q (.inl hq))
    · exact (hcarries p (by simp)).share hname.symm fresh htype
    · refine (hcarries q ?_).other (others q (.inr hq))
      simp only [List.mem_append, List.mem_cons, hq, or_true]
  · rw [kept]
    rcases List.mem_append.1 hb with hb | hb
    · exact h.present b hb
    · rw [List.mem_singleton.1 hb]
      exact any_isArgument_iff.1 hany

theorem Merged.append (h : Merged g location args c)
    (hnone : a.declared.name ∉ argumentNames location c)
    (htype : g.parameterType a.declared.type a.declared.isCollection = .ok type) :
    Merged g location (args ++ [a])
      { c with
        parameters := c.parameters ++
          [newArgument c a.set location a.declared.name type (!a.declared.nullable)] } := by
  have fresh : ∀ b ∈ args, b.declared.name ≠ a.declared.name := by
    intro b hb heq
    exact hnone (heq ▸ h.present b hb)
  have after : argumentParameters location
      { c with
        parameters := c.parameters ++
          [newArgument c a.set location a.declared.name type (!a.declared.nullable)] } =
      argumentParameters location c ++
        [newArgument c a.set location a.declared.name type (!a.declared.nullable)] := by
    simp [argumentParameters, newArgument_location]
  have names : argumentNames location
      { c with
        parameters := c.parameters ++
          [newArgument c a.set location a.declared.name type (!a.declared.nullable)] } =
      argumentNames location c ++ [a.declared.name] := by
    rw [argumentNames, after, List.map_append, List.map_singleton, newArgument_wire]
    rfl
  refine ⟨?_, fun q hq => ?_, fun b hb => ?_⟩
  · rw [names, List.nodup_append]
    refine ⟨h.names, by simp, fun x hx y hy hxy => hnone ?_⟩
    rwa [← List.mem_singleton.1 hy, ← hxy]
  · rw [after] at hq
    rcases List.mem_append.1 hq with hq | hq
    · refine (h.carries q hq).other fun heq => hnone ?_
      exact List.mem_map.2 ⟨q, hq, heq.symm⟩
    · rw [List.mem_singleton.1 hq]
      exact carries_newArgument fresh htype
  · rw [names, List.mem_append, List.mem_singleton]
    rcases List.mem_append.1 hb with hb | hb
    · exact .inl (h.present b hb)
    · exact .inr (by rw [List.mem_singleton.1 hb])

/-- One argument. Its overload has no other one of the name. -/
theorem Merged.mergeArgument (h : Merged g location args c)
    (fresh : ∀ b ∈ args, b.set = a.set → b.declared.name ≠ a.declared.name)
    (htype : g.parameterType a.declared.type a.declared.isCollection = .ok type)
    (hmerge : mergeArgument c a.set location a.declared.name type (!a.declared.nullable) = .ok c') :
    Merged g location (args ++ [a]) c' := by
  unfold Synthesis.mergeArgument at hmerge
  split at hmerge
  · rename_i hany
    cases hmerge
    exact h.share hany fresh htype
  · rename_i hnone
    obtain ⟨_, rfl⟩ := Command.addParameter_eq_ok hmerge
    rw [any_isArgument_iff] at hnone
    exact h.append hnone htype

/-- The arguments of one overload, by induction on those that are left. -/
theorem Merged.mergeArguments {set : String} {ps : List MethodParameter}
    (h : Merged g location args c) (distinct : (ps.map (·.name)).Nodup)
    (fresh : ∀ b ∈ args, b.set = set → b.declared.name ∉ ps.map (·.name))
    (hmerge : mergeArguments g set location c ps = .ok c') :
    Merged g location (args ++ ps.map (Argument.mk set)) c' := by
  induction ps generalizing args c with
  | nil =>
    cases hmerge
    simpa using h
  | cons q rest ih =>
    unfold Synthesis.mergeArguments at hmerge
    split at hmerge
    · cases hmerge
    rename_i type htype
    split at hmerge
    · cases hmerge
    rename_i merged hmerged
    rw [List.map_cons, List.nodup_cons] at distinct
    have first : Merged g location (args ++ [⟨set, q⟩]) merged := by
      refine h.mergeArgument (a := ⟨set, q⟩) (fun b hb hset heq => ?_) htype hmerged
      exact fresh b hb hset (by simp [heq])
    have fresh : ∀ b ∈ args ++ [⟨set, q⟩], b.set = set →
        b.declared.name ∉ rest.map (·.name) := by
      intro b hb hset
      rcases List.mem_append.1 hb with hb | hb
      · intro hmem
        exact fresh b hb hset (List.mem_cons_of_mem _ hmem)
      · rw [List.mem_singleton.1 hb]
        exact distinct.1
    have := ih first distinct.2 fresh hmerge
    rwa [List.append_assoc] at this

def argumentsOf (overloads : List (Method × String)) : List Argument :=
  overloads.flatMap fun (m, set) => m.parameters.map (Argument.mk set)

/-- A set with what its overload asks for. -/
def overloadCandidate (m : Method) (set : String) : Selection.Candidate :=
  ⟨set, m.parameters.countP (!·.nullable), m.parameters.length⟩

/-- All overloads, by induction on those that are left: each has a set of its own behind those
there are, and so its arguments are new there. -/
theorem Merged.mergeOverloads {several : Bool} {methods : List Method}
    {candidates : List Selection.Candidate} (outside : location ≠ .path)
    (h : Merged g location args c) (declared : ∀ a ∈ args, a.set ∈ c.setNames)
    (distinct : ∀ m ∈ methods, (m.parameters.map (·.name)).Nodup)
    (hmerge : mergeOverloads g several location c methods = .ok (c', candidates)) :
    ∃ names, names.length = methods.length ∧ c'.setNames = c.setNames ++ names ∧
      candidates = List.zipWith overloadCandidate methods names ∧
      Merged g location (args ++ argumentsOf (methods.zip names)) c' := by
  induction methods generalizing args c candidates with
  | nil =>
    cases hmerge
    exact ⟨[], rfl, by simp, rfl, by simpa [argumentsOf] using h⟩
  | cons m rest ih =>
    unfold Synthesis.mergeOverloads at hmerge
    dsimp only at hmerge
    obtain ⟨c₁, hset, hmerge⟩ := Fallible.bind_eq_ok_iff.1 hmerge
    obtain ⟨c₂, harguments, hmerge⟩ := Fallible.bind_eq_ok_iff.1 hmerge
    obtain ⟨⟨c₃, others⟩, hrest, hmerge⟩ := Fallible.bind_eq_ok_iff.1 hmerge
    cases hmerge
    rw [List.forall_mem_cons] at distinct
    obtain ⟨hfresh, rfl⟩ := Command.addSet_eq_ok hset
    generalize hname : overloadSet c several m = set at *
    have hsets := (mergeArguments_grows outside (by simp [Command.setNames]) harguments).2
    have names : c₂.setNames = c.setNames ++ [set] := by
      simp [Command.setNames, hsets]
    have withSet : Merged g location args { c with sets := c.sets ++ [{ name := set }] } :=
      h.of_same rfl
    have merged : Merged g location (args ++ m.parameters.map (Argument.mk set)) c₂ := by
      refine withSet.mergeArguments distinct.1 (fun b hb hset => ?_) harguments
      exact absurd (hset ▸ declared b hb) hfresh
    have declared : ∀ a ∈ args ++ m.parameters.map (Argument.mk set), a.set ∈ c₂.setNames := by
      intro a ha
      rw [names]
      rcases List.mem_append.1 ha with ha | ha
      · exact List.mem_append_left _ (declared a ha)
      · obtain ⟨q, _, rfl⟩ := List.mem_map.1 ha
        simp
    obtain ⟨later, hlength, hlater, hcandidates, hholds⟩ := ih merged declared distinct.2 hrest
    refine ⟨set :: later, by simp [hlength], ?_, ?_, ?_⟩
    · rw [hlater, names, List.append_assoc]
      rfl
    · rw [hcandidates]
      rfl
    · rw [List.append_assoc] at hholds
      exact hholds

end Merged

end Synthesis
end EdmCommands
