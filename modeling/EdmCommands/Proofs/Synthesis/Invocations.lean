import EdmCommands.Proofs.Selection
import EdmCommands.Proofs.Synthesis.Overloads
import Mathlib.Data.List.Induction

/-!
# EdmCommands.Proofs.Synthesis.Invocations

The command of a method says of each overload what the overload declares. It has a set for each, the
arguments in a set are those of its overload, and the default is the set of the overload that asks
for least.

* `Represents`: what a command says of the overloads that it invokes.
* `represents_of_invoke`: the command of one group of overloads.
* `group_eq`: the groups are the methods of each name and binding.
* `InvokesAll`: there is one command for each group that can be invoked.
* `represents_of_commands`: so it is for all routes.
-/

namespace EdmCommands
namespace Synthesis

open Schema
open Route (Rendered)

variable {g : Graph} {t : Target} {location : ParameterLocation} {c c' : Command}
  {methods : List Method} {names : List String}

/-- What overloads are compared by: first the parameters that may not be null, then all of them. -/
def overloadWeight (m : Method) : ℕ ×ₗ ℕ :=
  toLex (m.parameters.countP (!·.nullable), m.parameters.length)

/-- The command has a set for each of the overloads, in their order. The arguments in the set are
those that the overload declares, mandatory where they may not be null, and of the type that the
overloads agree on. The default is the set of the first overload of least weight. -/
structure Represents (g : Graph) (location : ParameterLocation) (methods : List Method)
    (c : Command) : Prop where
  sets : c.setNames.length = methods.length
  distinct : c.setNames.Nodup
  declared : ∀ m ∈ methods, (m.parameters.map (·.name)).Nodup
  arguments : ∀ m set, (m, set) ∈ methods.zip c.setNames →
    (((argumentParameters location c).filter (·.isIn set)).map (·.effectiveWireName)).Perm
      (m.parameters.map (·.name))
  mandatory : ∀ m set, (m, set) ∈ methods.zip c.setNames → ∀ q ∈ m.parameters,
    ∀ p ∈ argumentParameters location c, p.effectiveWireName = q.name →
      p.isMandatoryIn set = !q.nullable
  types : ∀ p ∈ argumentParameters location c,
    declarations p.effectiveWireName (methods.flatMap (·.parameters)) ≠ [] ∧
      CommonType g (declarations p.effectiveWireName (methods.flatMap (·.parameters))) p.type
  default : ∃ front m back, methods = front ++ m :: back ∧
    (∀ a ∈ front, overloadWeight m < overloadWeight a) ∧
    (∀ a ∈ back, overloadWeight m ≤ overloadWeight a) ∧
    c.sets.map (·.isDefault) =
      List.replicate front.length false ++ true :: List.replicate back.length false

/-! ## One command -/

theorem mem_argumentsOf {overloads : List (Method × String)} {a : Argument} :
    a ∈ argumentsOf overloads ↔ ∃ m, (m, a.set) ∈ overloads ∧ a.declared ∈ m.parameters := by
  unfold argumentsOf
  rw [List.mem_flatMap]
  constructor
  · rintro ⟨⟨m, set⟩, hm, ha⟩
    obtain ⟨q, hq, rfl⟩ := List.mem_map.1 ha
    exact ⟨m, hm, hq⟩
  · rintro ⟨m, hm, ha⟩
    exact ⟨(m, a.set), hm, List.mem_map.2 ⟨a.declared, ha, rfl⟩⟩

theorem declared_argumentsOf (length : names.length = methods.length) :
    (argumentsOf (methods.zip names)).map (·.declared) = methods.flatMap (·.parameters) := by
  induction methods generalizing names with
  | nil => rfl
  | cons m rest ih =>
    cases names with
    | nil => cases length
    | cons set names =>
      have own : (m.parameters.map (Argument.mk set)).map (·.declared) = m.parameters := by
        simp [Function.comp_def]
      have others := ih (Nat.succ.inj length)
      unfold argumentsOf at others ⊢
      rw [List.zip_cons_cons, List.flatMap_cons, List.map_append, own, others, List.flatMap_cons]

/-- A set belongs to one overload. -/
theorem eq_of_mem_zip (length : names.length = methods.length) (distinct : names.Nodup)
    {m m' : Method} {set : String} (h : (m, set) ∈ methods.zip names)
    (h' : (m', set) ∈ methods.zip names) : m = m' := by
  have second : ((methods.zip names).map Prod.snd).Nodup := by
    rwa [List.map_snd_zip (Nat.le_of_eq length)]
  exact congrArg Prod.fst (List.inj_on_of_nodup_map second h h' rfl)

/-- The arguments in the set of an overload are those that it declares. -/
theorem Merged.arguments_perm (h : Merged g location (argumentsOf (methods.zip names)) c)
    (length : names.length = methods.length) (distinct : names.Nodup)
    (declared : ∀ m ∈ methods, (m.parameters.map (·.name)).Nodup) {m : Method} {set : String}
    (hm : (m, set) ∈ methods.zip names) :
    (((argumentParameters location c).filter (·.isIn set)).map (·.effectiveWireName)).Perm
      (m.parameters.map (·.name)) := by
  have once : (((argumentParameters location c).filter (·.isIn set)).map
      (·.effectiveWireName)).Nodup :=
    h.names.sublist (List.filter_sublist.map _)
  refine (List.perm_ext_iff_of_nodup once (declared m (List.of_mem_zip hm).1)).2 fun name => ?_
  rw [List.mem_map, List.mem_map]
  constructor
  · rintro ⟨p, hp, rfl⟩
    obtain ⟨hp, hin⟩ := List.mem_filter.1 hp
    obtain ⟨a, ha, rfl, hname⟩ := ((h.carries p hp).members set).1 hin
    obtain ⟨m', hm', hdeclared⟩ := mem_argumentsOf.1 ha
    rw [eq_of_mem_zip length distinct hm hm']
    exact ⟨a.declared, hdeclared, hname⟩
  · rintro ⟨q, hq, rfl⟩
    have ha : ⟨set, q⟩ ∈ argumentsOf (methods.zip names) := mem_argumentsOf.2 ⟨m, hm, hq⟩
    obtain ⟨p, hp, hwire⟩ := List.mem_map.1 (h.present ⟨set, q⟩ ha)
    have hin : p.isIn set = true := ((h.carries p hp).members set).2 ⟨⟨set, q⟩, ha, rfl, hwire.symm⟩
    exact ⟨p, List.mem_filter.2 ⟨hp, hin⟩, hwire⟩

/-- The best of the sets is that of the first overload of least weight. -/
theorem default_of_selectDefault {best : Selection.Candidate} (distinct : names.Nodup)
    (length : names.length = methods.length)
    (h : Selection.selectDefault (List.zipWith overloadCandidate methods names) = some best) :
    ∃ front m back, methods = front ++ m :: back ∧
      (∀ a ∈ front, overloadWeight m < overloadWeight a) ∧
      (∀ a ∈ back, overloadWeight m ≤ overloadWeight a) ∧
      names.map (· == best.name) =
        List.replicate front.length false ++ true :: List.replicate back.length false := by
  obtain ⟨before, after, hsplit, hbefore, hafter⟩ := Selection.selectDefault_eq_some h
  obtain ⟨front, tail, sets, sets', hlength, rfl, rfl, rfl, htail⟩ :=
    List.zipWith_eq_append_iff.1 hsplit
  obtain ⟨m, back, set, sets', rfl, rfl, rfl, rfl⟩ := List.zipWith_eq_cons_iff.1 htail.symm
  have hlength' : sets'.length = back.length := by
    simp only [List.length_append, List.length_cons] at length
    omega
  rw [List.nodup_middle, List.nodup_cons, List.mem_append, not_or] at distinct
  have weights : ∀ {ms : List Method} {ss : List String} {P : ℕ ×ₗ ℕ → Prop},
      ss.length = ms.length → (∀ a ∈ List.zipWith overloadCandidate ms ss, P a.weight) →
        ∀ a ∈ ms, P (overloadWeight a) := by
    intro ms ss P hlen hall a ha
    obtain ⟨i, hi, rfl⟩ := List.getElem_of_mem ha
    have hmem := List.getElem_mem (l := List.zipWith overloadCandidate ms ss) (n := i)
      (by rw [List.length_zipWith]; omega)
    rw [List.getElem_zipWith] at hmem
    exact hall _ hmem
  have others : ∀ {ss : List String}, set ∉ ss →
      ss.map (· == set) = List.replicate ss.length false := by
    intro ss hset
    refine List.eq_replicate_iff.2 ⟨List.length_map _, fun b hb => ?_⟩
    obtain ⟨s, hs, rfl⟩ := List.mem_map.1 hb
    exact beq_false_of_ne fun heq => hset (heq ▸ hs)
  refine ⟨front, m, back, rfl, weights hlength.symm hbefore, weights hlength' hafter, ?_⟩
  have chosen : (overloadCandidate m set).name = set := rfl
  rw [chosen, List.map_append, List.map_cons, others distinct.1.1, others distinct.1.2,
    beq_self_eq_true, hlength, hlength']

/-- Only the sets and the arguments matter. -/
theorem Represents.of_same (h : Represents g location methods c) (sets : c'.sets = c.sets)
    (same : argumentParameters location c' = argumentParameters location c) :
    Represents g location methods c' := by
  have names : c'.setNames = c.setNames := by rw [Command.setNames, sets, Command.setNames]
  refine ⟨?_, ?_, h.declared, ?_, ?_, ?_, ?_⟩
  · rw [names]
    exact h.sets
  · rw [names]
    exact h.distinct
  · rw [names, same]
    exact h.arguments
  · rw [names, same]
    exact h.mandatory
  · rw [same]
    exact h.types
  · rw [sets]
    exact h.default

/-- The overloads are merged into a command without sets and arguments, and the best one is made the
default. -/
theorem represents_of_mergeOverloads {several : Bool} {candidates : List Selection.Candidate}
    {best : Selection.Candidate} {c₁ : Command} (outside : location ≠ .path)
    (coherent : c.Coherent) (nosets : c.sets = [])
    (noarguments : argumentParameters location c = [])
    (declared : ∀ m ∈ methods, (m.parameters.map (·.name)).Nodup)
    (hmerge : mergeOverloads g several location c methods = .ok (c₁, candidates))
    (hbest : Selection.selectDefault candidates = some best)
    (hdefault : c₁.setDefault best.name = .ok c') : Represents g location methods c' := by
  have start : Merged g location [] c := by
    refine ⟨?_, ?_, by simp⟩
    · simp [argumentNames, noarguments]
    · simp [noarguments]
  obtain ⟨names, length, hnames, rfl, merged⟩ :=
    start.mergeOverloads outside (by simp) declared hmerge
  rw [List.nil_append] at merged
  have nonames : c.setNames = [] := by rw [Command.setNames, nosets, List.map_nil]
  rw [nonames, List.nil_append] at hnames
  have distinct : names.Nodup := by
    rw [← hnames]
    exact ((mergeOverloads_grows outside hmerge).1.coherent coherent).sets
  obtain ⟨_, rfl⟩ := Command.setDefault_eq_ok hdefault
  have kept : Command.setNames { c₁ with sets := c₁.sets.map fun s =>
      { s with isDefault := s.name == best.name } } = names := by
    rw [← hnames]
    simp [Command.setNames, Function.comp_def]
  refine ⟨?_, ?_, declared, ?_, ?_, ?_, ?_⟩
  · rw [kept]
    exact length
  · rw [kept]
    exact distinct
  · rw [kept]
    exact fun m set hm => merged.arguments_perm length distinct declared hm
  · rw [kept]
    intro m set hm q hq p hp hwire
    have ha : ⟨set, q⟩ ∈ argumentsOf (methods.zip names) := mem_argumentsOf.2 ⟨m, hm, hq⟩
    exact (merged.carries p hp).mandatory ⟨set, q⟩ ha hwire.symm
  · intro p hp
    have carries := merged.carries p hp
    rw [← declared_argumentsOf length]
    exact ⟨carries.declared, carries.type⟩
  · obtain ⟨front, m, back, heq, hfront, hback, hsets⟩ :=
      default_of_selectDefault distinct length hbest
    refine ⟨front, m, back, heq, hfront, hback, ?_⟩
    rw [← hsets, ← hnames]
    simp [Command.setNames, Function.comp_def]

/-- Of the options those are added whose names no argument has. -/
theorem addMissingOptions_eq_ok {options : List Parameter}
    (h : addMissingOptions c options = .ok c') :
    ∃ added, added.Sublist options ∧ c' = { c with parameters := c.parameters ++ added } := by
  induction options generalizing c with
  | nil =>
    cases h
    exact ⟨[], .slnil, by rw [List.append_nil]⟩
  | cons p rest ih =>
    unfold addMissingOptions at h
    split at h
    · obtain ⟨added, hadded, rfl⟩ := ih h
      exact ⟨added, hadded.cons p, rfl⟩
    split at h
    · cases h
    rename_i first hfirst
    obtain ⟨_, rfl⟩ := Command.addParameter_eq_ok hfirst
    obtain ⟨added, hadded, rfl⟩ := ih h
    exact ⟨p :: added, hadded.cons_cons p, by simp⟩

/-- Options do not stand at the place of arguments. -/
theorem argumentParameters_append_options {options : List Parameter}
    (elsewhere : ∀ p ∈ options, p.location ≠ location)
    (h : c'.parameters = c.parameters ++ options) :
    argumentParameters location c' = argumentParameters location c := by
  have none_added : options.filter (·.location == location) = [] :=
    List.filter_eq_nil_iff.2 fun p hp => by simpa using elsewhere p hp
  rw [argumentParameters, h, List.filter_append, none_added, List.append_nil, argumentParameters]

theorem argumentParameters_pathParameters {terminalId : Bool} {segments : List Route.Segment}
    (outside : location ≠ .path) (hc : c.parameters = pathParameters terminalId segments) :
    argumentParameters location c = [] := by
  rw [argumentParameters, hc, List.filter_eq_nil_iff]
  intro p hp hlocation
  rw [(of_mem_pathParameters hp).1] at hlocation
  exact outside (beq_iff_eq.1 hlocation).symm

/-- What the stages of an invocation leave of it: the arguments of the overloads are merged behind
the parameters of the path, the best of the sets is the default, and options may follow. -/
theorem parts_of_invoke {o : Overloads} (h : invoke t o = .ok c) :
    (∀ m ∈ o.toList, m.kind = o.first.kind) ∧
      ∃ start terminalId merged candidates best chosen options,
        start.Coherent ∧ start.sets = [] ∧
        start.parameters = pathParameters terminalId t.route.segments ∧
        mergeOverloads t.graph (!o.others.isEmpty) (invocation o.first.kind).2.2 start o.toList =
          .ok (merged, candidates) ∧
        Selection.selectDefault candidates = some best ∧
        merged.setDefault best.name = .ok chosen ∧ options.Sublist collectionOptions ∧
        c.sets = chosen.sets ∧ c.parameters = chosen.parameters ++ options := by
  obtain ⟨invoked, stages, rfl⟩ := stages_of_invoke h
  cases stages with
  | @made onItem type _ placed chosen _ hkinds hcommand hpath hoverloads hoptions =>
    have hbegun := (begun_of_command hcommand (String.append_assoc ..)).describe type
      o.first.description
    have coherent := (hbegun.placed_invocation hpath).coherent
    obtain ⟨_, heq, _⟩ := pathParameters_of_begun hbegun hpath
    -- The identifier of the command is not among what is merged into.
    generalize hstart : (if onItem = true then
      { placed with idParameter := t.route.terminalId.map (·.name) } else placed) = start
      at hoverloads coherent
    have hsets : start.sets = [] := by
      rw [← hstart, heq]
      cases onItem <;> exact hbegun.sets
    have hparameters : start.parameters = pathParameters onItem t.route.segments := by
      rw [← hstart, heq]
      cases onItem <;> rfl
    obtain ⟨merged, candidates, best, hmerge, hbest, hdefault⟩ := withOverloads_eq_ok hoverloads
    obtain ⟨options, hsublist, hparts⟩ : ∃ options, options.Sublist collectionOptions ∧
        invoked = { chosen with parameters := chosen.parameters ++ options } := by
      rcases withResultOptions_eq_ok hoptions with rfl | hadded
      · exact ⟨[], List.nil_sublist _, by rw [List.append_nil]⟩
      · exact addMissingOptions_eq_ok hadded
    rw [hparts]
    exact ⟨hkinds, start, onItem, merged, candidates, best, chosen, options, coherent, hsets,
      hparameters, hmerge, hbest, hdefault, hsublist, rfl, rfl⟩

/-- Options are told in the query, where no method is told its arguments. -/
theorem location_of_option {kind : MethodKind} :
    ∀ p ∈ collectionOptions, p.location ≠ (invocation kind).2.2 := by
  cases kind <;> simp [collectionOptions, queryOption, invocation]

theorem represents_of_invoke {o : Overloads}
    (declared : ∀ m ∈ o.toList, (m.parameters.map (·.name)).Nodup) (h : invoke t o = .ok c) :
    (∀ m ∈ o.toList, m.kind = o.first.kind) ∧
      Represents t.graph (invocation o.first.kind).2.2 o.toList c := by
  have outside := invocation_outside o.first.kind
  obtain ⟨hkinds, start, _, merged, candidates, best, chosen, options, coherent, nosets, hpath,
    hmerge, hbest, hdefault, hoptions, sets, parameters⟩ := parts_of_invoke h
  refine ⟨hkinds, Represents.of_same ?_ sets (argumentParameters_append_options ?_ parameters)⟩
  · exact represents_of_mergeOverloads outside coherent nosets
      (argumentParameters_pathParameters outside hpath) declared hmerge hbest hdefault
  · exact fun p hp => location_of_option p (hoptions.subset hp)

/-! ## The groups of overloads -/

/-- What the overloads of a method have in common. -/
def bindingOf (m : Method) : String × Bool :=
  (m.name, m.boundToCollection)

/-- The methods of a name and binding. -/
def overloadsOf (methods : List Method) (key : String × Bool) : List Method :=
  methods.filter (bindingOf · == key)

section Group

variable {key : String × Bool} {keys : List (String × Bool)} {m : Method} {o : Overloads}
  {groups : List Overloads}

/-- An element that occurs before adds nothing to the distinct ones. -/
theorem eraseDups_concat_of_mem {α : Type} [BEq α] [LawfulBEq α] {l : List α} {a : α}
    (h : a ∈ l) : (l ++ [a]).eraseDups = l.eraseDups := by
  rw [List.eraseDups_append]
  simp [List.removeAll, h]

theorem eraseDups_concat_of_not_mem {α : Type} [BEq α] [LawfulBEq α] {l : List α} {a : α}
    (h : a ∉ l) : (l ++ [a]).eraseDups = l.eraseDups ++ [a] := by
  have alone : [a].eraseDups = [a] := by
    rw [List.eraseDups_cons]
    rfl
  rw [List.eraseDups_append]
  simp [List.removeAll, h, alone]

theorem nodup_eraseDups {α : Type} [BEq α] [LawfulBEq α] (l : List α) : l.eraseDups.Nodup := by
  induction l using List.reverseRecOn with
  | nil => simp
  | append_singleton l a ih =>
    by_cases h : a ∈ l
    · rw [eraseDups_concat_of_mem h]
      exact ih
    · rw [eraseDups_concat_of_not_mem h, List.nodup_append]
      refine ⟨ih, by simp, fun x hx y hy hxy => h ?_⟩
      rw [List.mem_singleton.1 hy] at hxy
      exact hxy ▸ List.mem_eraseDups.1 hx

theorem bindingOf_first (h : o.toList = overloadsOf methods key) : bindingOf o.first = key := by
  have hmem : o.first ∈ overloadsOf methods key := by
    rw [← h]
    exact List.mem_cons_self
  exact beq_iff_eq.1 (List.mem_filter.1 hmem).2

theorem holds_iff : o.holds m = true ↔ bindingOf o.first = bindingOf m := by
  simp [Overloads.holds, bindingOf]

theorem any_holds_iff
    (h : List.Forall₂ (fun key o => o.toList = overloadsOf methods key) keys groups) :
    groups.any (·.holds m) = true ↔ bindingOf m ∈ keys := by
  induction h with
  | nil => simp
  | cons hfirst _ ih =>
    rw [List.any_cons, Bool.or_eq_true, ih, holds_iff, bindingOf_first hfirst, List.mem_cons,
      eq_comm]

theorem overloadsOf_concat_of_ne (h : bindingOf m ≠ key) :
    overloadsOf (methods ++ [m]) key = overloadsOf methods key := by
  simp [overloadsOf, h]

theorem overloadsOf_concat_of_eq (h : bindingOf m = key) :
    overloadsOf (methods ++ [m]) key = overloadsOf methods key ++ [m] := by
  simp [overloadsOf, h]

/-- Groups of other keys are as before after one more method. -/
theorem forall₂_concat_of_not_mem
    (h : List.Forall₂ (fun key o => o.toList = overloadsOf methods key) keys groups)
    (other : bindingOf m ∉ keys) :
    List.Forall₂ (fun key o => o.toList = overloadsOf (methods ++ [m]) key) keys groups := by
  induction h with
  | nil => exact .nil
  | cons hfirst _ ih =>
    rw [List.mem_cons, not_or] at other
    refine .cons ?_ (ih other.2)
    rw [overloadsOf_concat_of_ne other.1]
    exact hfirst

/-- The group of the key of one more method takes it in. -/
theorem forall₂_concat_of_mem
    (h : List.Forall₂ (fun key o => o.toList = overloadsOf methods key) keys groups)
    (distinct : keys.Nodup) (known : bindingOf m ∈ keys) :
    List.Forall₂ (fun key o => o.toList = overloadsOf (methods ++ [m]) key) keys
      (modifyFirst (·.holds m) (fun o => { o with others := o.others ++ [m] }) groups) := by
  induction h with
  | nil => cases known
  | @cons key o keys groups hfirst hrest ih =>
    rw [List.nodup_cons] at distinct
    have hkey := bindingOf_first hfirst
    unfold modifyFirst
    by_cases hm : bindingOf m = key
    · rw [if_pos (holds_iff.2 (hkey.trans hm.symm))]
      refine .cons ?_ (forall₂_concat_of_not_mem hrest (hm ▸ distinct.1))
      rw [overloadsOf_concat_of_eq hm, ← hfirst]
      rfl
    · rw [if_neg fun h => hm ((holds_iff.1 h).symm.trans hkey)]
      refine .cons ?_ (ih distinct.2 ((List.mem_cons.1 known).resolve_left hm))
      rw [overloadsOf_concat_of_ne hm]
      exact hfirst

/-- The groups are the methods of each name and binding, in order of first appearance. -/
theorem group_eq (methods : List Method) :
    List.Forall₂ (fun key o => o.toList = overloadsOf methods key)
      (methods.map bindingOf).eraseDups (Overloads.group methods) := by
  induction methods using List.reverseRecOn with
  | nil => exact .nil
  | append_singleton methods m ih =>
    have step : Overloads.group (methods ++ [m]) =
        Overloads.insert m (Overloads.group methods) := by
      rw [Overloads.group, List.foldl_append]
      rfl
    have found : (Overloads.group methods).any (·.holds m) = true ↔
        bindingOf m ∈ methods.map bindingOf := by
      rw [any_holds_iff ih, List.mem_eraseDups]
    rw [step, List.map_append, List.map_singleton, Overloads.insert]
    by_cases hm : bindingOf m ∈ methods.map bindingOf
    · rw [eraseDups_concat_of_mem hm, if_pos (found.2 hm)]
      exact forall₂_concat_of_mem ih (nodup_eraseDups _) (List.mem_eraseDups.2 hm)
    · rw [eraseDups_concat_of_not_mem hm, if_neg fun h => hm (found.1 h)]
      have others := forall₂_concat_of_not_mem (m := m) ih fun h => hm (List.mem_eraseDups.1 h)
      refine List.rel_append others (.cons ?_ .nil)
      have alone : overloadsOf methods (bindingOf m) = [] := by
        refine List.filter_eq_nil_iff.2 fun m' hm' heq => hm ?_
        exact List.mem_map.2 ⟨m', hm', beq_iff_eq.1 heq⟩
      rw [overloadsOf_concat_of_eq rfl, alone]
      rfl

end Group

/-! ## The commands of a route -/

/-- Whether overloads can be invoked on the resource: those of a collection on a collection, those
of an item on an item that has an address. -/
def canInvoke (isCollection isEntityCollection : Bool) (key : String × Bool) : Bool :=
  if key.2 then isCollection else !isCollection || isEntityCollection

/-- There is one command for each name and binding among the methods of the class, if it can be
invoked, and it represents the methods of that name and binding, which are all of one kind. What has
no class has no methods. -/
structure InvokesAll (t : Target) (cs : List Command) : Prop where
  methods : ∀ target, t.property.type = .structured target →
    ∃ ids methods isEntityCollection,
      t.graph.allMethods target t.config.includeInheritedMethods = .ok ids ∧
        ids.mapM t.graph.methodAt = .ok methods ∧
        t.isEntityCollection = .ok isEntityCollection ∧
        List.Forall₂
          (fun key c => ∃ kind, (∀ m ∈ overloadsOf methods key, m.kind = kind) ∧
            Represents t.graph (invocation kind).2.2 (overloadsOf methods key) c)
          ((methods.map bindingOf).eraseDups.filter
            (canInvoke t.property.isCollection isEntityCollection)) cs
  none : (∀ target, t.property.type ≠ .structured target) → cs = []

theorem declared_of_mapM {ids : List MethodId} (built : g.Built)
    (h : ids.mapM g.methodAt = .ok methods) :
    ∀ m ∈ methods, (m.parameters.map (·.name)).Nodup := by
  intro m hm
  obtain ⟨id, _, hid⟩ := Fallible.forall_ok_of_mapM_eq_ok h hm
  exact built.parameters_nodup m (Array.mem_of_getElem? (g.methodAt_eq_ok_iff.1 hid))

/-- What holds of a group and its command holds of the key of the group. -/
theorem forall₂_of_groups {keys : List (String × Bool)} {groups : List Overloads}
    {cs : List Command} (declared : ∀ m ∈ methods, (m.parameters.map (·.name)).Nodup)
    (h : List.Forall₂ (fun key o => o.toList = overloadsOf methods key) keys groups)
    (invoked : List.Forall₂ (fun o c => invoke t o = .ok c) groups cs) :
    List.Forall₂
      (fun key c => ∃ kind, (∀ m ∈ overloadsOf methods key, m.kind = kind) ∧
        Represents t.graph (invocation kind).2.2 (overloadsOf methods key) c) keys cs := by
  induction h generalizing cs with
  | nil =>
    cases invoked
    exact .nil
  | @cons key o keys groups hfirst _ ih =>
    cases invoked with
    | cons hinvoke hrest =>
      refine .cons ?_ (ih hrest)
      have own : ∀ m ∈ o.toList, (m.parameters.map (·.name)).Nodup := by
        intro m hm
        rw [hfirst] at hm
        exact declared m (List.mem_filter.1 hm).1
      have represents := represents_of_invoke own hinvoke
      rw [hfirst] at represents
      exact ⟨o.first.kind, represents⟩

theorem invokesAll_of_methodCommands {cs : List Command} (built : t.graph.Built)
    (h : methodCommands t = .ok cs) : InvokesAll t cs := by
  constructor
  · intro target htype
    simp only [methodCommands, htype] at h
    unfold invocations at h
    obtain ⟨ids, hids, h⟩ := Fallible.bind_eq_ok_iff.1 h
    obtain ⟨methods, hmethods, h⟩ := Fallible.bind_eq_ok_iff.1 h
    obtain ⟨isEntityCollection, hentity, h⟩ := Fallible.bind_eq_ok_iff.1 h
    have groups := List.rel_filter (p := canInvoke t.property.isCollection isEntityCollection)
      (q := isInvocable t.property.isCollection isEntityCollection)
      (fun key o ho => by rw [← bindingOf_first ho]; rfl) (group_eq methods)
    have invoked := Fallible.forall₂_of_mapM_eq_ok h
    exact ⟨ids, methods, isEntityCollection, hids, hmethods, hentity,
      forall₂_of_groups (declared_of_mapM built hmethods) groups invoked⟩
  · intro hnone
    unfold methodCommands at h
    split at h
    · rename_i target htype
      exact absurd htype (hnone target)
    · cases h
      rfl

/-- Whatever the schema, the settings and the route: the commands end with those of the methods,
and these say of each overload what it declares. -/
theorem represents_of_commands {config : Config} {route : Rendered} {id : PropertyId}
    {cs : List Command} (built : g.Built) (h : commands g config route id = .ok cs) :
    ∃ p others invoked, g.propertyAt id = .ok p ∧ cs = others ++ invoked ∧
      methodCommands ⟨g, config, route, p⟩ = .ok invoked ∧
      InvokesAll ⟨g, config, route, p⟩ invoked := by
  unfold commands at h
  obtain ⟨p, hp, h⟩ := Fallible.bind_eq_ok_iff.1 h
  obtain ⟨read, _, h⟩ := Fallible.bind_eq_ok_iff.1 h
  obtain ⟨created, _, h⟩ := Fallible.bind_eq_ok_iff.1 h
  obtain ⟨updated, _, h⟩ := Fallible.bind_eq_ok_iff.1 h
  obtain ⟨deleted, _, h⟩ := Fallible.bind_eq_ok_iff.1 h
  obtain ⟨invoked, hinvoked, h⟩ := Fallible.bind_eq_ok_iff.1 h
  cases h
  exact ⟨p, read :: (created ++ updated ++ deleted), invoked, hp, rfl, hinvoked,
    invokesAll_of_methodCommands (t := ⟨g, config, route, p⟩) built hinvoked⟩

/-- The schema of a shop whose items have a price by currency, on a day or at a discount. -/
def priced : Graph :=
  { namespaceName := "shop"
    container := { name := "Shop", properties := [⟨1⟩] }
    classes := #[
      { name := "Item", kind := .entity, key := some "id", properties := [⟨0⟩]
        methods := [⟨0⟩, ⟨1⟩, ⟨2⟩, ⟨3⟩] }]
    properties := #[
      { name := "id", type := .primitive .string, owner := .structured ⟨0⟩ },
      { name := "items", type := .structured ⟨0⟩, isCollection := true }]
    methods := #[
      { name := "price", kind := .function
        parameters := [{ name := "currency", type := .primitive .string, nullable := false },
          { name := "day", type := .primitive .string, nullable := false }] },
      { name := "restock", kind := .action, boundToCollection := true
        parameters := [{ name := "count", type := .primitive .int32 }] },
      { name := "price", kind := .function
        parameters := [{ name := "currency", type := .primitive .string },
          { name := "itemId", type := .primitive .string, nullable := false }] },
      { name := "price", kind := .function
        parameters := [{ name := "currency", type := .primitive .int32, nullable := false },
          { name := "discount", type := .primitive .int32 }] }] }

def pricedOperations : List Graph.Operation :=
  [.addClass { name := "Item", kind := .entity, key := some "id" },
    .addProperty ⟨0⟩ { name := "id", type := .primitive .string },
    .addContainerProperty { name := "items", type := .structured ⟨0⟩, isCollection := true },
    .addMethod ⟨0⟩
      { name := "price", kind := .function
        parameters := [{ name := "currency", type := .primitive .string, nullable := false },
          { name := "day", type := .primitive .string, nullable := false }] },
    .addMethod ⟨0⟩
      { name := "restock", kind := .action, boundToCollection := true
        parameters := [{ name := "count", type := .primitive .int32 }] },
    .addMethod ⟨0⟩
      { name := "price", kind := .function
        parameters := [{ name := "currency", type := .primitive .string },
          { name := "itemId", type := .primitive .string, nullable := false }] },
    .addMethod ⟨0⟩
      { name := "price", kind := .function
        parameters := [{ name := "currency", type := .primitive .int32, nullable := false },
          { name := "discount", type := .primitive .int32 }] }]

theorem priced_built : priced.Built := by
  have fresh : ∀ op ∈ pricedOperations, op.AddsFresh := by
    simp only [pricedOperations, List.forall_mem_cons, Graph.Operation.AddsFresh, List.not_mem_nil,
      false_imp_iff, implies_true, and_true]
    exact ⟨rfl, rfl, rfl, rfl⟩
  exact (Graph.Built.empty "shop" "Shop").applyAll fresh (by decide +kernel)

/-- Of the overloads of the price, the second and the third need one argument, and the second is the
first of these. -/
theorem represents_of_commands_priced :
    ∃ cs, commands priced {} itemsRoute ⟨1⟩ = .ok cs ∧
      (cs.drop 4).map (fun c => (c.setNames, c.defaultSet.map (·.name))) =
        [(["PriceCurrencyDay", "PriceCurrencyItemId", "PriceCurrencyDiscount"],
            some "PriceCurrencyItemId"),
          (["Restock"], some "Restock")] ∧
      ∃ p others invoked, priced.propertyAt ⟨1⟩ = .ok p ∧ cs = others ++ invoked ∧
        methodCommands ⟨priced, {}, itemsRoute, p⟩ = .ok invoked ∧
        InvokesAll ⟨priced, {}, itemsRoute, p⟩ invoked := by
  have sets : (commands priced {} itemsRoute ⟨1⟩).map
      (fun cs => (cs.drop 4).map fun c => (c.setNames, c.defaultSet.map (·.name))) =
      .ok [(["PriceCurrencyDay", "PriceCurrencyItemId", "PriceCurrencyDiscount"],
          some "PriceCurrencyItemId"),
        (["Restock"], some "Restock")] := by
    decide +kernel
  obtain ⟨cs, hcs, hsets⟩ := Fallible.map_eq_ok_iff.1 sets
  exact ⟨cs, hcs, hsets, represents_of_commands priced_built hcs⟩

end Synthesis
end EdmCommands
