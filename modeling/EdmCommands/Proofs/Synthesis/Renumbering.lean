import EdmCommands.Proofs.Route.Renumbering
import EdmCommands.Proofs.Synthesis.Body
import EdmCommands.Proofs.Synthesis.Fields
import EdmCommands.Synthesis

/-!
# EdmCommands.Proofs.Synthesis.Renumbering

The commands of graphs that differ in the places of their properties only.

* `mergeEntries_filter`: a navigation property adds nothing to a body.
* `exists_bodyEntries_relocate`: the other properties are there in the same order, at the same
  places.
* `resolve_relocate`, `commands_relocate`: so the bodies are the same, and all commands.
-/

namespace EdmCommands
namespace Synthesis

open Schema
open Route (Rendered)

variable {g : Graph} {table : Array Property} {place : PropertyId → PropertyId} {config : Config}
  {base id : ClassId} {key : Option PropertyId} {sets : List (ClassId × String)}
  {order : List ClassId} {entries : List BodyEntry} {c c' : Command} {route : Rendered}
  {p : Property}

/-! ## What does not look at properties -/

section Kept

variable (g table)

@[simp] theorem hierarchyFrom_withProperties (fuel : Nat) (seen queue : List ClassId) :
    hierarchyFrom (g.withProperties table) fuel seen queue = hierarchyFrom g fuel seen queue := by
  induction fuel generalizing seen queue with
  | zero => cases queue <;> rfl
  | succ fuel ih => cases queue <;> simp only [hierarchyFrom, Graph.classAt_withProperties, ih]

@[simp] theorem hierarchy_withProperties :
    hierarchy (g.withProperties table) base = hierarchy g base :=
  hierarchyFrom_withProperties g table _ _ _

@[simp] theorem subtreeFrom_withProperties (fuel : Nat) (queue : List ClassId) :
    subtreeFrom (g.withProperties table) fuel queue = subtreeFrom g fuel queue := by
  induction fuel generalizing queue with
  | zero => cases queue <;> rfl
  | succ fuel ih =>
    cases queue with
    | nil => rfl
    | cons current queue =>
      simp only [subtreeFrom, ih]
      rfl

@[simp] theorem setsBelow_withProperties :
    setsBelow (g.withProperties table) sets id = setsBelow g sets id := by
  unfold setsBelow subtree
  rw [subtreeFrom_withProperties]
  rfl

@[simp] theorem concreteTypes_withProperties (ids : List ClassId) :
    concreteTypes (g.withProperties table) ids = concreteTypes g ids := by
  induction ids with
  | nil => rfl
  | cons id rest ih =>
    simp only [concreteTypes, Graph.classAt_withProperties, Graph.qualify_withProperties, ih]

@[simp] theorem mergeArguments_withProperties (set : String) (location : ParameterLocation)
    (c : Command) (arguments : List MethodParameter) :
    mergeArguments (g.withProperties table) set location c arguments =
      mergeArguments g set location c arguments := by
  induction arguments generalizing c with
  | nil => rfl
  | cons p rest ih => simp only [mergeArguments, Graph.parameterType_withProperties, ih]

@[simp] theorem mergeOverloads_withProperties (several : Bool) (location : ParameterLocation)
    (c : Command) (methods : List Method) :
    mergeOverloads (g.withProperties table) several location c methods =
      mergeOverloads g several location c methods := by
  induction methods generalizing c with
  | nil => rfl
  | cons m rest ih => simp only [mergeOverloads, mergeArguments_withProperties, ih]

theorem invoke_withProperties (o : Overloads) :
    invoke ⟨g.withProperties table, config, route, p⟩ o = invoke ⟨g, config, route, p⟩ o := by
  unfold invoke withOverloads
  simp only [mergeOverloads_withProperties]
  rfl

theorem invocations_withProperties :
    invocations ⟨g.withProperties table, config, route, p⟩ id =
      invocations ⟨g, config, route, p⟩ id := by
  unfold invocations
  simp only [Graph.allMethods_withProperties]
  rw [funext (invoke_withProperties g table)]
  rfl

theorem methodCommands_withProperties :
    methodCommands ⟨g.withProperties table, config, route, p⟩ =
      methodCommands ⟨g, config, route, p⟩ := by
  unfold methodCommands
  simp only [invocations_withProperties]

end Kept

/-! ## Bodies -/

/-- A navigation property adds nothing to a body. -/
theorem mergeEntry_navigation {entry : BodyEntry} (hnav : g.isNavigation entry.property = true) :
    mergeEntry g c entry = .ok c := by
  obtain ⟨target, htarget, hentity⟩ := (Option.any_eq_true _ _).1 hnav
  obtain ⟨p, hp, htype⟩ := Option.bind_eq_some_iff.1 htarget
  obtain ⟨r, hr, hentity⟩ := (Option.any_eq_true _ _).1 hentity
  have judged : isEligible g p c.operation = .ok false := by
    unfold isEligible
    split
    · rfl
    · have htype := TypeRef.target_eq_some_iff.1 htype
      have hclass := (g.classAt_eq_ok_iff).2 hr
      simp [htype, Graph.isEntityType, hclass, hentity, Except.map]
  simp only [mergeEntry, (g.propertyAt_eq_ok_iff).2 hp, judged]

theorem mergeEntries_filter {sent : BodyEntry → Bool}
    (unsent : ∀ e ∈ entries, sent e = false → g.isNavigation e.property = true) :
    mergeEntries g c (entries.filter sent) = mergeEntries g c entries := by
  induction entries generalizing c with
  | nil => rfl
  | cons entry rest ih =>
    rw [List.forall_mem_cons] at unsent
    obtain ⟨hentry, hrest⟩ := unsent
    by_cases hsent : sent entry = true
    · rw [List.filter_cons_of_pos hsent, mergeEntries, mergeEntries]
      simp only [ih hrest]
    · have hnav := hentry (by simpa using hsent)
      rw [List.filter_cons_of_neg hsent, ih hrest, mergeEntries, mergeEntry_navigation hnav]

theorem owned_of_bodyEntries (hf : g.Forest)
    (hentries : bodyEntries g base key sets order = .ok entries) :
    ∀ e ∈ entries, ∃ owner, e.property ∈ g.ownProperties owner := by
  intro e he
  obtain ⟨set, hset⟩ := List.exists_mem_of_ne_nil _ (sets_of_mem_bodyEntries hentries e he).1
  obtain ⟨_, _, _, ⟨owner, hown, _⟩, _⟩ :=
    (mem_bodyEntries_iff hf hentries).1 ⟨e, he, rfl, hset⟩
  exact ⟨owner, hown⟩

section Renumbered

variable (h : g.Renumbers table place) (built : g.Built)
include h

theorem mergeEntry_relocate {entry : BodyEntry} (stays : place entry.property = entry.property) :
    mergeEntry (g.withProperties table) c entry = mergeEntry g c entry := by
  have hlook : (g.withProperties table).propertyAt entry.property =
      g.propertyAt entry.property := by
    have hsame := h.look entry.property
    rw [stays] at hsame
    unfold Graph.propertyAt
    rw [← hsame]
    rfl
  unfold mergeEntry
  rw [hlook]
  rfl

theorem mergeEntries_relocate (stays : ∀ e ∈ entries, place e.property = e.property) :
    mergeEntries (g.withProperties table) c entries = mergeEntries g c entries := by
  induction entries generalizing c with
  | nil => rfl
  | cons entry rest ih =>
    rw [List.forall_mem_cons] at stays
    simp only [mergeEntries, mergeEntry_relocate h stays.1, ih stays.2]

/-- Among the members that can be sent, the key is told by its new place as well. -/
theorem sent_ne_key (hkey : ∀ k ∈ key, ∃ owner, k ∈ g.ownProperties owner) {p : PropertyId}
    (hp : g.isNavigation p = false) : (some p != key.map place) = (some p != key) := by
  cases key with
  | none => rfl
  | some k =>
    obtain ⟨owner, hk⟩ := hkey k rfl
    by_cases hnav : g.isNavigation k = true
    · -- neither the key nor what stands at its new place can be sent
      have hthere := h.isNavigation_own ((h.own owner).mem_iff.1 (List.mem_map_of_mem hk))
      rw [h.isNavigation, hnav] at hthere
      have hne : some p ≠ some k := by
        rintro ⟨⟩
        simp [hnav] at hp
      have hne' : some p ≠ some (place k) := by
        rintro ⟨⟩
        simp [← hthere] at hp
      rw [Option.map_some, bne_iff_ne.2 hne, bne_iff_ne.2 hne']
    · rw [Option.map_some, h.fixed owner k hk (by simpa using hnav)]

theorem exists_bodyEntries_relocate (hkey : ∀ k ∈ key, ∃ owner, k ∈ g.ownProperties owner)
    (hentries : bodyEntries g base key sets order = .ok entries) :
    ∃ entries', bodyEntries (g.withProperties table) base (key.map place) sets order =
        .ok entries' ∧
      entries'.filter (fun e => !g.isNavigation e.property) =
        entries.filter (fun e => !g.isNavigation e.property) := by
  induction order generalizing entries with
  | nil => exact ⟨entries, hentries, rfl⟩
  | cons id rest ih =>
    unfold bodyEntries at hentries ⊢
    simp only [setsBelow_withProperties, Graph.allProperties_withProperties,
      Graph.classAt_withProperties, Graph.qualify_withProperties] at hentries ⊢
    split at hentries
    · exact ih hentries
    · cases hentries
    rename_i ids discriminator _ hdeclared
    split at hentries
    · cases hentries
    rename_i others hothers
    cases hentries
    obtain ⟨others', hothers', same⟩ := ih hothers
    rw [hothers']
    refine ⟨_, rfl, ?_⟩
    rw [List.filter_append, List.filter_append, same, List.filter_map, List.filter_map,
      List.filter_filter, List.filter_filter]
    congr 2
    refine List.filter_congr fun p _ => ?_
    cases hp : g.isNavigation p with
    | false => rw [sent_ne_key h hkey hp]
    | true => simp [hp]

include built

/-- A body is resolved to the same. -/
theorem resolve_relocate (hresolve : resolve g base c = (c', none)) :
    resolve (g.withProperties table) base c = (c', none) := by
  have hf := built.forest
  have hf' : (g.withProperties table).Forest := hf.withProperties
  obtain ⟨order, types, key, entries, merged, horder, htypes, hsets, hkey, hentries, hmerged,
    rfl⟩ := resolve_eq_ok hresolve
  have hkeyOwned : ∀ k ∈ key, ∃ owner, k ∈ g.ownProperties owner := by
    rintro k rfl
    exact Graph.owned_of_keyProperty hf built.wellOwned hkey
  obtain ⟨entries', hentries', same⟩ := exists_bodyEntries_relocate h hkeyOwned hentries
  have hsent : mergeEntries g (declareTypes base c types).1
        (entries.filter fun e => !g.isNavigation e.property) =
      mergeEntries g (declareTypes base c types).1 entries :=
    mergeEntries_filter fun e _ hnav => by simpa using hnav
  have hsent' : mergeEntries (g.withProperties table) (declareTypes base c types).1
        (entries'.filter fun e => !g.isNavigation e.property) =
      mergeEntries (g.withProperties table) (declareTypes base c types).1 entries' := by
    refine mergeEntries_filter fun e he hnav => ?_
    obtain ⟨owner, hown⟩ := owned_of_bodyEntries hf' hentries' e he
    rw [h.isNavigation_own hown]
    simpa using hnav
  have hstays : ∀ e ∈ entries.filter (fun e => !g.isNavigation e.property),
      place e.property = e.property := by
    intro e he
    obtain ⟨he, hnav⟩ := List.mem_filter.1 he
    obtain ⟨owner, hown⟩ := owned_of_bodyEntries hf hentries e he
    exact h.fixed owner _ hown (by simpa using hnav)
  have hmerged' : mergeEntries (g.withProperties table) (declareTypes base c types).1 entries' =
      (merged, none) := by
    rw [← hsent', same, mergeEntries_relocate h hstays, hsent, hmerged]
  unfold resolve
  rw [hierarchy_withProperties, horder]
  simp only [concreteTypes_withProperties, htypes, List.isEmpty_iff, hsets, if_false,
    h.keyProperty hf built.wellOwned hkey, hentries', hmerged']

theorem withBody_relocate (hbody : withBody g base c = .ok c') :
    withBody (g.withProperties table) base c = .ok c' := by
  unfold withBody at hbody ⊢
  split at hbody
  · rename_i done hdone
    rw [resolve_relocate h built hdone]
    exact hbody
  · cases hbody

/-! ## All commands of a route -/

/-- A command that gets its path parameters and then a body. -/
theorem addressed_relocate {plain : Except Fault Command}
    {address : Command → Except Fault Command} {edit finish : Command → Command}
    (hmade : (do
      let c ← address (← plain)
      return finish (← withBody g base (edit c))) = .ok c) :
    (do
      let c ← address (← plain)
      return finish (← withBody (g.withProperties table) base (edit c))) = .ok c := by
  obtain ⟨c₁, hplain, hmade⟩ := Fallible.bind_eq_ok_iff.1 hmade
  obtain ⟨c₂, haddress, hmade⟩ := Fallible.bind_eq_ok_iff.1 hmade
  obtain ⟨c₃, hbody, hfinish⟩ := Fallible.bind_eq_ok_iff.1 hmade
  refine Fallible.bind_eq_ok_iff.2 ⟨c₁, hplain, ?_⟩
  refine Fallible.bind_eq_ok_iff.2 ⟨c₂, haddress, ?_⟩
  exact Fallible.bind_eq_ok_iff.2 ⟨c₃, withBody_relocate h built hbody, hfinish⟩

theorem create_relocate (hcreate : create ⟨g, config, route, p⟩ id = .ok c) :
    create ⟨g.withProperties table, config, route, p⟩ id = .ok c :=
  addressed_relocate h built hcreate

theorem update_relocate (hupdate : update ⟨g, config, route, p⟩ id = .ok c) :
    update ⟨g.withProperties table, config, route, p⟩ id = .ok c :=
  addressed_relocate h built hupdate

theorem creation_relocate {cs : List Command}
    (hcreation : creation ⟨g, config, route, p⟩ = .ok cs) :
    creation ⟨g.withProperties table, config, route, p⟩ = .ok cs := by
  unfold creation at hcreation ⊢
  dsimp only at hcreation ⊢
  split at hcreation
  · rename_i hreference
    rw [if_pos hreference]
    exact hcreation
  rename_i howned
  rw [if_neg howned]
  split at hcreation
  · split at hcreation
    · rename_i hallowed
      rw [if_pos hallowed]
      obtain ⟨c, hc, rfl⟩ := Fallible.map_eq_ok_iff.1 hcreation
      exact Fallible.map_eq_ok_iff.2 ⟨c, create_relocate h built hc, rfl⟩
    · rename_i hforbidden
      rw [if_neg hforbidden]
      exact hcreation
  · exact hcreation

theorem updating_relocate {cs : List Command}
    (hupdating : updating ⟨g, config, route, p⟩ = .ok cs) :
    updating ⟨g.withProperties table, config, route, p⟩ = .ok cs := by
  unfold updating at hupdating ⊢
  dsimp only at hupdating ⊢
  split at hupdating
  · split at hupdating
    · rename_i hallowed
      rw [if_pos hallowed]
      obtain ⟨c, hc, rfl⟩ := Fallible.map_eq_ok_iff.1 hupdating
      exact Fallible.map_eq_ok_iff.2 ⟨c, update_relocate h built hc, rfl⟩
    · rename_i hforbidden
      rw [if_neg hforbidden]
      exact hupdating
  · exact hupdating

/-- A route has the same commands. -/
theorem commands_relocate {property : PropertyId} {cs : List Command}
    (hcommands : commands g config route property = .ok cs) :
    commands (g.withProperties table) config route (place property) = .ok cs := by
  unfold commands at hcommands ⊢
  obtain ⟨p, hp, hcommands⟩ := Fallible.bind_eq_ok_iff.1 hcommands
  obtain ⟨read, hread, hcommands⟩ := Fallible.bind_eq_ok_iff.1 hcommands
  obtain ⟨created, hcreated, hcommands⟩ := Fallible.bind_eq_ok_iff.1 hcommands
  obtain ⟨updated, hupdated, hcommands⟩ := Fallible.bind_eq_ok_iff.1 hcommands
  refine Fallible.bind_eq_ok_iff.2 ⟨p, h.propertyAt hp, ?_⟩
  refine Fallible.bind_eq_ok_iff.2 ⟨read, hread, ?_⟩
  refine Fallible.bind_eq_ok_iff.2 ⟨created, creation_relocate h built hcreated, ?_⟩
  refine Fallible.bind_eq_ok_iff.2 ⟨updated, updating_relocate h built hupdated, ?_⟩
  rw [methodCommands_withProperties]
  exact hcommands

end Renumbered

end Synthesis
end EdmCommands
