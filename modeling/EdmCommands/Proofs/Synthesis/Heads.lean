import EdmCommands.Proofs.Synthesis.Linkable

/-!
# EdmCommands.Proofs.Synthesis.Heads

What a command does, by the verb of its name and by its operation. The first command of a route
reads the resource there. Of the others the operation tells how they were made.

* `Headed`: the verb and the operation of a command.
* `Reads`, `Follows`: the first command of a route, and those behind it.
* `heads_of_commands`: so for the commands that are made.
* `MadeBy`, `madeBy_of_makes`: the ways to make a command, by its operation.
-/

namespace EdmCommands
namespace Synthesis

open Schema
open Route (Rendered)

variable {g : Graph} {config : Config} {t : Target} {c c' : Command} {cs : List Command}
  {verb : Verb} {op : OperationKind}

structure Headed (verb : Verb) (op : OperationKind) (c : Command) : Prop where
  verb : c.name.verb = verb
  operation : c.operation = op

def Reads (c : Command) : Prop :=
  Headed .get .get c ∨ Headed .get .search c

/-- The command does not read the resource of its route; if it creates or updates a resource, it is
made for the class of the property there. -/
structure Follows (t : Target) (c : Command) : Prop where
  verb : c.name.verb ≠ .get
  post : c.operation = .post →
    ∃ target, t.property.type = .structured target ∧ create t target = .ok c
  patch : c.operation = .patch →
    ∃ target, t.property.type = .structured target ∧ update t target = .ok c

namespace Headed

theorem of_command {noun url : String} {method : HttpMethod}
    (h : t.command verb noun op method url = .ok c) : Headed verb op c := by
  obtain ⟨_, _, rfl⟩ := Fallible.map_eq_ok_iff.1 h
  exact ⟨rfl, rfl⟩

theorem of_sameHead (h : Headed verb op c) (same : SameHead c c') : Headed verb op c' := by
  rw [same]
  exact ⟨h.verb, h.operation⟩

theorem identify (h : Headed verb op c) (id : Option String) (referenceable : Bool) :
    Headed verb op { c with idParameter := id, isReferenceable := referenceable } :=
  ⟨h.verb, h.operation⟩

theorem summarize (h : Headed verb op c) (summary : String) :
    Headed verb op { c with summary := summary } :=
  ⟨h.verb, h.operation⟩

theorem retype (h : Headed verb op c) (result description : Option String) :
    Headed verb op { c with resourceType := result, description := description } :=
  ⟨h.verb, h.operation⟩

theorem identifyIf (h : Headed verb op c) (onItem : Bool) (id : Option String) :
    Headed verb op (if onItem then { c with idParameter := id } else c) := by
  cases onItem with
  | false => exact h
  | true => exact h.identify id c.isReferenceable

end Headed

/-! ## Builders -/

theorem headed_of_create {target : ClassId} (h : create t target = .ok c) :
    Headed .new .post c := by
  obtain ⟨c₁, hcommand, h⟩ := Fallible.bind_eq_ok_iff.1 h
  obtain ⟨c₂, hpath, h⟩ := Fallible.bind_eq_ok_iff.1 h
  obtain ⟨c₃, hbody, h⟩ := Fallible.bind_eq_ok_iff.1 h
  cases h
  have hplaced := (Headed.of_command hcommand).of_sameHead (.addParameters hpath)
  exact (hplaced.of_sameHead (.of_grows (withBody_grows hbody).1)).summarize _

theorem headed_of_update {target : ClassId} (h : update t target = .ok c) :
    Headed .update .patch c := by
  obtain ⟨c₁, hcommand, h⟩ := Fallible.bind_eq_ok_iff.1 h
  obtain ⟨c₂, hpath, h⟩ := Fallible.bind_eq_ok_iff.1 h
  obtain ⟨c₃, hbody, h⟩ := Fallible.bind_eq_ok_iff.1 h
  cases h
  have hplaced := (Headed.of_command hcommand).of_sameHead (.addParameters hpath)
  exact ((hplaced.identify _ _).of_sameHead (.of_grows (withBody_grows hbody).1)).summarize _

theorem headed_of_delete (h : delete t = .ok c) : Headed .remove .delete c := by
  obtain ⟨c₁, hcommand, h⟩ := Fallible.bind_eq_ok_iff.1 h
  obtain ⟨c₂, hpath, h⟩ := Fallible.bind_eq_ok_iff.1 h
  obtain ⟨c₃, hset, h⟩ := Fallible.bind_eq_ok_iff.1 h
  cases h
  have hplaced := (Headed.of_command hcommand).of_sameHead (.addParameters hpath)
  exact ((hplaced.identify _ _).of_sameHead (.withOnlySet hset)).summarize _

theorem headed_of_postReference (h : postReference t = .ok c) :
    ∃ verb, verb ≠ .get ∧ Headed verb .postRef c := by
  unfold postReference at h
  dsimp only at h
  obtain ⟨c₁, hcommand, h⟩ := Fallible.bind_eq_ok_iff.1 h
  obtain ⟨c₂, hpath, h⟩ := Fallible.bind_eq_ok_iff.1 h
  obtain ⟨c₃, hset, h⟩ := Fallible.bind_eq_ok_iff.1 h
  obtain ⟨c₄, hreference, h⟩ := Fallible.bind_eq_ok_iff.1 h
  cases h
  have hplaced := (Headed.of_command hcommand).of_sameHead (.addParameters hpath)
  have hend := (hplaced.of_sameHead (.withOnlySet hset)).of_sameHead (.addParameter hreference)
  refine ⟨_, ?_, hend.summarize _⟩
  cases t.property.isCollection <;> simp

theorem headed_of_deleteReference (h : deleteReference t = .ok c) :
    Headed .remove .deleteRef c := by
  unfold deleteReference at h
  obtain ⟨c₁, hcommand, h⟩ := Fallible.bind_eq_ok_iff.1 h
  obtain ⟨c₂, hpath, h⟩ := Fallible.bind_eq_ok_iff.1 h
  obtain ⟨c₃, hset, h⟩ := Fallible.bind_eq_ok_iff.1 h
  have hplaced := (Headed.of_command hcommand).of_sameHead (.addParameters hpath)
  have hend := hplaced.of_sameHead (.withOnlySet hset)
  split at h
  · obtain ⟨c₄, hreference, h⟩ := Fallible.bind_eq_ok_iff.1 h
    cases h
    exact (hend.of_sameHead (.addParameter hreference)).summarize _
  · cases h
    exact hend.summarize _

theorem headed_of_invoke {o : Overloads} (h : invoke t o = .ok c) :
    Headed .invoke (invocation o.first.kind).1 c := by
  obtain ⟨invoked, stages, rfl⟩ := stages_of_invoke h
  cases stages with
  | made _ hcommand hpath hoverloads hoptions =>
    have hplaced := ((Headed.of_command hcommand).retype _ _).of_sameHead (.addParameters hpath)
    have hmerged := (hplaced.identifyIf _ _).of_sameHead
      (.of_grows (withOverloads_grows hoverloads).1)
    exact (hmerged.of_sameHead (.of_grows (withResultOptions_grows hoptions).1)).summarize _

theorem Headed.withEntity {isEntity : Bool} (h : Headed verb op c)
    (hidentified : withEntity t isEntity c = .ok c') : Headed verb op c' := by
  rcases withEntity_eq_ok hidentified with ⟨id, c₁, c₂, _, _, hset, hadd, rfl⟩ | ⟨_, rfl⟩
  · exact ((h.of_sameHead (.addSet hset)).of_sameHead (.addParameter hadd)).identify _ _
  · exact h

theorem reads_of_getOrSearch (h : getOrSearch t = .ok c) : Reads c := by
  obtain ⟨read, stages, rfl⟩ := stages_of_getOrSearch h
  cases stages with
  | collection _ hcommand hpath hidentified hsearch =>
    have hplaced := (Headed.of_command hcommand).of_sameHead (.addParameters hpath)
    have hend := (hplaced.withEntity hidentified).of_sameHead (.withSearch hsearch)
    exact .inr (hend.summarize _)
  | single hcommand hpath hset _ hoptions =>
    have hplaced := (Headed.of_command hcommand).of_sameHead (.addParameters hpath)
    have hend := (hplaced.of_sameHead (.withOnlySet hset)).of_sameHead (.addParameters hoptions)
    exact .inl (hend.summarize _)

/-! ## The commands of a route -/

/-- A list with the command for an operation, if the operation is allowed. -/
theorem eq_of_mem_allowed {x : Except Fault Command} {allowed : Bool}
    (h : (if allowed then x.map ([·]) else .ok []) = .ok cs) (hc : c ∈ cs) : x = .ok c := by
  split at h
  · obtain ⟨c', hc', rfl⟩ := Fallible.map_eq_ok_iff.1 h
    rw [List.mem_singleton.1 hc]
    exact hc'
  · cases h
    cases hc

theorem follows_of_headed (h : Headed verb op c) (hverb : verb ≠ .get)
    (other : op ≠ .post ∧ op ≠ .patch) : Follows t c where
  verb := h.verb ▸ hverb
  post hop := absurd (h.operation.symm.trans hop) other.1
  patch hop := absurd (h.operation.symm.trans hop) other.2

theorem follows_of_create {target : ClassId} (type : t.property.type = .structured target)
    (h : create t target = .ok c) : Follows t c := by
  obtain ⟨hverb, hop⟩ := headed_of_create h
  refine ⟨by simp [hverb], fun _ => ⟨target, type, h⟩, fun hpatch => ?_⟩
  rw [hop] at hpatch
  cases hpatch

theorem follows_of_update {target : ClassId} (type : t.property.type = .structured target)
    (h : update t target = .ok c) : Follows t c := by
  obtain ⟨hverb, hop⟩ := headed_of_update h
  refine ⟨by simp [hverb], fun hpost => ?_, fun _ => ⟨target, type, h⟩⟩
  rw [hop] at hpost
  cases hpost

theorem follows_of_creation (h : creation t = .ok cs) : ∀ c ∈ cs, Follows t c := by
  intro c hc
  unfold creation at h
  split at h
  · obtain ⟨verb, hverb, headed⟩ := headed_of_postReference (eq_of_mem_allowed h hc)
    exact follows_of_headed headed hverb (by simp)
  · split at h
    · rename_i target htype
      exact follows_of_create htype (eq_of_mem_allowed h hc)
    · cases h
      cases hc

theorem follows_of_updating (h : updating t = .ok cs) : ∀ c ∈ cs, Follows t c := by
  intro c hc
  unfold updating at h
  split at h
  · rename_i target htype
    exact follows_of_update htype (eq_of_mem_allowed h hc)
  · cases h
    cases hc

theorem follows_of_deletion (h : deletion t = .ok cs) : ∀ c ∈ cs, Follows t c := by
  intro c hc
  unfold deletion at h
  split at h
  · have headed := headed_of_deleteReference (eq_of_mem_allowed h hc)
    exact follows_of_headed headed (by simp) (by simp)
  · have headed := headed_of_delete (eq_of_mem_allowed h hc)
    exact follows_of_headed headed (by simp) (by simp)

theorem follows_of_methodCommands (h : methodCommands t = .ok cs) : ∀ c ∈ cs, Follows t c := by
  intro c hc
  unfold methodCommands at h
  split at h
  · obtain ⟨ids, _, h⟩ := Fallible.bind_eq_ok_iff.1 h
    obtain ⟨methods, _, h⟩ := Fallible.bind_eq_ok_iff.1 h
    obtain ⟨isEntityCollection, _, h⟩ := Fallible.bind_eq_ok_iff.1 h
    obtain ⟨o, _, hinvoke⟩ := Fallible.forall_ok_of_mapM_eq_ok h hc
    refine follows_of_headed (headed_of_invoke hinvoke) (by simp) ?_
    cases o.first.kind <;> simp [invocation]
  · cases h
    cases hc

/-- The first command of a route reads its resource, and the others do something else. -/
theorem heads_of_commands {route : Rendered} {id : PropertyId}
    (h : commands g config route id = .ok cs) :
    ∃ p read rest, g.propertyAt id = .ok p ∧ cs = read :: rest ∧ Reads read ∧
      ∀ c ∈ rest, Follows ⟨g, config, route, p⟩ c := by
  unfold commands at h
  obtain ⟨p, hp, h⟩ := Fallible.bind_eq_ok_iff.1 h
  obtain ⟨read, hread, h⟩ := Fallible.bind_eq_ok_iff.1 h
  obtain ⟨created, hcreated, h⟩ := Fallible.bind_eq_ok_iff.1 h
  obtain ⟨updated, hupdated, h⟩ := Fallible.bind_eq_ok_iff.1 h
  obtain ⟨deleted, hdeleted, h⟩ := Fallible.bind_eq_ok_iff.1 h
  obtain ⟨invoked, hinvoked, h⟩ := Fallible.bind_eq_ok_iff.1 h
  cases h
  refine ⟨p, read, _, hp, rfl, reads_of_getOrSearch hread, ?_⟩
  simp only [List.forall_mem_append]
  exact ⟨⟨⟨follows_of_creation hcreated, follows_of_updating hupdated⟩,
    follows_of_deletion hdeleted⟩, follows_of_methodCommands hinvoked⟩

/-! ## The ways to make a command -/

/-- The operation of a command tells how it was made. -/
inductive MadeBy (t : Target) (c : Command) : OperationKind → Prop where
  | get (h : getOrSearch t = .ok c) : MadeBy t c .get
  | search (h : getOrSearch t = .ok c) : MadeBy t c .search
  | post {target : ClassId} (h : create t target = .ok c) : MadeBy t c .post
  | patch {target : ClassId} (h : update t target = .ok c) : MadeBy t c .patch
  | delete (h : delete t = .ok c) : MadeBy t c .delete
  | postRef (h : postReference t = .ok c) : MadeBy t c .postRef
  | deleteRef (h : deleteReference t = .ok c) : MadeBy t c .deleteRef
  | action {o : Overloads} (declared : t.HasOverloads o) (h : invoke t o = .ok c) :
    MadeBy t c .action
  | function {o : Overloads} (declared : t.HasOverloads o) (h : invoke t o = .ok c) :
    MadeBy t c .function

theorem madeBy_of_makes (h : Makes t c) : MadeBy t c c.operation := by
  cases h with
  | read h =>
    rcases reads_of_getOrSearch h with headed | headed <;> rw [headed.operation]
    · exact .get h
    · exact .search h
  | create h => exact (headed_of_create h).operation ▸ .post h
  | update h => exact (headed_of_update h).operation ▸ .patch h
  | delete h => exact (headed_of_delete h).operation ▸ .delete h
  | postReference _ h =>
    obtain ⟨_, _, headed⟩ := headed_of_postReference h
    exact headed.operation ▸ .postRef h
  | deleteReference _ h => exact (headed_of_deleteReference h).operation ▸ .deleteRef h
  | @invoke o declared h =>
    rw [(headed_of_invoke h).operation]
    cases o.first.kind with
    | action => exact .action declared h
    | function => exact .function declared h

end Synthesis
end EdmCommands
