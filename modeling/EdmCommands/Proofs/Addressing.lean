import EdmCommands.Proofs.Document.Construction
import EdmCommands.Proofs.Generation
import EdmCommands.Proofs.Route.Typed
import EdmCommands.Proofs.Synthesis.Heads

/-!
# EdmCommands.Proofs.Addressing

What a command that updates or deletes addresses. The address of a collection of entities goes on
with the identifier of one of them. In a collection of any other values there is none, and so a
command that deletes them, or updates complex values, addresses the collection as a whole.

* `AddressesOne`: the address of a command ends in an identifier that must be given.
* `BuiltFor`: the property that a command of a generation was built for.
* `addressesOne_iff_of_run`: what is written in a collection is addressed when it is an entity.
* `whole_addressed_of_tags`: the tags of a shop are deleted all at once.
-/

namespace EdmCommands

def OperationKind.Writes (op : OperationKind) : Prop :=
  op = .delete ∨ op = .patch

/-- The address of the command ends in an identifier, which is a parameter of the path that must be
given in every set. -/
def Command.AddressesOne (c : Command) : Prop :=
  ∃ name, c.idParameter = some name ∧
    (∃ p ∈ c.parameters, p.name = name ∧ p.location = .path ∧
      ∀ s ∈ c.sets, p.isIn s.name = true ∧ p.isMandatoryIn s.name = true) ∧
    ∃ front, c.urlTemplate = front ++ "/" ++ Route.Rendered.placeholder name

namespace Route

open Schema

variable {g : Graph} {r : Rendered} {p : Property}

theorem isEntitySet_eq_true_iff {id : PropertyId} (hp : g.propertyAt id = .ok p) :
    g.isEntitySet id = true ↔ p.isCollection = true ∧ g.isEntityType p.type = .ok true := by
  have hcollection : g.properties[id.index]?.any (·.isCollection) = p.isCollection := by
    simp [(g.propertyAt_eq_ok_iff).1 hp]
  rw [Graph.isEntitySet, hcollection, Bool.and_eq_true]
  refine and_congr_right fun _ => ⟨fun hnavigation => ?_, fun hentity => ?_⟩
  · rw [Graph.isNavigation, typeClass_of_propertyAt hp, Option.any_eq_true] at hnavigation
    obtain ⟨target, htarget, hclass⟩ := hnavigation
    obtain ⟨c, hc, hentity⟩ := (Option.any_eq_true _ _).1 hclass
    rw [TypeRef.target_eq_some_iff.1 htarget]
    exact Fallible.map_eq_ok_iff.2 ⟨c, (g.classAt_eq_ok_iff).2 hc, hentity⟩
  · exact (isEntityType_eq hp hentity).symm

/-- Without an identifier behind the last segment there is one address. -/
theorem urlTemplate_eq_of_terminalId_eq_none (h : r.terminalId = none) (terminal : TerminalId) :
    r.urlTemplate terminal = r.urlTemplate .omitted := by
  have parts : ∀ segments : List Segment, segments.getLast?.bind (·.id) = none →
      Rendered.urlParts terminal segments = Rendered.urlParts .omitted segments := by
    intro segments hnone
    induction segments with
    | nil => rfl
    | cons s rest ih =>
      cases rest with
      | nil =>
        have hid : s.id = none := hnone
        simp [Rendered.urlParts, hid]
      | cons next rest =>
        rw [Rendered.urlParts, ih (by simpa using hnone)]
        rfl
  rw [Rendered.urlTemplate, parts r.segments h]
  rfl

end Route

namespace Synthesis

open Schema
open Route (Rendered IdPlaceholder)

variable {t : Target} {c : Command}

/-- Of the commands of a route, those that update or delete are made with the identifier of the last
segment. -/
theorem made_of_writes (h : Makes t c) (hop : c.operation.Writes) : Made t .mandatory "" c := by
  have made := madeBy_of_makes h
  rcases hop with hop | hop <;> rw [hop] at made
  · cases made with
    | delete h => exact made_of_delete h
  · cases made with
    | patch h => exact made_of_update h

theorem addressesOne_of_made {id : IdPlaceholder} (h : Made t .mandatory "" c)
    (huncast : ∀ s ∈ t.route.segments.getLast?, s.typecast = none)
    (hid : t.route.terminalId = some id) : c.AddressesOne := by
  refine ⟨id.name, ?_, ?_, t.route.urlTemplate .omitted, ?_⟩
  · rw [h.addressed.id]
    simp [addressId, hid]
  · obtain ⟨p, hp, hname⟩ := List.mem_map.1 (terminalId_mem_pathParameters hid)
    have hmem : p ∈ c.pathParameters := by
      rw [h.addressed.path]
      exact hp
    obtain ⟨hlocation, hall, hmandatory⟩ := of_mem_pathParameters hp
    refine ⟨p, (List.mem_filter.1 hmem).1, hname, hlocation, fun s _ => ⟨?_, ?_⟩⟩
    · simp [Parameter.isIn, hall, SetMembership.contains]
    · simp [Parameter.isMandatoryIn, hmandatory]
  · rw [h.addressed.url, String.append_empty]
    exact Route.urlTemplate_eq_append huncast hid rfl

theorem whole_of_made (h : Made t .mandatory "" c) (hid : t.route.terminalId = none) :
    c.urlTemplate = t.route.urlTemplate .omitted ∧ c.idParameter = none := by
  constructor
  · rw [h.addressed.url, String.append_empty]
    exact Route.urlTemplate_eq_of_terminalId_eq_none hid _
  · rw [h.addressed.id]
    simp [addressId, hid]

end Synthesis

namespace Generation

open Schema
open Route (Rendered Tree)

variable {g : Graph} {config : Config} {output : Output} {c c' : Command} {r : Rendered}
  {p : Property}

/-- The command was built for the property at the end of a route. -/
def BuiltFor (g : Graph) (config : Config) (output : Output) (c : Command) (r : Rendered)
    (p : Property) : Prop :=
  r ∈ output.routes ∧ ∃ tree n cs made, Tree.build g config = .ok tree ∧ n ∈ tree.nodes ∧
    Rendered.ofNode g config n = .ok r ∧ g.propertyAt n.step.property = .ok p ∧
    Synthesis.commands g config r n.step.property = .ok cs ∧ made ∈ cs ∧ SameRequest made c

theorem exists_builtFor_of_run (h : run g config = .ok output) :
    ∀ c ∈ output.commands, ∃ r p, BuiltFor g config output c r p := by
  obtain ⟨tree, htree, hcommands⟩ := made_of_run h
  intro c hc
  obtain ⟨n, hn, r, hr, hof, cs, hcs, made, hmade, hsame⟩ := hcommands c hc
  obtain ⟨p, hp, _⟩ := Synthesis.makes_of_commands hcs
  exact ⟨r, p, hr, tree, n, cs, made, htree, hn, hof, hp, hcs, hmade, hsame⟩

theorem SameRequest.addressesOne (h : SameRequest c c') (one : c.AddressesOne) :
    c'.AddressesOne := by
  rw [h]
  exact one

/-- Every command was built for some property. One that updates or deletes, and was built for a
collection, addresses one of its values just when these are entities; else it addresses the
collection. -/
theorem addressesOne_iff_of_run (hb : g.Built) (h : run g config = .ok output) :
    ∀ c ∈ output.commands, (∃ r p, BuiltFor g config output c r p) ∧
      ∀ r p, BuiltFor g config output c r p → c.operation.Writes → p.isCollection = true →
        (c.AddressesOne ↔ g.isEntityType p.type = .ok true) ∧
        (g.isEntityType p.type ≠ .ok true →
          c.urlTemplate = r.urlTemplate .omitted ∧ c.idParameter = none) := by
  intro c hc
  refine ⟨exists_builtFor_of_run h c hc, ?_⟩
  rintro r p ⟨_, tree, n, cs, made, htree, hn, hof, hp, hcs, hmade, hsame⟩ hop hcollection
  obtain ⟨q, hq, hmakes⟩ := Synthesis.makes_of_commands hcs
  obtain rfl := Except.ok.inj (hp.symm.trans hq)
  have hwrites : made.operation.Writes := by
    rw [hsame] at hop
    exact hop
  have hmade := Synthesis.made_of_writes (hmakes made hmade) hwrites
  have hentity : r.terminalId.isSome = true ↔ g.isEntityType p.type = .ok true := by
    rw [Route.terminalId_isSome_of_build hb htree hn hof, Route.isEntitySet_eq_true_iff hp]
    exact and_iff_right hcollection
  cases hid : r.terminalId with
  | none =>
    obtain ⟨hurl, hnone⟩ := Synthesis.whole_of_made hmade hid
    have whole : c.urlTemplate = r.urlTemplate .omitted ∧ c.idParameter = none := by
      rw [hsame]
      exact ⟨hurl, hnone⟩
    refine ⟨⟨?_, fun entity => ?_⟩, fun _ => whole⟩
    · rintro ⟨name, hname, _⟩
      rw [whole.2] at hname
      cases hname
    · have := hentity.2 entity
      rw [hid] at this
      cases this
  | some id =>
    obtain ⟨segments, hsegments, rfl⟩ := Fallible.map_eq_ok_iff.1 hof
    have one := Synthesis.addressesOne_of_made hmade (Route.last_uncast hsegments) hid
    have entity := hentity.1 (Option.isSome_of_eq_some hid)
    exact ⟨iff_of_true (hsame.addressesOne one) entity, fun hno => absurd entity hno⟩

/-- A shop with items, which have an identifier, and with tags, which have none. -/
def tagging : Document :=
  { namespaceName := "shop"
    container :=
      { name := "Shop"
        properties := [
          { name := "items", typeName := "Item", isCollection := true },
          { name := "tags", typeName := "Edm.String", isCollection := true }] }
    classes := [
      { name := "Item", key := some "id"
        properties := [{ name := "id", typeName := "Edm.String" }] }] }

def taggingGraph : Graph :=
  (Graph.ofDocument tagging).toOption.getD (Graph.empty "shop" "Shop")

def taggingTree : Tree :=
  ⟨(Route.search taggingGraph {} 5 none [] [] 0 [⟨⟨1⟩, none⟩, ⟨⟨2⟩, none⟩]).getD []⟩

theorem ofDocument_tagging : Graph.ofDocument tagging = .ok taggingGraph := by decide +kernel

theorem build_tagging : Tree.build taggingGraph {} = .ok taggingTree := by
  have roots : Tree.roots taggingGraph =
      .ok [⟨"items", ⟨⟨1⟩, none⟩⟩, ⟨"tags", ⟨⟨2⟩, none⟩⟩] := by decide +kernel
  have found : Route.search taggingGraph {} 5 none [] [] 0
      ((Route.byName [⟨"items", ⟨⟨1⟩, none⟩⟩, ⟨"tags", ⟨⟨2⟩, none⟩⟩]).map (·.step)) =
        some taggingTree.nodes := by decide +kernel
  exact Route.build_of_search roots found

theorem exists_run_tagging : ∃ output, run taggingGraph {} = .ok output ∧
    (output.commands.filter (·.operation == .delete)).map
        (fun c => (c.urlTemplate, c.idParameter)) =
      [("items/\x7bItemId\x7d", some "ItemId"), ("tags", none)] := by
  have deletions : (run taggingGraph {}).map (fun output =>
      (output.commands.filter (·.operation == .delete)).map fun c =>
        (c.urlTemplate, c.idParameter)) =
      .ok [("items/\x7bItemId\x7d", some "ItemId"), ("tags", none)] := by
    unfold run
    rw [build_tagging]
    decide +kernel
  exact Fallible.map_eq_ok_iff.1 deletions

theorem addressesOne_of_tagging :
    taggingGraph.Built ∧ ∃ output, run taggingGraph {} = .ok output ∧
      ∀ c ∈ output.commands, (∃ r p, BuiltFor taggingGraph {} output c r p) ∧
        ∀ r p, BuiltFor taggingGraph {} output c r p → c.operation.Writes →
          p.isCollection = true →
          (c.AddressesOne ↔ taggingGraph.isEntityType p.type = .ok true) ∧
          (taggingGraph.isEntityType p.type ≠ .ok true →
            c.urlTemplate = r.urlTemplate .omitted ∧ c.idParameter = none) := by
  have built := Document.built_of_ofDocument ofDocument_tagging
  obtain ⟨output, hrun, _⟩ := exists_run_tagging
  exact ⟨built, output, hrun, addressesOne_iff_of_run built hrun⟩

/-- All tags are deleted at once. -/
theorem whole_addressed_of_tags :
    ¬ ∀ (doc : Document) (g : Graph) (config : Config) (output : Output),
      Graph.ofDocument doc = .ok g → run g config = .ok output →
        ∀ c ∈ output.commands, ∀ r p, BuiltFor g config output c r p → c.operation.Writes →
          p.isCollection = true → c.AddressesOne := by
  intro one
  obtain ⟨output, hrun, hdeleted⟩ := exists_run_tagging
  have htags : ("tags", none) ∈ (output.commands.filter (·.operation == .delete)).map
      (fun c => (c.urlTemplate, c.idParameter)) := by simp [hdeleted]
  obtain ⟨c, hc, heq⟩ := List.mem_map.1 htags
  obtain ⟨hc, hdelete⟩ := List.mem_filter.1 hc
  obtain ⟨r, p, hbuilt⟩ := exists_builtFor_of_run hrun c hc
  obtain ⟨_, tree, n, _, _, htree, hn, _, hp, _⟩ := id hbuilt
  obtain rfl := Except.ok.inj (build_tagging.symm.trans htree)
  have collections : ∀ n ∈ taggingTree.nodes,
      (taggingGraph.propertyAt n.step.property).map (·.isCollection) = .ok true := by
    decide +kernel
  have hcollection := collections n hn
  rw [hp] at hcollection
  obtain ⟨name, hname, _⟩ := one tagging taggingGraph {} output ofDocument_tagging hrun c hc r p
    hbuilt (.inl (beq_iff_eq.1 hdelete)) (Except.ok.inj hcollection)
  rw [(Prod.mk.inj heq).2] at hname
  cases hname

end Generation
end EdmCommands
