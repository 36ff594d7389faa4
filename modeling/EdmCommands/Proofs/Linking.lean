import EdmCommands.Proofs.Document.Construction
import EdmCommands.Proofs.Renaming
import EdmCommands.Proofs.Synthesis.Linkable

/-!
# EdmCommands.Proofs.Linking

Where the reference commands of a generation point. The names of the commands are made distinct
first, and links are made by name, so that a link cannot point at the wrong command.

* `Addresses`, `Offers`: the class that a command is for, and the commands that references can
  point at.
* `Serves`: the command that serves references to a class.
* `Linked`: a reference command is linked when there is a command to point at, and to the one that
  serves it.
* `references_of_run`: all commands of a generation from a document.
-/

namespace EdmCommands
namespace Generation

open Schema

/-- The command gives the class as that of its resource. -/
def Addresses (g : Graph) (c : Command) (id : ClassId) : Prop :=
  ∃ name, g.qualifiedName id = .ok name ∧ c.resourceType = some name

/-- References to entities of the class can point at the command. -/
def Offers (g : Graph) (id : ClassId) (c : Command) : Prop :=
  c.isReferenceable = true ∧ Addresses g c id

/-- Among all commands this one serves references to the class `target`: it is the first one for
its class `id`, and no class between the two has any. -/
structure Serves (g : Graph) (commands : List Command) (target id : ClassId) (c : Command) :
    Prop where
  offers : Offers g id c
  identified : c.idParameter.isSome = true
  within : g.Within target id
  nearest : ∀ other, g.Within target other → (∃ d ∈ commands, Offers g other d) →
    g.Within id other
  first : ∃ before after, commands = before ++ c :: after ∧ ∀ d ∈ before, ¬ Offers g id d

/-- The link of a command for references to the class `target`. -/
structure Linked (g : Graph) (commands : List Command) (target : ClassId) (r : Command) :
    Prop where
  addresses : ∀ id, Addresses g r id ↔ id = target
  isSome_iff : (∃ name, r.referenceTarget = some name) ↔
    ∃ id, g.Within target id ∧ ∃ c ∈ commands, Offers g id c
  serves : ∀ name, r.referenceTarget = some name →
    ∃ id c, Serves g commands target id c ∧ ∀ d ∈ commands, d.name.full = name ↔ d = c

/-- Where the qualified names of classes can be looked up. -/
def NamesFound (g : Graph) : Prop :=
  ∀ id name, g.qualifiedName id = .ok name → g.findClass name = some id

/-- What a command of a generation says about references, in terms of the schema. -/
structure Typed (g : Graph) (c : Command) : Prop where
  referenceable : c.isReferenceable = true → c.idParameter.isSome = true ∧ ∃ id, Addresses g c id
  reference : c.operation.OnReference → ∃ id, Addresses g c id

variable {g : Graph} {config : Config} {output : Output} {c c' r : Command}
  {commands named : List Command} {id target : ClassId}
  {above : List ClassId}

/-! ## Links -/

theorem referenceable_of_relinked (h : List.Forall₂ Relinked named commands) :
    referenceable g named = referenceable g commands := by
  induction h with
  | nil => rfl
  | cons hc _ ih =>
    unfold referenceable at ih ⊢
    rw [List.filterMap_cons, List.filterMap_cons, ih, hc]
    rfl

theorem referenceTarget_of_linkReference {targets : List (ClassId × String)}
    (h : linkReference g targets c = .ok c') (unlinked : c.referenceTarget = none) :
    (¬ c.operation.OnReference → c'.referenceTarget = none) ∧
      (c.operation.OnReference → ∀ id, resourceClass g c = some id →
        ∃ above, g.ancestors id = .ok above ∧
          c'.referenceTarget = nearestTarget targets (id :: above)) := by
  have hon : (c.operation == .postRef || c.operation == .deleteRef) = true ↔
      c.operation.OnReference := by
    simp [OperationKind.OnReference]
  unfold linkReference at h
  split at h
  · rename_i href
    refine ⟨fun hother => absurd (hon.1 href) hother, fun _ id hid => ?_⟩
    rw [hid] at h
    obtain ⟨above, habove, rfl⟩ := Fallible.map_eq_ok_iff.1 h
    exact ⟨above, habove, rfl⟩
  · rename_i hother
    cases h
    exact ⟨fun _ => unlinked, fun href => absurd (hon.2 href) hother⟩

theorem linkable_of_renamed {t : Synthesis.Target} (h : Synthesis.Linkable t c)
    (renamed : Renamed c c') : Synthesis.Linkable t c' := by
  rw [renamed]
  exact ⟨h.unlinked, h.referenceable, h.reference⟩

/-- The commands of a generation have distinct names, and each is linked to one of them or to
none. -/
theorem links_of_run (h : run g config = .ok output) :
    (output.commands.map (·.name.full)).Nodup ∧
      ∀ r ∈ output.commands, ∃ route p c, p ∈ g.properties.toList ∧
        Synthesis.Linkable ⟨g, config, route, p⟩ c ∧
        linkReference g (referenceable g output.commands) c = .ok r := by
  obtain ⟨_, blocks, _, _, hblocks, hlink⟩ := blocks_of_run h
  have hlinked := Fallible.mapM_eq_ok_iff.1 hlink
  have hrelinked := hlinked.imp fun _ _ => relinked_of_linkReference
  refine ⟨?_, fun r hr => ?_⟩
  · have hnames : output.commands.map (·.name.full) =
        (distinctNames (blocks.flatMap (·.2))).map (·.name.full) := by
      refine Fallible.map_eq_map_of_forall₂ hrelinked ?_
      intro c c' hc
      rw [hc]
    rw [hnames]
    exact nodup_distinctNames _
  · -- back over the link and the name to the route that the command was made for
    obtain ⟨c, hc, hcr⟩ := Fallible.exists_of_mem_right hlinked hr
    obtain ⟨made, hmade, hrenamed⟩ :=
      Fallible.exists_of_mem_right (renamed_renameRepeated _ _ _) hc
    obtain ⟨block, hblock, hmem⟩ := List.mem_flatMap.1 hmade
    obtain ⟨_, id, _, hcommands⟩ := hblocks block hblock
    obtain ⟨p, hp, hlinkable⟩ := Synthesis.linkable_of_commands hcommands
    have htable := Array.mem_of_getElem? (g.propertyAt_eq_ok_iff.1 hp)
    rw [referenceable_of_relinked hrelinked] at hcr
    exact ⟨block.1, p, c, Array.mem_toList_iff.2 htable,
      linkable_of_renamed (hlinkable made hmem) hrenamed, hcr⟩

/-! ## Classes of commands -/

theorem resourceClass_of_addresses (found : NamesFound g) (h : Addresses g c id) :
    resourceClass g c = some id := by
  obtain ⟨name, hname, htype⟩ := h
  rw [resourceClass, htype, Option.bind_some]
  exact found id name hname

theorem resourceClass_eq_some_iff (found : NamesFound g) (typed : ∃ id, Addresses g c id) :
    resourceClass g c = some id ↔ Addresses g c id := by
  constructor
  · -- a class is also found by its simple name, but no command gives that
    intro hclass
    obtain ⟨other, hother⟩ := typed
    rw [resourceClass_of_addresses found hother] at hclass
    cases hclass
    exact hother
  · exact resourceClass_of_addresses found

theorem isClass_of_addresses (h : Addresses g c id) : g.IsClass id := by
  obtain ⟨name, hname, _⟩ := h
  obtain ⟨t, ht, _⟩ := Graph.qualifiedName_eq_ok_iff.1 hname
  exact Graph.isClass_iff.2 ⟨t, ht⟩

theorem addresses_of_resourceType {t : Synthesis.Target} (htype : t.property.type = .structured id)
    (h : t.resourceType = .ok c.resourceType) : Addresses t.graph c id := by
  unfold Synthesis.Target.resourceType at h
  rw [htype] at h
  obtain ⟨name, hname, hc⟩ := Fallible.map_eq_ok_iff.1 h
  exact ⟨name, hname, hc.symm⟩

theorem typed_of_linkable {t : Synthesis.Target} (h : Synthesis.Linkable t c)
    (structured : t.property.isReference = true → ∃ id, t.property.type = .structured id) :
    Typed t.graph c where
  referenceable hreferenceable := by
    obtain ⟨hid, id, htype, hresource⟩ := h.referenceable hreferenceable
    exact ⟨hid, id, addresses_of_resourceType htype hresource⟩
  reference hon := by
    obtain ⟨href, hresource⟩ := h.reference hon
    obtain ⟨id, htype⟩ := structured href
    exact ⟨id, addresses_of_resourceType htype hresource⟩

theorem Typed.relinked (h : Typed g c) (relinked : Relinked c c') : Typed g c' := by
  rw [relinked]
  exact ⟨h.referenceable, h.reference⟩

/-! ## Choice of a target -/

theorem lookup_referenceable (g : Graph) (commands : List Command) (id : ClassId) :
    (referenceable g commands).lookup id =
      (commands.find? fun c => c.isReferenceable && resourceClass g c == some id).map
        (·.name.full) := by
  induction commands with
  | nil => rfl
  | cons c rest ih =>
    unfold referenceable at ih ⊢
    rw [List.filterMap_cons, List.find?_cons]
    cases hreferenceable : c.isReferenceable with
    | false => simpa [hreferenceable] using ih
    | true =>
      cases hclass : resourceClass g c with
      | none => simpa [hclass] using ih
      | some other =>
        by_cases heq : other = id
        · simp [heq]
        · have hne : (id == other) = false := by simpa using Ne.symm heq
          have hne' : (other == id) = false := by simpa using heq
          simpa [List.lookup_cons, hne, hne'] using ih

theorem mem_chain_iff (hchain : g.BaseChain target above) :
    id ∈ target :: above ↔ g.Within target id := by
  rw [List.mem_cons, hchain.mem_iff, Graph.Within, eq_comm]

theorem baseChain_of_ancestors (hf : g.Forest) (known : g.IsClass id)
    (h : g.ancestors id = .ok above) : g.BaseChain id above := by
  obtain ⟨chain, hchain, hbases⟩ := hf.exists_ancestors known
  rw [h] at hchain
  cases hchain
  exact hbases

theorem Serves.mem (h : Serves g commands target id c) : c ∈ commands := by
  obtain ⟨before, after, rfl, _⟩ := h.first
  simp

section Choice

variable (found : NamesFound g) (typed : ∀ c ∈ commands, Typed g c)
include found typed

theorem offers_iff (hc : c ∈ commands) :
    (c.isReferenceable && resourceClass g c == some id) = true ↔ Offers g id c := by
  rw [Bool.and_eq_true, beq_iff_eq, Offers]
  refine and_congr_right fun hreferenceable => ?_
  exact resourceClass_eq_some_iff found ((typed c hc).referenceable hreferenceable).2

theorem lookup_eq_none_iff :
    (referenceable g commands).lookup id = none ↔ ∀ c ∈ commands, ¬ Offers g id c := by
  rw [lookup_referenceable, Option.map_eq_none_iff, List.find?_eq_none]
  exact forall₂_congr fun c hc => not_congr (offers_iff found typed hc)

theorem lookup_eq_some_iff {name : String} :
    (referenceable g commands).lookup id = some name ↔ ∃ c, c.name.full = name ∧ Offers g id c ∧
      ∃ before after, commands = before ++ c :: after ∧ ∀ d ∈ before, ¬ Offers g id d := by
  rw [lookup_referenceable, Option.map_eq_some_iff]
  refine exists_congr fun c => ?_
  rw [List.find?_eq_some_iff_append, and_comm]
  refine and_congr_right fun _ => ?_
  constructor
  · rintro ⟨hc, before, after, rfl, hbefore⟩
    refine ⟨(offers_iff found typed (by simp)).1 hc, before, after, rfl, ?_⟩
    intro d hd hoffers
    have hmem : d ∈ before ++ c :: after := List.mem_append_left _ hd
    have := hbefore d hd
    rw [(offers_iff found typed hmem).2 hoffers] at this
    cases this
  · rintro ⟨hc, before, after, rfl, hbefore⟩
    refine ⟨(offers_iff found typed (by simp)).2 hc, before, after, rfl, ?_⟩
    intro d hd
    have hmem : d ∈ before ++ c :: after := List.mem_append_left _ hd
    rw [Bool.not_eq_true', Bool.eq_false_iff]
    intro hoffers
    exact hbefore d hd ((offers_iff found typed hmem).1 hoffers)

/-- There is a target when a class of the chain is offered. -/
theorem isSome_nearestTarget_iff (hchain : g.BaseChain target above) :
    (∃ name, nearestTarget (referenceable g commands) (target :: above) = some name) ↔
      ∃ id, g.Within target id ∧ ∃ c ∈ commands, Offers g id c := by
  rw [← Option.isSome_iff_exists, nearestTarget, List.findSome?_isSome_iff]
  refine exists_congr fun id => ?_
  rw [mem_chain_iff hchain]
  refine and_congr_right fun _ => ?_
  rw [Option.isSome_iff_ne_none, Ne, lookup_eq_none_iff found typed]
  simp

theorem serves_of_nearestTarget (hchain : g.BaseChain target above) {name : String}
    (h : nearestTarget (referenceable g commands) (target :: above) = some name) :
    ∃ id c, Serves g commands target id c ∧ c.name.full = name := by
  obtain ⟨nearer, id, farther, hsplit, hlookup, hnearer⟩ := List.findSome?_eq_some_iff.1 h
  obtain ⟨c, hname, hoffers, hfirst⟩ := (lookup_eq_some_iff found typed).1 hlookup
  have hc : c ∈ commands := by
    obtain ⟨before, after, rfl, _⟩ := hfirst
    simp
  refine ⟨id, c, ⟨hoffers, ((typed c hc).referenceable hoffers.1).1, ?_, ?_, hfirst⟩, hname⟩
  · refine (mem_chain_iff hchain).1 ?_
    rw [hsplit]
    simp
  · rintro other hwithin ⟨d, hd, hoffer⟩
    have hmem := (mem_chain_iff hchain).2 hwithin
    have hpairwise := hchain.pairwise_derives
    rw [hsplit, List.pairwise_append, List.pairwise_cons] at hpairwise
    rw [hsplit, List.mem_append, List.mem_cons] at hmem
    rcases hmem with hmem | rfl | hmem
    · -- a nearer class has no command
      exact absurd hoffer ((lookup_eq_none_iff found typed).1 (hnearer other hmem) d hd)
    · exact .inl rfl
    · exact .inr (hpairwise.2.1.1 other hmem)

end Choice

/-- Where names can be looked up and bases end, the link of a reference command is right. -/
theorem linked_of_linkReference (found : NamesFound g) (hf : g.Forest)
    (typed : ∀ c ∈ commands, Typed g c) (distinct : (commands.map (·.name.full)).Nodup)
    (unlinked : c.referenceTarget = none) (hon : c.operation.OnReference)
    (haddresses : Addresses g c target)
    (h : linkReference g (referenceable g commands) c = .ok r) :
    Linked g commands target r := by
  have hclass := resourceClass_of_addresses found haddresses
  obtain ⟨above, habove, htarget⟩ :=
    (referenceTarget_of_linkReference h unlinked).2 hon target hclass
  have hchain := baseChain_of_ancestors hf (isClass_of_addresses haddresses) habove
  have hrelinked := relinked_of_linkReference h
  have haddresses' : ∀ id, Addresses g r id ↔ Addresses g c id := by
    intro id
    rw [hrelinked]
    rfl
  refine ⟨fun id => ?_, ?_, ?_⟩
  · rw [haddresses', ← resourceClass_eq_some_iff found ⟨target, haddresses⟩, hclass]
    exact Option.some_inj.trans eq_comm
  · rw [htarget]
    exact isSome_nearestTarget_iff found typed hchain
  · intro name hname
    rw [htarget] at hname
    obtain ⟨id, c, hserves, rfl⟩ := serves_of_nearestTarget found typed hchain hname
    refine ⟨id, c, hserves, fun d hd => ⟨fun hsame => ?_, ?_⟩⟩
    · exact List.inj_on_of_nodup_map distinct hd hserves.mem hsame
    · rintro rfl
      rfl

/-! ## Documents -/

section Documents

variable {doc : Document}

/-- In a graph drawn from a document, names of classes can be looked up and references are for
classes. Then the links of a generation are right. -/
theorem linked_of_run (found : NamesFound g) (hf : g.Forest)
    (structured : ∀ p ∈ g.properties.toList, p.isReference = true → ∃ id, p.type = .structured id)
    (h : run g config = .ok output) :
    (output.commands.map (·.name.full)).Nodup ∧
      ∀ r ∈ output.commands,
        (¬ r.operation.OnReference → r.referenceTarget = none) ∧
        (r.operation.OnReference → ∃ target, Linked g output.commands target r) := by
  obtain ⟨distinct, hcommands⟩ := links_of_run h
  have typed : ∀ c ∈ output.commands, Typed g c := by
    intro r hr
    obtain ⟨_, p, c, hp, hlinkable, hlink⟩ := hcommands r hr
    exact (typed_of_linkable hlinkable (structured p hp)).relinked (relinked_of_linkReference hlink)
  refine ⟨distinct, fun r hr => ?_⟩
  obtain ⟨_, p, c, hp, hlinkable, hlink⟩ := hcommands r hr
  have hoperation : r.operation = c.operation := by
    rw [relinked_of_linkReference hlink]
  rw [hoperation]
  refine ⟨(referenceTarget_of_linkReference hlink hlinkable.unlinked).1, fun hon => ?_⟩
  obtain ⟨target, htarget⟩ := (typed_of_linkable hlinkable (structured p hp)).reference hon
  exact ⟨target, linked_of_linkReference found hf typed distinct hlinkable.unlinked hon htarget
    hlink⟩

/-- In a generation from a document with plain class names, names of commands are distinct, only
reference commands are linked, and each of them to the command that serves its class, if there is
one. -/
theorem references_of_run (plain : ∀ c ∈ doc.classes, Document.IsPlain c.name)
    (hg : Graph.ofDocument doc = .ok g) (h : run g config = .ok output) :
    (output.commands.map (·.name.full)).Nodup ∧
      ∀ r ∈ output.commands,
        (¬ r.operation.OnReference → r.referenceTarget = none) ∧
        (r.operation.OnReference → ∃ target, Linked g output.commands target r) := by
  obtain ⟨drawn, _⟩ := (Document.yields_ofDocument (P := False) nofun).sound g hg
  refine linked_of_run ?_ drawn.built.forest ?_ h
  · exact fun id name hname => drawn.findClass_of_qualifiedName plain hname
  · exact fun p hp href => drawn.structured_of_isReference hp href

end Documents

/-- Loans are of books, and books are items. The two sets of the library differ in the case of one
letter, so that their commands get the same names at first. -/
def lending : Document where
  namespaceName := "lib"
  container :=
    { name := "Library"
      properties := [
        { name := "shelf", typeName := "Collection(lib.Item)" },
        { name := "Shelf", typeName := "Collection(lib.Loan)" }] }
  classes := [
    { name := "Book", base := some "Item" },
    { name := "Item", key := some "id"
      properties := [{ name := "id", typeName := "Edm.String" }] },
    { name := "Loan", key := some "id"
      properties := [
        { name := "id", typeName := "Edm.Int32" },
        { name := "book", typeName := "lib.Book", isReference := true }] }]

def lendingGraph : Graph :=
  (Graph.ofDocument lending).toOption.getD (Graph.empty "lib" "Library")

def lendingTree : Route.Tree :=
  ⟨((Route.search lendingGraph {} 20 none [] [] 0 [⟨⟨4⟩, none⟩, ⟨⟨3⟩, none⟩]).getD [])⟩

theorem build_lending : Route.Tree.build lendingGraph {} = .ok lendingTree := by
  have roots : Route.Tree.roots lendingGraph =
      .ok [⟨"shelf", ⟨⟨3⟩, none⟩⟩, ⟨"Shelf", ⟨⟨4⟩, none⟩⟩] := by decide +kernel
  have found : Route.search lendingGraph {} 20 none [] [] 0
      ((Route.byName [⟨"shelf", ⟨⟨3⟩, none⟩⟩, ⟨"Shelf", ⟨⟨4⟩, none⟩⟩]).map (·.step)) =
        some lendingTree.nodes := by decide +kernel
  exact Route.build_of_search roots found

/-- References to books point at the items, whose commands were renamed. -/
theorem references_of_lending :
    (∀ c ∈ lending.classes, Document.IsPlain c.name) ∧
      Graph.ofDocument lending = .ok lendingGraph ∧
      ∃ output, run lendingGraph {} = .ok output ∧
        output.commands.filterMap (·.referenceTarget) = ["Get-Shelf1", "Get-Shelf1"] ∧
        (output.commands.map (·.name.full)).Nodup ∧
        ∀ r ∈ output.commands,
          (¬ r.operation.OnReference → r.referenceTarget = none) ∧
          (r.operation.OnReference → ∃ target, Linked lendingGraph output.commands target r) := by
  have plain : ∀ c ∈ lending.classes, Document.IsPlain c.name := by
    unfold Document.IsPlain
    decide
  have drawn : Graph.ofDocument lending = .ok lendingGraph := by decide +kernel
  have targets : (run lendingGraph {}).map (·.commands.filterMap (·.referenceTarget)) =
      .ok ["Get-Shelf1", "Get-Shelf1"] := by
    unfold run
    rw [build_lending]
    decide +kernel
  obtain ⟨output, hrun, htargets⟩ := Fallible.map_eq_ok_iff.1 targets
  exact ⟨plain, drawn, output, hrun, htargets, references_of_run plain drawn hrun⟩

end Generation
end EdmCommands
