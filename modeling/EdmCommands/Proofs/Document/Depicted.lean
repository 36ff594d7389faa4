import EdmCommands.Proofs.Document.Construction

/-!
# EdmCommands.Proofs.Document.Depicted

Which documents have a schema graph, and what the graph shows of its document.

* `DepictsClass`, `Depicts`: a graph that shows all of a document, in order.
* `Drawn.wellFormed`, `Drawn.depicts`: what the finished graph says of the document.
* `hasGraph_iff_wellFormed`: just the well-formed documents have a graph, and it depicts them.
-/

namespace EdmCommands
namespace Document

open Schema (ClassId Owner StructuredType Graph)

/-- The class says what the entry says, and its base is the one that the entry names. -/
structure DepictsClass (doc : Document) (c : ClassEntry) (t : StructuredType) : Prop where
  head : t.head = c.type
  base : ∀ id, t.base = some id ↔ ∃ b, doc.classes[id.index]? = some b ∧ doc.Extends c b

/-- The tables of the graph are the declarations of the document, in order; a class and the
container list those of their own entry, in order; a class has the property that its key names. -/
structure Depicts (doc : Document) (g : Graph) : Prop where
  namespaceName : g.namespaceName = doc.namespaceName
  containerName : g.container.name = doc.container.name
  enums : g.enums.toList = doc.enums.map (·.type)
  classes : List.Forall₂ doc.DepictsClass doc.classes g.classes.toList
  properties : List.Forall₂ (FitsProperty doc.Types) doc.propertyDeclarations g.properties.toList
  methods : List.Forall₂ (FitsMethod doc.Types) doc.methodDeclarations g.methods.toList
  ownProperties : ∀ id c, doc.classes[id.index]? = some c → ∃ properties,
    (g.ownProperties id).mapM g.propertyAt = .ok properties ∧
      List.Forall₂ (FitsProperty doc.Types) (c.properties.map (Prod.mk (.structured id))) properties
  ownMethods : ∀ id c, doc.classes[id.index]? = some c → ∃ methods,
    (g.ownMethods id).mapM g.methodAt = .ok methods ∧
      List.Forall₂ (FitsMethod doc.Types) (c.methods.map (Prod.mk id)) methods
  entries : ∃ properties, g.container.properties.mapM g.propertyAt = .ok properties ∧
    List.Forall₂ (FitsProperty doc.Types) (doc.container.properties.map (Prod.mk .container))
      properties
  keys : ∀ id c, doc.classes[id.index]? = some c →
    (∀ key, doc.KeyOf c key → ∃ ids p q, g.allProperties id = .ok ids ∧ p ∈ ids ∧
      g.propertyAt p = .ok q ∧ q.name = key ∧ g.keyProperty id = .ok (some p)) ∧
    ((∀ key, ¬ doc.KeyOf c key) → g.keyProperty id = .ok none)

variable {doc : Document} {g : Graph} {c : ClassEntry} {id : ClassId} {owner : Owner}

/-- Properties that fit the entries of one owner have their names. -/
theorem map_name_of_fit {reads : String → Schema.TypeRef → Prop} {entries : List PropertyEntry}
    {properties : List Schema.Property}
    (h : List.Forall₂ (FitsProperty reads) (entries.map (Prod.mk owner)) properties) :
    properties.map (·.name) = entries.map (·.name) := by
  rw [List.forall₂_map_left_iff] at h
  refine Fallible.map_eq_map_of_forall₂ h ?_
  rintro e p ⟨type, _, rfl⟩
  rfl

namespace Drawn

section Finished

variable (h : doc.Drawn doc.classes doc.propertyDeclarations doc.methodDeclarations g)
include h

theorem ownProperties_fit (hc : doc.classes[id.index]? = some c) : ∃ properties,
    (g.ownProperties id).mapM g.propertyAt = .ok properties ∧
      List.Forall₂ (FitsProperty g.Draws) (c.properties.map (Prod.mk (.structured id)))
        properties := by
  refine ⟨_, h.built.listed.mapM_propertyAt (.structured id), ?_⟩
  rw [← filter_propertyDeclarations hc]
  refine List.rel_filter ?_ h.properties
  rintro x p ⟨type, _, rfl⟩
  rfl

theorem entries_fit : ∃ properties,
    g.container.properties.mapM g.propertyAt = .ok properties ∧
      List.Forall₂ (FitsProperty g.Draws) (doc.container.properties.map (Prod.mk .container))
        properties := by
  refine ⟨_, h.built.listed.mapM_propertyAt .container, ?_⟩
  rw [← filter_propertyDeclarations_container]
  refine List.rel_filter ?_ h.properties
  rintro x p ⟨type, _, rfl⟩
  rfl

theorem ownMethods_fit (hc : doc.classes[id.index]? = some c) : ∃ methods,
    (g.ownMethods id).mapM g.methodAt = .ok methods ∧
      List.Forall₂ (FitsMethod g.Draws) (c.methods.map (Prod.mk id)) methods := by
  refine ⟨_, h.built.listed.mapM_methodAt id, ?_⟩
  have hfilter : doc.methodDeclarations.filter (·.1 = id) = c.methods.map (Prod.mk id) :=
    filter_declared Function.injective_id hc
  rw [← hfilter]
  refine List.rel_filter ?_ h.methods
  rintro x m ⟨parameters, returns, _, _, rfl⟩
  rfl

/-! ## What a graph says of its document -/

variable (plain : doc.PlainTypes)
include plain

theorem wellFormed (keys : ∀ c ∈ doc.classes, g.checkKey c = .ok ()) : doc.WellFormed where
  enums := h.nodup_enums plain.enums
  classes := h.nodup_classes plain.classes
  bases := by
    intro d hd text htext
    obtain ⟨id, hid⟩ := Option.isSome_iff_exists.1 (h.known d hd text htext)
    obtain ⟨b, hb, hrefers⟩ := (h.findClass_eq_some_iff plain.classes).1 hid
    exact ⟨b, List.mem_of_getElem? hb, hrefers⟩
  acyclic := by
    intro c hbelow
    obtain ⟨i, hi⟩ := List.mem_iff_getElem?.1 hbelow.mem.1
    have hderives := h.derives_of_below plain.classes (x := ⟨i⟩) (y := ⟨i⟩) hi hi hbelow
    exact h.built.forest.not_derives_self hderives
  propertyTypes := by
    intro x hx
    obtain ⟨p, _, type, htype, _⟩ := Fallible.exists_of_mem_left h.properties hx
    rw [h.draws_eq plain] at htype
    exact ⟨type, htype⟩
  methodTypes := by
    intro x hx text htext
    obtain ⟨m, _, parameters, returns, hparameters, hreturns, _⟩ :=
      Fallible.exists_of_mem_left h.methods hx
    rw [h.draws_eq plain] at hparameters hreturns
    rcases List.mem_append.1 htext with htext | htext
    · obtain ⟨e, he, rfl⟩ := List.mem_map.1 htext
      obtain ⟨p, _, type, htype, _⟩ := Fallible.exists_of_mem_left hparameters he
      exact ⟨type, htype⟩
    · cases hreturn : x.2.returns with
      | none => simp [hreturn] at htext
      | some r =>
        rw [hreturn] at hreturns htext
        obtain rfl : text = r.typeName := by simpa using htext
        cases hreturns with
        | some hfits =>
          obtain ⟨type, htype, _⟩ := hfits
          exact ⟨type, htype⟩
  references := by
    intro x hx href
    obtain ⟨id, t, htype, ht, hkind⟩ := h.references x hx href
    rw [h.draws_eq plain] at htype
    rw [h.heads_getElem?] at ht
    obtain ⟨c, hc, rfl⟩ := Option.map_eq_some_iff.1 ht
    exact ⟨id.index, c, htype, hc, hkind⟩
  ownNames := by
    intro c hc
    obtain ⟨i, hi⟩ := List.mem_iff_getElem?.1 hc
    have hown : doc.classes[(⟨i⟩ : ClassId).index]? = some c := hi
    obtain ⟨properties, hlook, hfit⟩ := h.ownProperties_fit hown
    rw [← map_name_of_fit hfit, Graph.map_name_of_mapM hlook]
    exact h.built.wellOwned.nodup_ownNames (.structured ⟨i⟩)
  inheritedNames := by
    intro d b hbelow p hp q hq hname
    obtain ⟨i, hi⟩ := List.mem_iff_getElem?.1 hbelow.mem.1
    obtain ⟨j, hj⟩ := List.mem_iff_getElem?.1 hbelow.mem.2
    have hderives : g.Derives ⟨i⟩ ⟨j⟩ := h.derives_of_below plain.classes hi hj hbelow
    obtain ⟨p', hp', hpname⟩ := h.exists_own_iff (x := ⟨i⟩).2 ⟨d, hi, p, hp, rfl⟩
    obtain ⟨q', hq', hqname⟩ := h.exists_own_iff (x := ⟨j⟩).2 ⟨b, hj, q, hq, rfl⟩
    have hw := h.built.wellOwned
    have hsame : q' = p' := hw.own_names (.inr hderives) hq' hp' (by rw [hpname, hqname, hname])
    -- one property has one owner, and no class is below itself
    subst hsame
    rw [hw.owner_unique hp' hq'] at hderives
    exact h.built.forest.not_derives_self hderives
  entryNames := by
    obtain ⟨properties, hlook, hfit⟩ := h.entries_fit
    rw [← map_name_of_fit hfit, Graph.map_name_of_mapM hlook]
    exact h.built.wellOwned.nodup_ownNames .container
  parameterNames := by
    intro x hx
    obtain ⟨m, hm, hfits⟩ := Fallible.exists_of_mem_left h.methods hx
    rw [← hfits.parameterNames]
    exact h.built.parameters_nodup m (Array.mem_toList_iff.1 hm)
  keys := by
    intro c hc
    obtain ⟨i, hi⟩ := List.mem_iff_getElem?.1 hc
    exact (h.checkKey_eq_ok_iff plain.classes (x := ⟨i⟩) hi).1 (keys c hc)

theorem depictsClass {t : StructuredType} (hc : doc.classes[id.index]? = some c)
    (ht : g.classAt id = .ok t) : doc.DepictsClass c t where
  head := by
    have hhead := h.heads_getElem? (i := id.index)
    rw [hc, Graph.heads_getElem?, (Graph.classAt_eq_ok_iff g).1 ht] at hhead
    exact Option.some.inj hhead
  base := by
    intro base
    rw [← Graph.baseOf_of_classAt ht]
    constructor
    · intro hbase
      obtain ⟨c', b, hc', hb, hextends⟩ :=
        h.extends_of_baseOf plain.classes List.prefix_rfl hbase
      rw [hc] at hc'
      cases hc'
      exact ⟨b, hb, hextends⟩
    · rintro ⟨b, hb, hextends⟩
      exact h.baseOf_of_extends plain.classes hc hb hextends

theorem depictsClasses : List.Forall₂ doc.DepictsClass doc.classes g.classes.toList := by
  have hlength : doc.classes.length = g.classes.toList.length := by
    simpa [Graph.heads] using (congrArg List.length h.heads).symm
  refine List.forall₂_iff_get.2 ⟨hlength, ?_⟩
  intro i hi ht
  have hclass : g.classAt ⟨i⟩ = .ok (g.classes.toList.get ⟨i, ht⟩) := by
    rw [Graph.classAt_eq_ok_iff, ← Array.getElem?_toList]
    exact List.getElem?_eq_getElem ht
  exact h.depictsClass plain (List.getElem?_eq_getElem hi) hclass

theorem depicts (wf : doc.WellFormed) : doc.Depicts g where
  namespaceName := h.namespaceName
  containerName := h.containerName
  enums := h.enums
  classes := h.depictsClasses plain
  properties := h.draws_eq plain ▸ h.properties
  methods := h.draws_eq plain ▸ h.methods
  ownProperties id c hc := h.draws_eq plain ▸ h.ownProperties_fit hc
  ownMethods id c hc := h.draws_eq plain ▸ h.ownMethods_fit hc
  entries := h.draws_eq plain ▸ h.entries_fit
  keys := by
    intro id c hc
    refine ⟨?_, (h.keyProperty_eq_ok_none_iff plain.classes hc).2⟩
    intro key hkey
    obtain ⟨d, hd, habove, hdeclares⟩ := hkey.exists_declaring (List.mem_of_getElem? hc)
    have hprop := (wf.keys d hd key hdeclares).of_above habove
    obtain ⟨ids, p, hids, hp, hname, hfound⟩ :=
      h.keyProperty_of_keyOf plain.classes hc hkey hprop
    obtain ⟨x, _, hown⟩ := (Graph.mem_allProperties_iff h.built.forest hids).1 hp
    obtain ⟨q, hq, _⟩ := h.built.wellOwned.own_known hown
    rw [Graph.nameOf_of_getElem? hq] at hname
    exact ⟨ids, p, q, hids, hp, (Graph.propertyAt_eq_ok_iff g).2 hq, hname, hfound⟩

end Finished

end Drawn

/-- A document whose type names are plain has a graph when it is well-formed and only then, and the
graph depicts it. -/
theorem hasGraph_iff_wellFormed (plain : doc.PlainTypes) :
    ((∃ g, Graph.ofDocument doc = .ok g) ↔ doc.WellFormed) ∧
      ∀ g, Graph.ofDocument doc = .ok g → doc.Depicts g := by
  have hyields := yields_ofDocument (P := doc.WellFormed) fun wf => ⟨plain, wf⟩
  have hsound : ∀ g, Graph.ofDocument doc = .ok g → doc.WellFormed ∧ doc.Depicts g := by
    intro g hg
    obtain ⟨hdrawn, hkeys⟩ := hyields.sound g hg
    have wf := hdrawn.wellFormed plain hkeys
    exact ⟨wf, hdrawn.depicts plain wf⟩
  refine ⟨⟨?_, hyields.total⟩, fun g hg => (hsound g hg).2⟩
  rintro ⟨g, hg⟩
  exact (hsound g hg).1

/-- Books and maps are items with the key of an item. A class and an enumeration are named behind
the namespace, and a base is named before it is declared. -/
def catalog : Document where
  namespaceName := "shop"
  container :=
    { name := "Shop"
      properties := [{ name := "items", typeName := "Collection( shop.Item )" }] }
  classes := [
    { name := "Book", base := some "shop.Item"
      properties := [
        { name := "genre", typeName := "shop.Genre" },
        { name := "maker", typeName := "Person", isReference := true }] },
    { name := "Item", isAbstract := true, key := some "id"
      properties := [{ name := "id", typeName := "Edm.String" }]
      methods := [
        { name := "copy", kind := .action
          parameters := [
            { name := "count", typeName := " Edm.Int32 " },
            { name := "notes", typeName := "Collection(Edm.String)" }]
          returns := some { typeName := "Item", isCollection := true } }] },
    { name := "Map", base := some "Item"
      properties := [{ name := "genre", typeName := "Genre" }] },
    { name := "Person", key := some "id"
      properties := [{ name := "id", typeName := "Edm.Guid" }] }]
  enums := [{ name := "Genre", members := ["Fiction", "Travel"] }]

theorem catalog_hasGraph :
    catalog.PlainTypes ∧ catalog.WellFormed ∧
      ∃ g, Graph.ofDocument catalog = .ok g ∧ catalog.Depicts g := by
  have plain : catalog.PlainTypes := ⟨by unfold IsPlain; decide, by unfold IsPlain; decide⟩
  obtain ⟨hiff, hdepicts⟩ := hasGraph_iff_wellFormed plain
  have hsome : (Graph.ofDocument catalog).toOption.isSome = true := by decide +kernel
  cases hg : Graph.ofDocument catalog with
  | error fault =>
    rw [hg] at hsome
    cases hsome
  | ok g => exact ⟨plain, hiff.1 ⟨g, hg⟩, g, rfl, hdepicts g hg⟩

end Document
end EdmCommands
