import EdmCommands.Proofs.Document.Inheritance

/-!
# EdmCommands.Proofs.Document.Construction

The construction of a graph from a document, stage by stage. After each stage the graph is drawn as
far as the stage goes, and on a well-formed document no step of a stage is refused.

* `Drawn.below_of_derives`, `Drawn.derives_of_below`: inheritance in the graph and in the document.
* `yields_ofDocument`: a result is drawn completely and its keys are in order, and a well-formed
  document has a result.
-/

namespace EdmCommands
namespace Document

open Schema (ClassId Owner Property Graph PropertyId)
open Fallible (Yields)

variable {doc : Document} {g g' : Graph} {enums : List EnumEntry} {classes linked : List ClassEntry}
  {members : List (Owner × PropertyEntry)} {operations : List (ClassId × MethodEntry)}
  {location : String} {id x : ClassId} {c d b : ClassEntry}

theorem getElem?_of_isPrefix {α : Type} {done all : List α} {a : α} (h : done ++ [a] <+: all) :
    all[done.length]? = some a := by
  obtain ⟨rest, rfl⟩ := h
  simp

namespace Drawn

/-! ## Steps on a well-formed document -/

theorem exists_linkBase (h : doc.Drawn linked [] operations g)
    (plain : ∀ c ∈ doc.classes, IsPlain c.name) (wf : doc.WellFormed)
    (front : linked ++ [c] <+: doc.classes) : ∃ g', g.linkBase c ⟨linked.length⟩ = .ok g' := by
  have hc := getElem?_of_isPrefix front
  cases hbase : c.base with
  | none => exact ⟨g, linkBase_eq_ok_iff.2 (.inl ⟨hbase, rfl⟩)⟩
  | some text =>
    obtain ⟨b, hb, hrefers⟩ := wf.bases c (List.mem_of_getElem? hc) text hbase
    obtain ⟨j, hj⟩ := List.mem_iff_getElem?.1 hb
    have hfound : g.findClass text = some ⟨j⟩ :=
      (h.findClass_eq_some_iff plain).2 ⟨b, hj, hrefers⟩
    have hextends : doc.Extends c b := ⟨List.mem_of_getElem? hc, hb, text, hbase, hrefers⟩
    have bare : ∀ x, g.ownProperties x = [] := by
      intro x
      refine List.eq_nil_iff_forall_not_mem.2 ?_
      intro p hp
      obtain ⟨q, hq, _⟩ := h.built.wellOwned.own_known hp
      obtain ⟨e, he, _⟩ := h.exists_declaration_of_own hp hq
      cases he
    have acyclic : ¬ g.Within ⟨j⟩ ⟨linked.length⟩ := by
      rintro (heq | hderives)
      · cases heq
        rw [hc] at hj
        cases hj
        exact wf.acyclic c (.single hextends)
      · obtain ⟨b', c', hb', hc', hbelow⟩ :=
          h.below_of_derives plain ((List.prefix_append _ _).trans front) hderives
        rw [hj] at hb'
        rw [hc] at hc'
        cases hb'
        cases hc'
        exact wf.acyclic c (.head hextends hbelow)
    obtain ⟨g', hg'⟩ := Graph.exists_setBase h.built.forest (h.isClass_iff.2 ⟨c, hc⟩)
      (h.isClass_iff.2 ⟨b, hj⟩) bare acyclic
    exact ⟨g', linkBase_eq_ok_iff.2 (.inr ⟨text, ⟨j⟩, hbase, hfound, hg'⟩)⟩

theorem exists_resolveProperty (h : doc.Drawn linked members operations g)
    (plain : doc.PlainTypes) (wf : doc.WellFormed) {x : Owner × PropertyEntry}
    (hx : x ∈ doc.propertyDeclarations) : ∃ p, g.resolveProperty location x.2 = .ok p := by
  obtain ⟨type, htype⟩ := wf.propertyTypes x hx
  rw [← h.draws_eq plain] at htype
  refine ⟨x.2.property type .container, Graph.resolveProperty_eq_ok_iff.2
    ⟨⟨type, htype, rfl⟩, ?_⟩⟩
  intro href
  obtain ⟨i, c, hclass, hc, hkind⟩ := wf.references x hx href
  rw [← h.draws_eq plain] at hclass
  have : type = .structured ⟨i⟩ := Option.some.inj (htype.symm.trans hclass)
  subst this
  refine Graph.isEntityType_eq_ok_true_iff.2 ⟨⟨i⟩, c.type, rfl, ?_, hkind⟩
  rw [h.heads_getElem?, hc]
  rfl

theorem exists_resolveMethod (h : doc.Drawn linked members operations g)
    (plain : doc.PlainTypes) (wf : doc.WellFormed) {x : ClassId × MethodEntry}
    (hx : x ∈ doc.methodDeclarations) : ∃ m, g.resolveMethod location x.2 = .ok m := by
  have htypes := wf.methodTypes x hx
  rw [← h.draws_eq plain, MethodEntry.typeNames, List.forall_mem_append, List.forall_mem_map]
    at htypes
  obtain ⟨hparameters, hreturns⟩ := htypes
  obtain ⟨parameters, hfit⟩ : ∃ parameters,
      List.Forall₂ (FitsParameter g.Draws) x.2.parameters parameters := by
    refine Fallible.exists_forall₂ ?_
    intro e he
    obtain ⟨type, htype⟩ := hparameters e he
    exact ⟨e.parameter type, type, htype, rfl⟩
  obtain ⟨returns, hreturn⟩ : ∃ returns,
      Option.Rel (FitsReturn g.Draws) x.2.returns returns := by
    cases hr : x.2.returns with
    | none => exact ⟨none, .none⟩
    | some r =>
      obtain ⟨type, htype⟩ := hreturns r.typeName (by simp [hr])
      exact ⟨some (r.result type), .some ⟨type, htype, rfl⟩⟩
  exact ⟨_, Graph.resolveMethod_eq_ok_iff.2 ⟨parameters, returns, hfit, hreturn, rfl⟩⟩

/-- A property is added whose name is not declared by a class above or below its owner. -/
theorem exists_addProperty (h : doc.Drawn linked members operations g) {p : Property}
    (known : g.IsClass id)
    (free : ∀ x e, g.Within id x ∨ g.Within x id → (.structured x, e) ∈ members → e.name ≠ p.name) :
    ∃ result, g.addProperty id p = .ok result := by
  refine Graph.exists_addProperty h.built.forest known ?_
  intro x hrelated q hq r hr
  obtain ⟨e, he, hname⟩ := h.exists_declaration_of_own hq hr
  rw [← hname]
  exact free x e hrelated he

theorem exists_addContainerProperty (h : doc.Drawn linked members operations g) {p : Property}
    (free : ∀ e, (.container, e) ∈ members → e.name ≠ p.name) :
    ∃ result, g.addContainerProperty p = .ok result := by
  refine Graph.exists_addContainerProperty ?_
  intro q hq r hr
  obtain ⟨r', hr', howner⟩ := h.built.wellOwned.entry_known hq
  rw [hr] at hr'
  cases hr'
  obtain ⟨⟨owner, e⟩, hx, hxowner, hxname, _⟩ :=
    h.exists_declaration (Array.mem_toList_iff.2 (Array.mem_of_getElem? hr))
  rw [howner] at hxowner
  cases hxowner
  rw [← hxname]
  exact free e hx

end Drawn

/-! ## Names that are used once -/

/-- In a list without repeats what stands before an element has another name. -/
theorem ne_of_front {α : Type} {name : α → String} {done all : List α} {a a' : α}
    (nodup : (all.map name).Nodup) (front : done ++ [a] <+: all) (h : a' ∈ done) :
    name a' ≠ name a := by
  have hnodup : ((done ++ [a]).map name).Nodup := nodup.sublist (front.sublist.map name)
  rw [List.map_append, List.nodup_append] at hnodup
  exact hnodup.2.2 _ (List.mem_map_of_mem h) _ (by simp)

theorem HasTypes.exists_addEnum (h : HasTypes doc enums [] g)
    (plain : ∀ e ∈ doc.enums, IsPlain e.name) (nodup : (doc.enums.map (·.name)).Nodup)
    {e : EnumEntry} (front : enums ++ [e] <+: doc.enums) :
    ∃ result, g.addEnum e.type = .ok result := by
  have he : IsPlain e.name := plain e (front.subset (by simp))
  refine ⟨_, Graph.addEnum_eq_ok_iff.2 ⟨⟨?_, ?_⟩, rfl⟩⟩
  · exact (h.findClass_eq_none_iff (by simp)).2 (by simp)
  · refine Graph.findEnum_eq_none_iff.2 ?_
    intro t ht
    rw [← Array.mem_toList_iff, h.enums] at ht
    obtain ⟨e', he', rfl⟩ := List.mem_map.1 ht
    change e'.name ≠ g.simpleName e.name
    rw [h.simpleName_eq he]
    exact ne_of_front nodup front he'

theorem HasTypes.exists_addClass (h : HasTypes doc enums classes g)
    (plain : ∀ c ∈ doc.classes, IsPlain c.name) (nodup : (doc.classes.map (·.name)).Nodup)
    (front : classes ++ [c] <+: doc.classes) : ∃ result, g.addClass c.type = .ok result := by
  have hc : IsPlain c.name := plain c (front.subset (by simp))
  have hplain : ∀ c' ∈ classes, IsPlain c'.name :=
    fun c' hc' => plain c' (front.subset (by simp [hc']))
  refine ⟨_, Graph.addClass_eq_ok_iff.2 ⟨?_, rfl⟩⟩
  refine (h.findClass_eq_none_iff hplain).2 ?_
  intro c' hc' hrefers
  have hname := (h.simpleName_eq_iff (hplain c' hc')).2 hrefers
  rw [ClassEntry.type, h.simpleName_eq hc] at hname
  exact ne_of_front nodup front hc' hname

/-- A property of a class entry clashes with none that is declared before it. -/
theorem Drawn.free_of_front {done : List ClassEntry} {ps : List PropertyEntry} {p e : PropertyEntry}
    (h : doc.Drawn doc.classes members operations g) (plain : ∀ c ∈ doc.classes, IsPlain c.name)
    (wf : doc.WellFormed) (front : done ++ [c] <+: doc.classes) (hp : ps ++ [p] <+: c.properties)
    (hrelated : g.Within ⟨done.length⟩ x ∨ g.Within x ⟨done.length⟩)
    (he : (Owner.structured x, e) ∈ declared Owner.structured (·.properties) done ++
      ps.map (Prod.mk (Owner.structured ⟨done.length⟩))) : e.name ≠ p.name := by
  have hc := getElem?_of_isPrefix front
  have hpmem : p ∈ c.properties := hp.subset (by simp)
  rcases List.mem_append.1 he with he | he
  · obtain ⟨i, c', hc', e', he', heq⟩ := mem_declared_iff.1 he
    cases heq
    have hlt := (List.getElem?_eq_some_iff.1 hc').1
    have hc'' : doc.classes[i]? = some c' := by
      obtain ⟨rest, heq⟩ := front
      rw [← heq, List.append_assoc, List.getElem?_append_left hlt]
      exact hc'
    -- the two classes differ, so one is below the other
    rcases hrelated with (heq | hderives) | (heq | hderives)
    · cases heq
      exact absurd hlt (Nat.lt_irrefl _)
    · obtain ⟨d, b, hd, hb, hbelow⟩ := h.below_of_derives plain List.prefix_rfl hderives
      rw [hc] at hd
      rw [hc''] at hb
      cases hd
      cases hb
      exact (wf.inheritedNames _ _ hbelow p hpmem e he').symm
    · cases heq
      exact absurd hlt (Nat.lt_irrefl _)
    · obtain ⟨d, b, hd, hb, hbelow⟩ := h.below_of_derives plain List.prefix_rfl hderives
      rw [hc''] at hd
      rw [hc] at hb
      cases hd
      cases hb
      exact wf.inheritedNames _ _ hbelow e he' p hpmem
  · obtain ⟨e', he', heq⟩ := List.mem_map.1 he
    cases heq
    exact ne_of_front (wf.ownNames c (List.mem_of_getElem? hc)) hp he'

/-! ## Stages -/

section Stages

variable {P : Prop} (accepted : P → doc.PlainTypes ∧ doc.WellFormed)

theorem yields_forClasses {I : List ClassEntry → Graph → Prop}
    {step : Graph → ClassEntry → ClassId → Except Fault Graph}
    (hstep : ∀ done c g, done ++ [c] <+: doc.classes → I done g →
      Yields P (step g c ⟨done.length⟩) (I (done ++ [c])))
    (h : I [] g) : Yields P (Graph.forClasses step doc.classes g) (I doc.classes) := by
  have hfold : Yields P (Graph.forClasses step doc.classes g)
      (I (doc.classes.zipIdx.map Prod.fst)) := by
    refine Yields.foldlM (I := fun done g => I (done.map Prod.fst) g) ?_ h
    rintro done ⟨c, i⟩ g front hdone
    have hi := getElem?_of_isPrefix front
    rw [List.getElem?_zipIdx, Option.map_eq_some_iff] at hi
    obtain ⟨_, _, heq⟩ := hi
    cases heq
    have front' := front.map Prod.fst
    rw [List.zipIdx_map_fst, List.map_append] at front'
    have hlength : 0 + done.length = (done.map Prod.fst).length := by simp
    rw [List.map_append, hlength]
    exact hstep _ _ g front' hdone
  rwa [List.zipIdx_map_fst] at hfold

include accepted

theorem yields_addEnums :
    Yields P (doc.enums.foldlM
      (fun g e => do
        let (g, _) ← g.addEnum { name := e.name, members := e.members, isFlags := e.isFlags }
        return g)
      (Graph.empty doc.namespaceName doc.container.name))
      fun g => HasTypes doc doc.enums [] g ∧ Bare g := by
  refine Yields.foldlM (I := fun done g => HasTypes doc done [] g ∧ Bare g) ?_
    ⟨hasTypes_empty doc, bare_empty _ _⟩
  rintro done e g front ⟨htypes, hbare⟩
  have hadd : Yields P (g.addEnum e.type) fun result =>
      HasTypes doc (done ++ [e]) [] result.1 ∧ Bare result.1 := by
    refine ⟨?_, ?_⟩
    · rintro ⟨g', new⟩ h
      exact ⟨htypes.addEnum h, hbare.addEnum h⟩
    · intro hP
      obtain ⟨plain, wf⟩ := accepted hP
      exact htypes.exists_addEnum plain.enums wf.enums front
  exact hadd.bind fun result h => .ok h

theorem yields_declareClasses (h : HasTypes doc doc.enums [] g) (bare : Bare g) :
    Yields P (doc.classes.foldlM Graph.declareClass g)
      fun g => HasTypes doc doc.enums doc.classes g ∧ Bare g := by
  refine Yields.foldlM (I := fun done g => HasTypes doc doc.enums done g ∧ Bare g) ?_ ⟨h, bare⟩
  rintro done c g front ⟨htypes, hbare⟩
  have hadd : Yields P (g.addClass c.type) fun result =>
      HasTypes doc doc.enums (done ++ [c]) result.1 ∧ Bare result.1 := by
    refine ⟨?_, ?_⟩
    · rintro ⟨g', new⟩ h
      exact ⟨htypes.addClass h, hbare.addClass c.isFresh_type h⟩
    · intro hP
      obtain ⟨plain, wf⟩ := accepted hP
      exact htypes.exists_addClass plain.classes wf.classes front
  exact hadd.map fun result h => h

theorem yields_linkBases (h : HasTypes doc doc.enums doc.classes g) (bare : Bare g) :
    Yields P (Graph.forClasses Graph.linkBase doc.classes g) (doc.Drawn doc.classes [] []) := by
  refine yields_forClasses (I := fun done g => doc.Drawn done [] [] g) ?_ (h.drawn bare)
  intro done c g front hdone
  refine ⟨fun g' hlink => hdone.linkBase hlink, ?_⟩
  intro hP
  obtain ⟨plain, wf⟩ := accepted hP
  exact hdone.exists_linkBase plain.classes wf front

/-- Adding one declared property: it has a type, and then its name has to be free. -/
theorem Drawn.yields_declare (h : doc.Drawn linked members operations g)
    {x : Owner × PropertyEntry} (hx : x ∈ doc.propertyDeclarations)
    {add : Property → Except Fault (Graph × PropertyId)}
    (sound : ∀ p result, FitsProperty g.Draws (.container, x.2) p →
      (x.2.isReference = true → g.isEntityType p.type = .ok true) → add p = .ok result →
      doc.Drawn linked (members ++ [x]) operations result.1)
    (total : P → ∀ p : Property, p.name = x.2.name → ∃ result, add p = .ok result) :
    Yields P
      (do
        let property ← g.resolveProperty location x.2
        return (← add property).1)
      (doc.Drawn linked (members ++ [x]) operations) := by
  have hresolve : Yields P (g.resolveProperty location x.2) fun p =>
      FitsProperty g.Draws (.container, x.2) p ∧
        (x.2.isReference = true → g.isEntityType p.type = .ok true) := by
    refine ⟨fun p hp => Graph.resolveProperty_eq_ok_iff.1 hp, ?_⟩
    intro hP
    obtain ⟨plain, wf⟩ := accepted hP
    exact h.exists_resolveProperty plain wf hx
  refine hresolve.bind ?_
  rintro p ⟨hfits, hreference⟩
  have hadd : Yields P (add p) fun result =>
      doc.Drawn linked (members ++ [x]) operations result.1 := by
    refine ⟨fun result h => sound p result hfits hreference h, ?_⟩
    intro hP
    refine total hP p ?_
    obtain ⟨type, _, rfl⟩ := hfits
    rfl
  exact hadd.bind fun result h => .ok h

theorem yields_declareProperties (h : doc.Drawn doc.classes [] [] g) :
    Yields P (Graph.forClasses Graph.declareProperties doc.classes g)
      (doc.Drawn doc.classes (declared Owner.structured (·.properties) doc.classes) []) := by
  refine yields_forClasses (I := fun done g =>
    doc.Drawn doc.classes (declared Owner.structured (·.properties) done) [] g) ?_ h
  intro done c g front hdone
  have hc := getElem?_of_isPrefix front
  rw [declared_concat]
  -- within a class the properties before the next one are there too
  refine Yields.foldlM (I := fun ps g => doc.Drawn doc.classes
    (declared Owner.structured (·.properties) done ++
      ps.map (Prod.mk (Owner.structured ⟨done.length⟩))) [] g) ?_ (by simpa using hdone)
  intro ps p g hp hdrawn
  rw [List.map_append, ← List.append_assoc]
  have hmem : (Owner.structured ⟨done.length⟩, p) ∈ doc.propertyDeclarations :=
    mem_propertyDeclarations_iff.2 ⟨c, hc, hp.subset (by simp)⟩
  refine hdrawn.yields_declare accepted hmem ?_ ?_
  · rintro q ⟨g', new⟩ hfits hreference hadd
    exact hdrawn.addProperty hfits hreference hadd
  · intro hP q hname
    obtain ⟨plain, wf⟩ := accepted hP
    refine hdrawn.exists_addProperty (hdrawn.isClass_iff.2 ⟨c, hc⟩) ?_
    intro x e hrelated he
    rw [hname]
    exact hdrawn.free_of_front plain.classes wf front hp hrelated he

theorem yields_declareContainer
    (h : doc.Drawn doc.classes (declared Owner.structured (·.properties) doc.classes) [] g) :
    Yields P (g.declareContainer doc.container.properties)
      (doc.Drawn doc.classes doc.propertyDeclarations []) := by
  refine Yields.foldlM (I := fun ps g => doc.Drawn doc.classes
    (declared Owner.structured (·.properties) doc.classes ++ ps.map (Prod.mk Owner.container)) [] g)
    ?_ (by simpa using h)
  intro ps p g hp hdrawn
  rw [List.map_append, ← List.append_assoc]
  have hmem : (Owner.container, p) ∈ doc.propertyDeclarations :=
    List.mem_append_right _ (List.mem_map_of_mem (hp.subset (by simp)))
  refine hdrawn.yields_declare accepted hmem ?_ ?_
  · rintro q ⟨g', new⟩ hfits hreference hadd
    exact hdrawn.addContainerProperty hfits hreference hadd
  · intro hP q hname
    obtain ⟨_, wf⟩ := accepted hP
    refine hdrawn.exists_addContainerProperty ?_
    intro e he
    rw [hname]
    rcases List.mem_append.1 he with he | he
    · obtain ⟨_, _, _, _, _, heq⟩ := mem_declared_iff.1 he
      cases heq
    · obtain ⟨e', he', heq⟩ := List.mem_map.1 he
      cases heq
      exact ne_of_front wf.entryNames hp he'

theorem yields_declareMethods (h : doc.Drawn doc.classes doc.propertyDeclarations [] g) :
    Yields P (Graph.forClasses Graph.declareMethods doc.classes g)
      (doc.Drawn doc.classes doc.propertyDeclarations doc.methodDeclarations) := by
  refine yields_forClasses (I := fun done g =>
    doc.Drawn doc.classes doc.propertyDeclarations (declared id (·.methods) done) g) ?_ h
  intro done c g front hdone
  have hc := getElem?_of_isPrefix front
  rw [declared_concat]
  refine Yields.foldlM (I := fun ms g => doc.Drawn doc.classes doc.propertyDeclarations
    (declared id (·.methods) done ++ ms.map (Prod.mk ⟨done.length⟩)) g) ?_ (by simpa using hdone)
  intro ms m g hm hdrawn
  rw [List.map_append, ← List.append_assoc]
  have hmem : ((⟨done.length⟩ : ClassId), m) ∈ doc.methodDeclarations :=
    mem_declared_iff.2 ⟨_, c, hc, m, hm.subset (by simp), rfl⟩
  have hresolve : Yields P (g.resolveMethod (c.name ++ "." ++ m.name) m)
      (FitsMethod g.Draws (⟨0⟩, m)) := by
    refine ⟨fun q hq => Graph.resolveMethod_eq_ok_iff.1 hq, ?_⟩
    intro hP
    obtain ⟨plain, wf⟩ := accepted hP
    exact hdrawn.exists_resolveMethod plain wf hmem
  refine hresolve.bind ?_
  intro q hfits
  have hadd : Yields P (g.addMethod ⟨done.length⟩ q) fun result =>
      doc.Drawn doc.classes doc.propertyDeclarations
        (declared id (·.methods) done ++ ms.map (Prod.mk ⟨done.length⟩) ++
          [m].map (Prod.mk ⟨done.length⟩)) result.1 := by
    refine ⟨?_, ?_⟩
    · rintro ⟨g', new⟩ h
      exact hdrawn.addMethod hfits h
    · intro hP
      obtain ⟨_, wf⟩ := accepted hP
      refine Graph.exists_addMethod (hdrawn.isClass_iff.2 ⟨c, hc⟩) ?_
      have distinct := wf.parameterNames _ hmem
      rw [hfits.parameterNames]
      exact distinct
  exact hadd.bind fun result h => .ok h

theorem yields_ofDocument : Yields P (Graph.ofDocument doc) fun g =>
    doc.Drawn doc.classes doc.propertyDeclarations doc.methodDeclarations g ∧
      ∀ c ∈ doc.classes, g.checkKey c = .ok () := by
  unfold Graph.ofDocument
  refine (yields_addEnums accepted).bind fun g h => ?_
  refine (yields_declareClasses accepted h.1 h.2).bind fun g h => ?_
  refine (yields_linkBases accepted h.1 h.2).bind fun g h => ?_
  refine (yields_declareProperties accepted h).bind fun g h => ?_
  refine (yields_declareContainer accepted h).bind fun g h => ?_
  refine (yields_declareMethods accepted h).bind fun g h => ?_
  have hkeys : Yields P (doc.classes.forM g.checkKey) fun _ =>
      ∀ c ∈ doc.classes, g.checkKey c = .ok () := by
    refine Yields.forM ?_
    intro hP c hc
    obtain ⟨plain, wf⟩ := accepted hP
    obtain ⟨i, hi⟩ := List.mem_iff_getElem?.1 hc
    exact (h.checkKey_eq_ok_iff plain.classes (x := ⟨i⟩) hi).2 (wf.keys c hc)
  exact hkeys.bind fun _ hk => .ok ⟨h, hk⟩

end Stages

/-- The graph of a document is made with the operations of the schema graph. -/
theorem built_of_ofDocument {doc : Document} {g : Graph} (h : Graph.ofDocument doc = .ok g) :
    g.Built :=
  ((yields_ofDocument (P := False) False.elim).sound g h).1.built

end Document
end EdmCommands
