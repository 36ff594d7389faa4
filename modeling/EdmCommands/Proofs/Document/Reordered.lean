import EdmCommands.Proofs.Document.Construction
import EdmCommands.Proofs.Schema.Declaring

/-!
# EdmCommands.Proofs.Document.Reordered

Documents that declare the same in another order. The entry points may stand in any order, and
within a class the properties whose values are entities may change places with each other; all
other properties stay where they are.

* `Reordered`: the second document is such a reordering of the first.
* `forClasses_declareProperties_eq_ok_iff`, `declareContainer_eq_ok_iff`: the stages that add
  properties, as runs of properties.
* `Reordered.exists_ofDocument`: the graph of a reordered document is that of the first one with the
  properties at other places.
-/

namespace EdmCommands

namespace Document

open Schema (Owner Property Graph PropertyId)

/-- A type name without the namespace of the document. -/
def simpleName (doc : Document) (name : String) : String :=
  ((Text.stripStart? doc.namespaceName name).bind (Text.stripStart? ".")).getD name

/-- Whether the values of a property are entities: its type names a class, the first one of the
name, and that is a class of entities. -/
def isEntityTyped (doc : Document) (e : PropertyEntry) : Bool :=
  let name := (Edm.TypeName.ofText e.typeName).element
  !Edm.isEdmName name &&
    (doc.classes.find? (·.name == doc.simpleName name)).any (·.kind == .entity)

/-- The class has the same properties, and those that changed places have entities as values. -/
structure ReorderedClass (doc : Document) (c c' : ClassEntry) : Prop where
  rest : c' = { c with properties := c'.properties }
  perm : c.properties.Perm c'.properties
  places : List.Forall₂
    (fun e e' => e' = e ∨ doc.isEntityTyped e = true ∧ doc.isEntityTyped e' = true)
    c.properties c'.properties

/-- The second document is the first one with the entry points in another order, and within each
class the properties that have entities as values. -/
structure Reordered (doc doc' : Document) : Prop where
  namespaceName : doc'.namespaceName = doc.namespaceName
  containerName : doc'.container.name = doc.container.name
  enums : doc'.enums = doc.enums
  classes : List.Forall₂ doc.ReorderedClass doc.classes doc'.classes
  entries : doc.container.properties.Perm doc'.container.properties

end Document

namespace Schema
namespace Graph

open Document (PropertyEntry ClassEntry FitsProperty)

/-- The property that an entry is resolved to, for its owner. -/
def Resolves (g : Graph) (x : Owner × PropertyEntry) (p : Property) : Prop :=
  FitsProperty g.Draws x p ∧ (x.2.isReference = true → g.isEntityType p.type = .ok true)

variable {g g' : Graph} {p : Property} {ps : List Property} {location : String}
  {x : Owner × PropertyEntry}

theorem Resolves.owner (h : g.Resolves x p) : p.owner = x.1 := by
  obtain ⟨⟨type, _, rfl⟩, _⟩ := h
  rfl

theorem Resolves.name (h : g.Resolves x p) : p.name = x.2.name := by
  obtain ⟨⟨type, _, rfl⟩, _⟩ := h
  rfl

theorem Resolves.unique {q : Property} (hp : g.Resolves x p) (hq : g.Resolves x q) : q = p := by
  obtain ⟨⟨type, htype, rfl⟩, _⟩ := hp
  obtain ⟨⟨type', htype', rfl⟩, _⟩ := hq
  rw [Option.some.inj (htype'.symm.trans htype)]

theorem SameTypes.resolves_eq (same : SameTypes g g') : g'.Resolves = g.Resolves := by
  funext x p
  simp only [Resolves, same.draws_eq, isEntityType_eq_ok_true_iff, same.heads]

theorem SameTypes.trans {g'' : Graph} (h : SameTypes g g') (h' : SameTypes g' g'') :
    SameTypes g g'' :=
  (SameTypes.congr_left ⟨h.namespaceName.symm, h.containerName.symm, h.enums.symm,
    h.heads.symm⟩).1 h'

theorem SameTypes.declare (h : g.declare p = .ok g') : SameTypes g g' := by
  unfold Graph.declare at h
  split at h
  · obtain ⟨⟨_, _⟩, hadd, rfl⟩ := Fallible.map_eq_ok_iff.1 h
    exact .addContainerProperty hadd
  · obtain ⟨⟨_, _⟩, hadd, rfl⟩ := Fallible.map_eq_ok_iff.1 h
    exact .addProperty hadd

theorem SameTypes.run (h : ps.foldlM Graph.declare g = .ok g') : SameTypes g g' := by
  induction ps generalizing g with
  | nil =>
    cases h
    exact ⟨rfl, rfl, rfl, rfl⟩
  | cons p rest ih =>
    rw [List.foldlM_cons] at h
    obtain ⟨g₁, hp, h⟩ := Fallible.bind_eq_ok_iff.1 h
    exact (SameTypes.declare hp).trans (ih h)

/-! ## Stages as runs of properties -/

/-- An entry is resolved and then added, by an addition that sets the owner itself. -/
theorem resolve_add_eq_ok_iff {add : Property → Except Fault (Graph × PropertyId)} {owner : Owner}
    {e : PropertyEntry}
    (hadd : ∀ type, (add (e.property type .container)).map (·.1) =
      g.declare (e.property type owner)) :
    (do
      let property ← g.resolveProperty location e
      return (← add property).1) = .ok g' ↔
      ∃ p, g.Resolves (owner, e) p ∧ g.declare p = .ok g' := by
  simp only [Fallible.bind_eq_ok_iff, resolveProperty_eq_ok_iff]
  constructor
  · rintro ⟨_, ⟨⟨type, htype, rfl⟩, href⟩, result, hresult, heq⟩
    cases heq
    refine ⟨e.property type owner, ⟨⟨type, htype, rfl⟩, href⟩, ?_⟩
    rw [← hadd]
    exact Fallible.map_eq_ok_iff.2 ⟨result, hresult, rfl⟩
  · rintro ⟨_, ⟨⟨type, htype, rfl⟩, href⟩, hdeclare⟩
    rw [← hadd] at hdeclare
    obtain ⟨result, hresult, rfl⟩ := Fallible.map_eq_ok_iff.1 hdeclare
    exact ⟨e.property type .container, ⟨⟨type, htype, rfl⟩, href⟩, result, hresult, rfl⟩

/-- Steps that resolve an entry and add the property make a run of properties. -/
theorem foldlM_eq_ok_iff {α : Type} {step : Graph → α → Except Fault Graph}
    {declaration : α → Owner × PropertyEntry}
    (hstep : ∀ g a g', step g a = .ok g' ↔
      ∃ p, g.Resolves (declaration a) p ∧ g.declare p = .ok g') {l : List α} :
    l.foldlM step g = .ok g' ↔
      ∃ ps, List.Forall₂ g.Resolves (l.map declaration) ps ∧ ps.foldlM declare g = .ok g' := by
  induction l generalizing g with
  | nil => simp
  | cons a rest ih =>
    simp only [List.foldlM_cons, Fallible.bind_eq_ok_iff, hstep, ih, List.map_cons,
      List.forall₂_cons_left_iff]
    constructor
    · rintro ⟨g₁, ⟨p, hp, hdeclare⟩, ps, hps, hrun⟩
      rw [(SameTypes.declare hdeclare).resolves_eq] at hps
      refine ⟨p :: ps, ⟨p, ps, hp, hps, rfl⟩, ?_⟩
      rw [List.foldlM_cons, hdeclare]
      exact hrun
    · rintro ⟨_, ⟨p, ps, hp, hps, rfl⟩, hrun⟩
      rw [List.foldlM_cons] at hrun
      obtain ⟨g₁, hdeclare, hrun⟩ := Fallible.bind_eq_ok_iff.1 hrun
      refine ⟨g₁, ⟨p, hp, hdeclare⟩, ps, ?_, hrun⟩
      rwa [(SameTypes.declare hdeclare).resolves_eq]

theorem declareContainer_eq_ok_iff {entries : List PropertyEntry} :
    g.declareContainer entries = .ok g' ↔
      ∃ ps, List.Forall₂ g.Resolves (entries.map (Prod.mk .container)) ps ∧
        ps.foldlM declare g = .ok g' := by
  have hstep : ∀ (g : Graph) (e : PropertyEntry) g',
      (do
        let property ← g.resolveProperty (g.container.name ++ "." ++ e.name) e
        return (← g.addContainerProperty property).1) = .ok g' ↔
        ∃ p, g.Resolves (.container, e) p ∧ g.declare p = .ok g' :=
    fun _ _ _ => resolve_add_eq_ok_iff fun _ => rfl
  exact foldlM_eq_ok_iff hstep

theorem foldlM_flatMap {α β : Type} (parts : α → List β) (step : Graph → β → Except Fault Graph)
    (l : List α) : (l.flatMap parts).foldlM step g =
      l.foldlM (fun g a => (parts a).foldlM step g) g := by
  induction l generalizing g with
  | nil => rfl
  | cons a rest ih => simp only [List.flatMap_cons, List.foldlM_append, List.foldlM_cons, ih]

theorem forClasses_declareProperties_eq_ok_iff {entries : List ClassEntry} :
    forClasses declareProperties entries g = .ok g' ↔
      ∃ ps, List.Forall₂ g.Resolves
          (Document.declared Owner.structured (·.properties) entries) ps ∧
        ps.foldlM declare g = .ok g' := by
  let parts := fun x : ClassEntry × Nat => x.1.properties.map fun e => (x, e)
  have hflat : forClasses declareProperties entries g =
      (entries.zipIdx.flatMap parts).foldlM (fun g x => do
        let property ← g.resolveProperty (x.1.1.name ++ "." ++ x.2.name) x.2
        return (← g.addProperty ⟨x.1.2⟩ property).1) g := by
    rw [foldlM_flatMap]
    simp only [parts, List.foldlM_map]
    rfl
  have hdeclared : Document.declared Owner.structured (·.properties) entries =
      (entries.zipIdx.flatMap parts).map fun x => (Owner.structured ⟨x.1.2⟩, x.2) := by
    simp only [Document.declared, parts, List.map_flatMap, List.map_map]
    rfl
  have hstep : ∀ (g : Graph) (x : (ClassEntry × Nat) × PropertyEntry) g',
      (do
        let property ← g.resolveProperty (x.1.1.name ++ "." ++ x.2.name) x.2
        return (← g.addProperty ⟨x.1.2⟩ property).1) = .ok g' ↔
        ∃ p, g.Resolves (Owner.structured ⟨x.1.2⟩, x.2) p ∧ g.declare p = .ok g' :=
    fun _ _ _ => resolve_add_eq_ok_iff fun _ => rfl
  rw [hflat, hdeclared]
  exact foldlM_eq_ok_iff hstep

end Graph
end Schema

namespace Document

open Schema (ClassId Owner Property Graph PropertyId TypeRef)
open Schema.Graph (SameTypes)

variable {doc doc' : Document} {g g' : Graph} {e : PropertyEntry} {type : TypeRef}

/-! ## What the documents have in common -/

/-- The class without its properties. -/
def ClassEntry.bare (c : ClassEntry) : ClassEntry :=
  { c with properties := [] }

theorem forClasses_bare {step : Graph → ClassEntry → ClassId → Except Fault Graph}
    (same : ∀ g c id, step g c.bare id = step g c id) (entries : List ClassEntry) :
    Graph.forClasses step (entries.map ClassEntry.bare) g = Graph.forClasses step entries g := by
  unfold Graph.forClasses
  rw [List.zipIdx_map, List.foldlM_map]
  simp only [Prod.map_fst, Prod.map_snd, same, id_eq]

theorem forall₂_zipIdx {α β : Type} {R : α → β → Prop} {l : List α} {l' : List β}
    (h : List.Forall₂ R l l') (n : Nat) :
    List.Forall₂ (fun x y => R x.1 y.1 ∧ y.2 = x.2) (l.zipIdx n) (l'.zipIdx n) := by
  induction h generalizing n with
  | nil => exact .nil
  | cons hab _ ih => exact .cons ⟨hab, rfl⟩ (ih (n + 1))

namespace Reordered

variable (h : doc.Reordered doc')
include h

theorem map_bare : doc'.classes.map ClassEntry.bare = doc.classes.map ClassEntry.bare := by
  refine Fallible.map_eq_map_of_forall₂ h.classes fun c c' hc => ?_
  rw [hc.rest]
  rfl

theorem forClasses_eq {step : Graph → ClassEntry → ClassId → Except Fault Graph}
    (same : ∀ g c id, step g c.bare id = step g c id) :
    Graph.forClasses step doc'.classes g = Graph.forClasses step doc.classes g := by
  rw [← forClasses_bare same, h.map_bare, forClasses_bare same]

theorem declareClasses_eq :
    doc'.classes.foldlM Graph.declareClass g = doc.classes.foldlM Graph.declareClass g := by
  have same : ∀ entries : List ClassEntry,
      (entries.map ClassEntry.bare).foldlM Graph.declareClass g =
        entries.foldlM Graph.declareClass g := by
    intro entries
    rw [List.foldlM_map]
    rfl
  rw [← same, h.map_bare, same]

theorem perm_declared : (declared Owner.structured (·.properties) doc.classes).Perm
    (declared Owner.structured (·.properties) doc'.classes) := by
  have hzip := forall₂_zipIdx h.classes 0
  unfold declared
  generalize doc.classes.zipIdx = entries at hzip ⊢
  generalize doc'.classes.zipIdx = entries' at hzip ⊢
  induction hzip with
  | nil => exact .nil
  | @cons x y _ _ hxy _ ih =>
    obtain ⟨c, i⟩ := x
    obtain ⟨c', _⟩ := y
    obtain ⟨hclass, rfl⟩ := hxy
    exact (hclass.perm.map _).append ih

theorem places_declared : List.Forall₂
    (fun x x' => x'.1 = x.1 ∧ (x' = x ∨ doc.isEntityTyped x.2 = true))
    (declared Owner.structured (·.properties) doc.classes)
    (declared Owner.structured (·.properties) doc'.classes) := by
  refine List.rel_flatMap (forall₂_zipIdx h.classes 0) ?_
  rintro ⟨c, i⟩ ⟨c', _⟩ ⟨hclass, rfl⟩
  rw [List.forall₂_map_left_iff, List.forall₂_map_right_iff]
  refine hclass.places.imp ?_
  rintro e e' (rfl | ⟨hentity, _⟩)
  · exact ⟨rfl, .inl rfl⟩
  · exact ⟨rfl, .inr hentity⟩

end Reordered

/-! ## Properties whose values are entities -/

/-- The type is a class of entities of the document. -/
def IsEntityType (doc : Document) (type : TypeRef) : Prop :=
  ∃ id c, type = .structured id ∧ doc.classes[id.index]? = some c ∧ c.kind = .entity

theorem HasTypes.isEntityType_of_draws (h : HasTypes doc doc.enums doc.classes g)
    (he : doc.isEntityTyped e = true) (hdraws : g.Draws e.typeName type) :
    doc.IsEntityType type := by
  unfold isEntityTyped at he
  unfold Graph.Draws at hdraws
  generalize (Edm.TypeName.ofText e.typeName).element = name at he hdraws
  rw [Bool.and_eq_true, Bool.not_eq_true', Option.any_eq_true] at he
  obtain ⟨hedm, c, hfind, hkind⟩ := he
  obtain ⟨hname, i, hlt, hc, hfirst⟩ := List.find?_eq_some_iff_getElem.1 hfind
  have hsimple : g.simpleName name = doc.simpleName name := by
    rw [Graph.simpleName, simpleName, h.namespaceName]
  have hfound : g.findClass name = some ⟨i⟩ := by
    refine Graph.findClass_eq_some_iff.2 ⟨⟨c.type, ?_, ?_⟩, ?_⟩
    · rw [h.heads_getElem?, List.getElem?_eq_getElem hlt, hc]
      rfl
    · rw [hsimple]
      exact beq_iff_eq.1 hname
    · intro j hj d hd
      rw [h.heads_getElem?] at hd
      obtain ⟨c', hc', rfl⟩ := Option.map_eq_some_iff.1 hd
      obtain ⟨hlt', rfl⟩ := List.getElem?_eq_some_iff.1 hc'
      have hne : (doc.classes[j].name == doc.simpleName name) = false := by
        simpa using hfirst j hj
      rw [hsimple]
      exact beq_eq_false_iff_ne.1 hne
  rw [Graph.typeNamed?, hedm, if_neg Bool.false_ne_true, hfound] at hdraws
  refine ⟨⟨i⟩, c, (Option.some.inj hdraws).symm, ?_, by simpa using hkind⟩
  rw [List.getElem?_eq_getElem hlt, hc]

theorem HasTypes.isNavigation (h : HasTypes doc doc.enums doc.classes g) {p : Property}
    {id : PropertyId} (hp : g.properties[id.index]? = some p) (hentity : doc.IsEntityType p.type) :
    g.isNavigation id = true := by
  obtain ⟨x, c, htype, hc, hkind⟩ := hentity
  have hhead := h.heads_getElem? (i := x.index)
  rw [hc, Graph.heads_getElem?, Option.map_some] at hhead
  obtain ⟨t, ht, heq⟩ := Option.map_eq_some_iff.1 hhead
  have hisEntity : t.isEntity = true := by
    have hsame : t.kind = c.kind := congrArg Schema.StructuredType.kind heq
    simp [Schema.StructuredType.isEntity, hsame, hkind]
  have hclass : g.typeClass id = some x := by
    rw [Graph.typeClass, hp, Option.bind_some, htype]
    rfl
  rw [Graph.isNavigation, hclass]
  simp [ht, hisEntity]

/-! ## The graphs -/

/-- What is related entry by entry to related entries. -/
theorem forall₂_of_triangle {α α' β β' : Type} {R : α → β → Prop} {R' : α' → β' → Prop}
    {S : α → α' → Prop} {T : β → β' → Prop}
    (close : ∀ a b a' b', R a b → S a a' → R' a' b' → T b b') {l : List α} {l' : List α'}
    {r : List β} {r' : List β'} (hR : List.Forall₂ R l r) (hS : List.Forall₂ S l l')
    (hR' : List.Forall₂ R' l' r') : List.Forall₂ T r r' := by
  induction hR generalizing l' r' with
  | nil =>
    cases hS
    cases hR'
    exact .nil
  | cons hab _ ih =>
    cases hS with
    | cons hS hrest =>
      cases hR' with
      | cons hR' hrest' => exact .cons (close _ _ _ _ hab hS hR') (ih hrest hrest')

/-- The properties that are added for the classes of a reordered document: the same in another
order, and what changes places has entities as values. -/
theorem Reordered.exists_members (h : doc.Reordered doc')
    (hg : HasTypes doc doc.enums doc.classes g) {ps : List Property}
    (hps : List.Forall₂ g.Resolves (declared Owner.structured (·.properties) doc.classes) ps) :
    ∃ ps', List.Forall₂ g.Resolves (declared Owner.structured (·.properties) doc'.classes) ps' ∧
      ps'.Perm ps ∧
      List.Forall₂ (fun p p' : Property => p'.owner = p.owner ∧
        (p' = p ∨ doc.IsEntityType p.type)) ps ps' := by
  obtain ⟨ps', hps', perm⟩ := List.perm_comp_forall₂ h.perm_declared.symm hps
  refine ⟨ps', hps', perm, forall₂_of_triangle ?_ hps h.places_declared hps'⟩
  rintro x p x' p' hp ⟨howner, hplace⟩ hp'
  refine ⟨by rw [hp'.owner, hp.owner, howner], ?_⟩
  rcases hplace with rfl | hentity
  · exact .inl (hp.unique hp')
  · obtain ⟨⟨type, hdraws, rfl⟩, _⟩ := hp
    exact .inr (hg.isEntityType_of_draws hentity hdraws)

/-- The entry points that are added for a reordered document: the same in another order. -/
theorem Reordered.exists_entries (h : doc.Reordered doc') {qs : List Property}
    (hqs : List.Forall₂ g.Resolves (doc.container.properties.map (Prod.mk .container)) qs) :
    ∃ qs', List.Forall₂ g.Resolves (doc'.container.properties.map (Prod.mk .container)) qs' ∧
      qs'.Perm qs :=
  List.perm_comp_forall₂ (h.entries.symm.map _) hqs

theorem owner_of_resolves {entries : List PropertyEntry} {owner : Owner} {qs : List Property}
    (hqs : List.Forall₂ g.Resolves (entries.map (Prod.mk owner)) qs) :
    ∀ q ∈ qs, q.owner = owner := by
  intro q hq
  obtain ⟨x, hx, hresolves⟩ := Fallible.exists_of_mem_right hqs hq
  obtain ⟨e, _, rfl⟩ := List.mem_map.1 hx
  exact hresolves.owner

theorem owner_ne_container {classes : List ClassEntry} {ps : List Property}
    (hps : List.Forall₂ g.Resolves (declared Owner.structured (·.properties) classes) ps) :
    ∀ p ∈ ps, p.owner ≠ .container := by
  intro p hp howner
  obtain ⟨x, hx, hresolves⟩ := Fallible.exists_of_mem_right hps hp
  obtain ⟨_, _, _, _, _, rfl⟩ := mem_declared_iff.1 hx
  rw [hresolves.owner] at howner
  cases howner

/-- A table of properties is another one in the order of a reordered document. -/
structure RearrangedTable (doc : Document) (g : Graph) (table : Array Property) : Prop where
  perm : g.properties.toList.Perm table.toList
  owners : table.toList.map (·.owner) = g.properties.toList.map (·.owner)
  places : ∀ (i : Nat) q, g.properties[i]? = some q → q.owner ≠ .container →
    table[i]? = some q ∨ doc.IsEntityType q.type

/-- Members that correspond one by one, with the entry points behind them. -/
theorem RearrangedTable.of_append {ps ps' qs qs' : List Property} {table : Array Property}
    (htable : g.properties.toList = ps ++ qs) (htable' : table.toList = ps' ++ qs')
    (permP : ps'.Perm ps) (permQ : qs'.Perm qs)
    (hplaces : List.Forall₂ (fun p p' : Property => p'.owner = p.owner ∧
      (p' = p ∨ doc.IsEntityType p.type)) ps ps')
    (entries : ∀ q ∈ qs, q.owner = .container) : doc.RearrangedTable g table := by
  have owners : ps'.map (·.owner) = ps.map (·.owner) :=
    Fallible.map_eq_map_of_forall₂ hplaces fun _ _ h => h.1
  refine ⟨?_, ?_, ?_⟩
  · rw [htable, htable']
    exact (permP.append permQ).symm
  · rw [htable, htable', List.map_append, List.map_append, owners,
      Graph.owners_eq_of_perm permQ entries]
  · intro i q hq hne
    rw [← Array.getElem?_toList, htable] at hq
    have hlt : i < ps.length := by
      by_contra hge
      rw [List.getElem?_append_right (Nat.not_lt.1 hge)] at hq
      exact hne (entries q (List.mem_of_getElem? hq))
    have hlt' : i < ps'.length := by rwa [permP.length_eq]
    rw [List.getElem?_append_left hlt, List.getElem?_eq_getElem hlt, Option.some.injEq] at hq
    rw [← Array.getElem?_toList, htable', List.getElem?_append_left hlt',
      List.getElem?_eq_getElem hlt', Option.some.injEq, ← hq]
    exact (hplaces.get hlt hlt').2

/-- The stages that add properties. -/
theorem Reordered.exists_properties (h : doc.Reordered doc') {g₁ g₂ : Graph}
    (hg : doc.Drawn doc.classes [] [] g)
    (hmembers : Graph.forClasses Graph.declareProperties doc.classes g = .ok g₁)
    (hentries : g₁.declareContainer doc.container.properties = .ok g₂) :
    ∃ d₁ table, Graph.forClasses Graph.declareProperties doc'.classes g = .ok d₁ ∧
      d₁.declareContainer doc'.container.properties = .ok (g₂.withProperties table) ∧
      doc.RearrangedTable g₂ table := by
  obtain ⟨ps, hps, hrun⟩ := Graph.forClasses_declareProperties_eq_ok_iff.1 hmembers
  obtain ⟨qs, hqs, hrun'⟩ := Graph.declareContainer_eq_ok_iff.1 hentries
  rw [(SameTypes.run hrun).resolves_eq] at hqs
  obtain ⟨ps', hps', permP, hplaces⟩ := h.exists_members hg.toHasTypes hps
  obtain ⟨qs', hqs', permQ⟩ := h.exists_entries hqs
  have bare : g.properties.toList = [] := List.forall₂_nil_left_iff.1 hg.properties
  have owners : ps'.map (·.owner) = ps.map (·.owner) :=
    Fallible.map_eq_map_of_forall₂ hplaces fun _ _ h => h.1
  obtain ⟨d₁, d₂, hd₁, hd₂, hframe, htable'⟩ := Graph.exists_runs_of_perm hg.built bare
    (owner_ne_container hps) (owner_of_resolves hqs) permP permQ owners hrun hrun'
  have htable : g₂.properties.toList = ps ++ qs := by
    rw [Graph.properties_of_run hrun', Graph.properties_of_run hrun, bare, List.nil_append]
  have hmembers' := Graph.forClasses_declareProperties_eq_ok_iff.2 ⟨ps', hps', hd₁⟩
  have hentries' : d₁.declareContainer doc'.container.properties = .ok d₂ := by
    refine Graph.declareContainer_eq_ok_iff.2 ⟨qs', ?_, hd₂⟩
    rwa [(SameTypes.run hd₁).resolves_eq]
  rw [hframe] at hentries'
  exact ⟨d₁, d₂.properties, hmembers', hentries',
    .of_append htable htable' permP permQ hplaces (owner_of_resolves hqs)⟩

theorem RearrangedTable.congr {table : Array Property} (h : doc.RearrangedTable g table)
    (same : g'.properties = g.properties) : doc.RearrangedTable g' table where
  perm := same ▸ h.perm
  owners := same ▸ h.owners
  places := same ▸ h.places

/-- A rearranged table has the properties of the graph at other places. -/
theorem RearrangedTable.renumbers {table : Array Property} (h : doc.RearrangedTable g table)
    (hg : HasTypes doc doc.enums doc.classes g) : g.Renumbers table (g.placeIn table) := by
  refine Graph.renumbers_placeIn hg.built h.perm h.owners ?_
  intro id p hp hnav
  obtain ⟨q, hq, howner⟩ := hg.built.wellOwned.own_known hp
  rcases h.places p.index q hq (by simp [howner]) with hsame | hentity
  · rw [hsame, hq]
  · rw [hg.isNavigation hq hentity] at hnav
    cases hnav

/-- The graph of a reordered document is that of the document with its properties at other
places. -/
theorem Reordered.exists_ofDocument (h : doc.Reordered doc') (hdoc : Graph.ofDocument doc = .ok g) :
    g.Built ∧ ∃ table place, Graph.ofDocument doc' = .ok (g.withProperties table) ∧
      g.Renumbers table place := by
  obtain ⟨hdrawn, _⟩ := (yields_ofDocument (P := False) False.elim).sound g hdoc
  unfold Graph.ofDocument at hdoc
  obtain ⟨g₁, henums, hdoc⟩ := Fallible.bind_eq_ok_iff.1 hdoc
  obtain ⟨g₂, hclasses, hdoc⟩ := Fallible.bind_eq_ok_iff.1 hdoc
  obtain ⟨g₃, hlinks, hdoc⟩ := Fallible.bind_eq_ok_iff.1 hdoc
  obtain ⟨g₄, hmembers, hdoc⟩ := Fallible.bind_eq_ok_iff.1 hdoc
  obtain ⟨g₅, hentries, hdoc⟩ := Fallible.bind_eq_ok_iff.1 hdoc
  obtain ⟨g₆, hmethods, hdoc⟩ := Fallible.bind_eq_ok_iff.1 hdoc
  obtain ⟨_, hkeys, hdoc⟩ := Fallible.bind_eq_ok_iff.1 hdoc
  cases hdoc
  have hlinked : doc.Drawn doc.classes [] [] g₃ := by
    have h₁ := (yields_addEnums (P := False) False.elim).sound g₁ henums
    have h₂ := (yields_declareClasses (P := False) False.elim h₁.1 h₁.2).sound g₂ hclasses
    exact (yields_linkBases (P := False) False.elim h₂.1 h₂.2).sound g₃ hlinks
  obtain ⟨d, table, hmembers', hentries', htable⟩ := h.exists_properties hlinked hmembers hentries
  have hmethods' : Graph.forClasses Graph.declareMethods doc'.classes (g₅.withProperties table) =
      .ok (g.withProperties table) := by
    rw [h.forClasses_eq fun _ _ _ => rfl, Graph.forClasses_declareMethods_withProperties, hmethods]
    rfl
  have hrenumbers : g.Renumbers table (g.placeIn table) :=
    (htable.congr (Graph.properties_of_declareMethods hmethods)).renumbers hdrawn.toHasTypes
  have hkeys' : doc'.classes.forM (g.withProperties table).checkKey = .ok ⟨⟩ := by
    refine Fallible.forM_eq_ok fun c' hc' => ?_
    obtain ⟨c, hc, hclass⟩ := Fallible.exists_of_mem_right h.classes hc'
    have hkey := Fallible.forall_of_forM_eq_ok hkeys c hc
    rw [hclass.rest]
    exact Graph.checkKey_relocate hrenumbers hdrawn.built hkey
  refine ⟨hdrawn.built, table, _, ?_, hrenumbers⟩
  unfold Graph.ofDocument
  rw [h.namespaceName, h.containerName, h.enums]
  refine Fallible.bind_eq_ok_iff.2 ⟨g₁, henums, ?_⟩
  refine Fallible.bind_eq_ok_iff.2 ⟨g₂, h.declareClasses_eq.trans hclasses, ?_⟩
  refine Fallible.bind_eq_ok_iff.2 ⟨g₃, (h.forClasses_eq fun _ _ _ => rfl).trans hlinks, ?_⟩
  refine Fallible.bind_eq_ok_iff.2 ⟨d, hmembers', ?_⟩
  refine Fallible.bind_eq_ok_iff.2 ⟨_, hentries', ?_⟩
  refine Fallible.bind_eq_ok_iff.2 ⟨_, hmethods', ?_⟩
  exact Fallible.bind_eq_ok_iff.2 ⟨⟨⟩, hkeys', rfl⟩

end Document
end EdmCommands
