import EdmCommands.Proofs.Document.WellFormed
import EdmCommands.Proofs.Schema.Accepted
import EdmCommands.Proofs.Schema.Resolution
import EdmCommands.Proofs.Schema.TypeNames

/-!
# EdmCommands.Proofs.Document.Drawn

The graph of a document while it is built: what is in the graph after each step, and that a step
cannot fail on a well-formed document.

* `HasTypes`: the enumerations and classes that are there so far.
* `Drawn`: all types, and the links and members that are there so far.
* `HasTypes.findClass_eq_some_iff`, `HasTypes.draws_eq`: what is looked up is what the document
  says.
-/

namespace EdmCommands

namespace Document

open Schema (ClassId Owner Property Method StructuredType EnumType Graph EnumId PropertyId MethodId)
open Schema.Graph (SameTypes)

structure HasTypes (doc : Document) (enums : List EnumEntry) (classes : List ClassEntry)
    (g : Graph) : Prop where
  built : g.Built
  checked : g.NamesChecked
  namespaceName : g.namespaceName = doc.namespaceName
  containerName : g.container.name = doc.container.name
  enums : g.enums.toList = enums.map (·.type)
  heads : g.heads = classes.map (·.type)

/-- A graph without links and members. -/
structure Bare (g : Graph) : Prop where
  baseOf : ∀ id, g.baseOf id = none
  properties : g.properties = #[]
  methods : g.methods = #[]

/-- A graph with the types of the document, the bases of the classes in `linked`, and the
properties and methods of `members` and `operations`. -/
structure Drawn (doc : Document) (linked : List ClassEntry)
    (members : List (Owner × PropertyEntry)) (operations : List (ClassId × MethodEntry))
    (g : Graph) : Prop extends HasTypes doc doc.enums doc.classes g where
  baseOf : ∀ id, g.baseOf id = (linked[id.index]?.bind (·.base)).bind g.findClass
  known : ∀ d ∈ linked, ∀ text, d.base = some text → (g.findClass text).isSome = true
  properties : List.Forall₂ (FitsProperty g.Draws) members g.properties.toList
  references : ∀ x ∈ members, x.2.isReference = true → ∃ id c,
    g.Draws x.2.typeName (.structured id) ∧ g.heads[id.index]? = some c ∧ c.kind = .entity
  methods : List.Forall₂ (FitsMethod g.Draws) operations g.methods.toList

variable {doc : Document} {g g' : Graph} {enums : List EnumEntry} {classes linked : List ClassEntry}
  {members : List (Owner × PropertyEntry)} {operations : List (ClassId × MethodEntry)}
  {text name : String} {id : ClassId}

/-! ## Names in a graph -/

namespace HasTypes

theorem simpleName_eq_iff (h : HasTypes doc enums classes g) (plain : IsPlain name) :
    name = g.simpleName text ↔ doc.Refers text name := by
  rw [Refers, ← h.namespaceName]
  by_cases hqualified : ∃ rest, text = g.namespaceName ++ "." ++ rest
  · obtain ⟨rest, rfl⟩ := hqualified
    rw [Graph.simpleName_qualified]
    constructor
    · rintro rfl
      exact .inr rfl
    · rintro (rfl | heq)
      · simp [IsPlain] at plain
      · simpa using heq.symm
  · rw [Graph.simpleName_of_not_qualified fun rest hrest => hqualified ⟨rest, hrest⟩]
    constructor
    · rintro rfl
      exact .inl rfl
    · rintro (rfl | heq)
      · rfl
      · exact absurd ⟨name, heq⟩ hqualified

theorem simpleName_eq (h : HasTypes doc enums classes g) (plain : IsPlain name) :
    g.simpleName name = name :=
  ((h.simpleName_eq_iff plain).2 (.inl rfl)).symm

theorem classNames (h : HasTypes doc enums classes g) : g.classNames = classes.map (·.name) := by
  rw [Graph.classNames_eq, h.heads, List.map_map]
  rfl

theorem enumNames (h : HasTypes doc enums classes g) : g.enumNames = enums.map (·.name) := by
  rw [Graph.enumNames, h.enums, List.map_map]
  rfl

/-- Plain names that passed the check are distinct. -/
theorem nodup_of_plain (h : HasTypes doc enums classes g) {names : List String}
    (checked : names.Pairwise fun earlier later => earlier ≠ g.simpleName later)
    (plain : ∀ name ∈ names, IsPlain name) : names.Nodup := by
  refine checked.imp_of_mem ?_
  intro earlier later _ hlater hne
  rwa [h.simpleName_eq (plain later hlater)] at hne

theorem nodup_classes (h : HasTypes doc enums classes g)
    (plain : ∀ c ∈ classes, IsPlain c.name) : (classes.map (·.name)).Nodup := by
  refine h.nodup_of_plain (h.classNames ▸ h.checked.classes) ?_
  simpa using plain

theorem nodup_enums (h : HasTypes doc enums classes g)
    (plain : ∀ e ∈ enums, IsPlain e.name) : (enums.map (·.name)).Nodup := by
  refine h.nodup_of_plain (h.enumNames ▸ h.checked.enums) ?_
  simpa using plain

theorem heads_getElem? (h : HasTypes doc enums classes g) {i : Nat} :
    g.heads[i]? = classes[i]?.map (·.type) := by
  rw [h.heads, List.getElem?_map]

theorem isClass_iff (h : HasTypes doc enums classes g) :
    g.IsClass id ↔ ∃ c, classes[id.index]? = some c := by
  have hsize : g.classes.size = classes.length := by
    simpa [Graph.heads] using congrArg List.length h.heads
  rw [Graph.IsClass, hsize]
  constructor
  · intro hlt
    exact ⟨_, List.getElem?_eq_getElem hlt⟩
  · rintro ⟨c, hc⟩
    exact (List.getElem?_eq_some_iff.1 hc).1

/-- A class is found by the texts that refer to its entry. -/
theorem findClass_eq_some_iff (h : HasTypes doc enums classes g)
    (plain : ∀ c ∈ classes, IsPlain c.name) :
    g.findClass text = some id ↔ ∃ c, classes[id.index]? = some c ∧ doc.Refers text c.name := by
  have distinct : g.classNames.Nodup := h.classNames ▸ h.nodup_classes plain
  constructor
  · intro hfound
    obtain ⟨⟨t, ht, hname⟩, _⟩ := Graph.findClass_eq_some_iff.1 hfound
    rw [h.heads_getElem?] at ht
    obtain ⟨c, hc, rfl⟩ := Option.map_eq_some_iff.1 ht
    exact ⟨c, hc, (h.simpleName_eq_iff (plain c (List.mem_of_getElem? hc))).1 hname⟩
  · rintro ⟨c, hc, hrefers⟩
    obtain ⟨t, ht⟩ := Graph.isClass_iff.1 (h.isClass_iff.2 ⟨c, hc⟩)
    have hname : t.name = c.name := by
      have hhead := h.heads_getElem? (i := id.index)
      rw [hc, Graph.heads_getElem?, (Graph.classAt_eq_ok_iff g).1 ht] at hhead
      exact congrArg StructuredType.name (Option.some.inj hhead)
    refine Graph.findClass_of_simpleName distinct ht ?_
    rw [hname]
    exact ((h.simpleName_eq_iff (plain c (List.mem_of_getElem? hc))).2 hrefers).symm

/-- A class is found by its qualified name. -/
theorem findClass_of_qualifiedName (h : HasTypes doc enums classes g)
    (plain : ∀ c ∈ classes, IsPlain c.name) (hname : g.qualifiedName id = .ok name) :
    g.findClass name = some id := by
  obtain ⟨t, ht, rfl⟩ := Graph.qualifiedName_eq_ok_iff.1 hname
  have distinct : g.classNames.Nodup := h.classNames ▸ h.nodup_classes plain
  refine Graph.findClass_of_simpleName distinct ht (Graph.simpleName_qualify fun _ => ?_)
  have hhead := h.heads_getElem? (i := id.index)
  rw [Graph.heads_getElem?, (Graph.classAt_eq_ok_iff g).1 ht] at hhead
  obtain ⟨c, hc, htype⟩ := Option.map_eq_some_iff.1 hhead.symm
  have heq : t.name = c.name := (congrArg StructuredType.name htype).symm
  rw [heq]
  exact h.simpleName_eq (plain c (List.mem_of_getElem? hc))

theorem findClass_eq_none_iff (h : HasTypes doc enums classes g)
    (plain : ∀ c ∈ classes, IsPlain c.name) :
    g.findClass text = none ↔ ∀ c ∈ classes, ¬ doc.Refers text c.name := by
  rw [Option.eq_none_iff_forall_ne_some]
  constructor
  · intro hnone c hc hrefers
    obtain ⟨i, hi⟩ := List.mem_iff_getElem?.1 hc
    exact hnone ⟨i⟩ ((h.findClass_eq_some_iff plain).2 ⟨c, hi, hrefers⟩)
  · intro hnone id hfound
    obtain ⟨c, hc, hrefers⟩ := (h.findClass_eq_some_iff plain).1 hfound
    exact hnone c (List.mem_of_getElem? hc) hrefers

theorem findEnum_eq_some_iff (h : HasTypes doc enums classes g)
    (plain : ∀ e ∈ enums, IsPlain e.name) {id : EnumId} :
    g.findEnum text = some id ↔ ∃ e, enums[id.index]? = some e ∧ doc.Refers text e.name := by
  rw [Graph.findEnum_eq, h.enums, List.findIdx?_map, Option.map_eq_some_iff]
  simp only [List.findIdx?_eq_some_iff_getElem, Function.comp, beq_iff_eq]
  constructor
  · rintro ⟨i, ⟨hlt, hname, _⟩, rfl⟩
    exact ⟨_, List.getElem?_eq_getElem hlt,
      (h.simpleName_eq_iff (plain _ (List.getElem_mem hlt))).1 hname⟩
  · rintro ⟨e, he, hrefers⟩
    obtain ⟨hlt, rfl⟩ := List.getElem?_eq_some_iff.1 he
    refine ⟨id.index, ⟨hlt, (h.simpleName_eq_iff (plain _ (List.getElem_mem hlt))).2 hrefers, ?_⟩,
      rfl⟩
    intro j hj hsame
    have distinct := List.pairwise_map.1 (h.nodup_enums plain)
    refine List.pairwise_iff_getElem.1 distinct j id.index (hj.trans hlt) hlt hj ?_
    exact hsame.trans ((h.simpleName_eq_iff (plain _ (List.getElem_mem hlt))).2 hrefers).symm

/-- With plain names of types, a graph and its document read types alike. -/
theorem draws_eq (h : HasTypes doc doc.enums doc.classes g) (plain : doc.PlainTypes) :
    g.Draws = doc.Types := by
  funext text type
  rw [Graph.Draws, Types, eq_iff_iff]
  generalize (Edm.TypeName.ofText text).element = name
  have hclass : ∀ id, g.findClass name = some id ↔
      ∃ c, doc.classes[id.index]? = some c ∧ doc.Refers name c.name :=
    fun _ => h.findClass_eq_some_iff plain.classes
  have hnone : g.findClass name = none ↔ ∀ c ∈ doc.classes, ¬ doc.Refers name c.name :=
    h.findClass_eq_none_iff plain.classes
  have henum : ∀ id, g.findEnum name = some id ↔
      ∃ e, doc.enums[id.index]? = some e ∧ doc.Refers name e.name :=
    fun _ => h.findEnum_eq_some_iff plain.enums
  unfold Graph.typeNamed?
  cases hedm : Edm.isEdmName name with
  | true =>
    rw [if_pos rfl, Option.map_eq_some_iff]
    constructor
    · rintro ⟨p, hp, rfl⟩
      rw [← Edm.Primitive.ofEdmName?_eq_some_iff.1 hp]
      exact .primitive p
    · intro hdenotes
      cases hdenotes with
      | primitive p => exact ⟨p, Edm.Primitive.ofEdmName?_eq_some_iff.2 rfl, rfl⟩
      | structured hno => rw [hedm] at hno; cases hno
      | enum hno => rw [hedm] at hno; cases hno
  | false =>
    rw [if_neg Bool.false_ne_true]
    constructor
    · intro hnamed
      cases hfound : g.findClass name with
      | some id =>
        rw [hfound] at hnamed
        cases hnamed
        obtain ⟨c, hc, hrefers⟩ := (hclass id).1 hfound
        exact .structured hedm hc hrefers
      | none =>
        rw [hfound] at hnamed
        obtain ⟨id, hid, rfl⟩ := Option.map_eq_some_iff.1 hnamed
        obtain ⟨e, he, hrefers⟩ := (henum id).1 hid
        exact .enum hedm (hnone.1 hfound) he hrefers
    · intro hdenotes
      cases hdenotes with
      | primitive p => rw [Edm.isEdmName_edmName] at hedm; cases hedm
      | @structured _ i c _ hc hrefers =>
        rw [(hclass ⟨i⟩).2 ⟨c, hc, hrefers⟩]
      | @enum _ i e _ hclasses he hrefers =>
        rw [hnone.2 hclasses, (henum ⟨i⟩).2 ⟨e, he, hrefers⟩]
        rfl

end HasTypes

/-! ## Types are added -/

theorem hasTypes_empty (doc : Document) :
    HasTypes doc [] [] (Graph.empty doc.namespaceName doc.container.name) where
  built := .empty _ _
  checked := Graph.namesChecked_empty _ _
  namespaceName := rfl
  containerName := rfl
  enums := rfl
  heads := rfl

theorem bare_empty (spaceName containerName : String) :
    Bare (Graph.empty spaceName containerName) where
  baseOf _ := rfl
  properties := rfl
  methods := rfl

theorem HasTypes.addEnum (h : HasTypes doc enums classes g) {e : EnumEntry} {new : EnumId}
    (hadd : g.addEnum e.type = .ok (g', new)) : HasTypes doc (enums ++ [e]) classes g' := by
  have checked := h.checked.addEnum hadd
  have built := h.built.addEnum hadd
  obtain rfl := Graph.addEnum_eq_ok hadd
  refine ⟨built, checked, h.namespaceName, h.containerName, ?_, h.heads⟩
  rw [Array.toList_push, h.enums, List.map_append]
  rfl

theorem Bare.addEnum (h : Bare g) {e : EnumType} {new : EnumId}
    (hadd : g.addEnum e = .ok (g', new)) : Bare g' := by
  obtain rfl := Graph.addEnum_eq_ok hadd
  exact ⟨h.baseOf, h.properties, h.methods⟩

theorem ClassEntry.isFresh_type (c : ClassEntry) : c.type.IsFresh :=
  ⟨rfl, rfl, rfl, rfl⟩

theorem HasTypes.addClass (h : HasTypes doc enums classes g) {c : ClassEntry} {new : ClassId}
    (hadd : g.addClass c.type = .ok (g', new)) : HasTypes doc enums (classes ++ [c]) g' := by
  have checked := h.checked.addClass hadd
  have built := h.built.addClass c.isFresh_type hadd
  obtain rfl := Graph.addClass_eq_ok hadd
  refine ⟨built, checked, h.namespaceName, h.containerName, h.enums, ?_⟩
  rw [Graph.heads, Array.toList_push, List.map_append, List.map_append, ← h.heads]
  rfl

theorem Bare.addClass (h : Bare g) {c : StructuredType} (fresh : c.IsFresh) {new : ClassId}
    (hadd : g.addClass c = .ok (g', new)) : Bare g' := by
  obtain rfl := Graph.addClass_eq_ok hadd
  refine ⟨?_, h.properties, h.methods⟩
  rw [Graph.baseOf_push fresh]
  exact h.baseOf

theorem HasTypes.congr (h : HasTypes doc enums classes g) (built : g'.Built)
    (same : SameTypes g g') : HasTypes doc enums classes g' where
  built := built
  checked := h.checked.congr same
  namespaceName := same.namespaceName.trans h.namespaceName
  containerName := same.containerName.trans h.containerName
  enums := by rw [same.enums, h.enums]
  heads := same.heads.trans h.heads

/-! ## Links and members are added -/

theorem HasTypes.drawn (h : HasTypes doc doc.enums doc.classes g) (bare : Bare g) :
    doc.Drawn [] [] [] g where
  toHasTypes := h
  baseOf := bare.baseOf
  known := by simp
  properties := by simp [bare.properties]
  references := by simp
  methods := by simp [bare.methods]

theorem linkBase_eq_ok_iff {c : ClassEntry} : g.linkBase c id = .ok g' ↔
    (c.base = none ∧ g' = g) ∨ ∃ text base, c.base = some text ∧ g.findClass text = some base ∧
      g.setBase id base = .ok g' := by
  unfold Graph.linkBase
  cases c.base with
  | none => simp [eq_comm]
  | some text =>
    cases hfound : g.findClass text <;> simp [hfound]

namespace Drawn

theorem linkBase (h : doc.Drawn linked members operations g) {c : ClassEntry}
    (hlink : g.linkBase c ⟨linked.length⟩ = .ok g') :
    doc.Drawn (linked ++ [c]) members operations g' := by
  have hconcat : ∀ id : ClassId, (linked ++ [c])[id.index]? =
      if id = ⟨linked.length⟩ then some c else linked[id.index]? := by
    intro id
    by_cases hid : id = ⟨linked.length⟩
    · rw [if_pos hid, hid]
      exact List.getElem?_concat_length
    · have hindex : id.index ≠ linked.length := fun heq => hid (Graph.id_eq_of_index_eq heq)
      rw [if_neg hid, List.getElem?_append]
      split
      · rfl
      · rw [List.getElem?_eq_none (l := linked) (by omega),
          List.getElem?_eq_none (by rw [List.length_singleton]; omega)]
  have hknown : ∀ {g' : Graph}, g'.findClass = g.findClass →
      (∀ text, c.base = some text → (g.findClass text).isSome = true) →
      ∀ d ∈ linked ++ [c], ∀ text, d.base = some text → (g'.findClass text).isSome = true := by
    intro g' hfind hc d hd
    rw [hfind]
    rcases List.mem_append.1 hd with hd | hd
    · exact h.known d hd
    · rw [List.mem_singleton.1 hd]
      exact hc
  rcases linkBase_eq_ok_iff.1 hlink with ⟨hbase, rfl⟩ | ⟨text, base, hbase, hfound, hset⟩
  · refine { h with baseOf := ?_, known := hknown rfl ?_ }
    · intro id
      rw [h.baseOf, hconcat]
      split
      · rename_i heq
        rw [heq, List.getElem?_eq_none (Nat.le_refl _)]
        simp [hbase]
      · rfl
    · simp [hbase]
  · have same := SameTypes.setBase hset
    obtain ⟨_, _, _, _, hderived, _, _, _, _, _, _, _, heq⟩ := Graph.setBase_eq_ok hset
    refine ⟨h.toHasTypes.congr (h.built.setBase hset) same, ?_, ?_, ?_, ?_, ?_⟩
    · intro id
      rw [same.findClass_eq, hconcat, heq, Graph.baseOf_relink hderived]
      split
      · simp [hbase, hfound]
      · exact h.baseOf id
    · refine hknown same.findClass_eq ?_
      intro other hother
      rw [hbase] at hother
      cases hother
      rw [hfound]
      rfl
    · rw [same.draws_eq, heq]
      exact h.properties
    · rw [same.draws_eq, same.heads]
      exact h.references
    · rw [same.draws_eq, heq]
      exact h.methods

/-- Whatever is added besides types and links leaves the rest as it is. -/
theorem congr (h : doc.Drawn linked members operations g) (built : g'.Built)
    (same : SameTypes g g') (baseOf : g'.baseOf = g.baseOf)
    {members' : List (Owner × PropertyEntry)} {operations' : List (ClassId × MethodEntry)}
    (properties : List.Forall₂ (FitsProperty g.Draws) members' g'.properties.toList)
    (references : ∀ x ∈ members', x.2.isReference = true → ∃ id c,
      g.Draws x.2.typeName (.structured id) ∧ g.heads[id.index]? = some c ∧ c.kind = .entity)
    (methods : List.Forall₂ (FitsMethod g.Draws) operations' g'.methods.toList) :
    doc.Drawn linked members' operations' g' where
  toHasTypes := h.toHasTypes.congr built same
  baseOf id := by rw [baseOf, same.findClass_eq, h.baseOf]
  known := by
    rw [same.findClass_eq]
    exact h.known
  properties := by
    rw [same.draws_eq]
    exact properties
  references := by
    rw [same.draws_eq, same.heads]
    exact references
  methods := by
    rw [same.draws_eq]
    exact methods

/-- A property from a document goes to the end of the table. -/
theorem properties_push (h : doc.Drawn linked members operations g) {owner : Owner}
    {e : PropertyEntry} {p : Property} (hp : FitsProperty g.Draws (.container, e) p) :
    List.Forall₂ (FitsProperty g.Draws) (members ++ [(owner, e)])
      (g.properties.push { p with owner := owner }).toList := by
  rw [Array.toList_push]
  refine List.rel_append h.properties (.cons ?_ .nil)
  obtain ⟨type, hdraws, rfl⟩ := hp
  exact ⟨type, hdraws, rfl⟩

theorem references_push (h : doc.Drawn linked members operations g) {owner : Owner}
    {e : PropertyEntry} {p : Property} (hp : FitsProperty g.Draws (.container, e) p)
    (reference : e.isReference = true → g.isEntityType p.type = .ok true) :
    ∀ x ∈ members ++ [(owner, e)], x.2.isReference = true → ∃ id c,
      g.Draws x.2.typeName (.structured id) ∧ g.heads[id.index]? = some c ∧ c.kind = .entity := by
  intro x hx href
  rcases List.mem_append.1 hx with hx | hx
  · exact h.references x hx href
  · rw [List.mem_singleton.1 hx] at href ⊢
    obtain ⟨type, hdraws, rfl⟩ := hp
    obtain ⟨id, c, rfl, hc, hkind⟩ := Graph.isEntityType_eq_ok_true_iff.1 (reference href)
    exact ⟨id, c, hdraws, hc, hkind⟩

theorem addProperty (h : doc.Drawn linked members operations g) {e : PropertyEntry} {p : Property}
    (hp : FitsProperty g.Draws (.container, e) p)
    (reference : e.isReference = true → g.isEntityType p.type = .ok true) {new : PropertyId}
    (hadd : g.addProperty id p = .ok (g', new)) :
    doc.Drawn linked (members ++ [(.structured id, e)]) operations g' := by
  have baseOf := Graph.baseOf_addProperty hadd
  have built := h.built.addProperty hadd
  have same := SameTypes.addProperty hadd
  obtain ⟨_, _, _, _, _, _, rfl⟩ := Graph.addProperty_eq_ok hadd
  exact h.congr built same baseOf (h.properties_push hp) (h.references_push hp reference) h.methods

theorem addContainerProperty (h : doc.Drawn linked members operations g) {e : PropertyEntry}
    {p : Property} (hp : FitsProperty g.Draws (.container, e) p)
    (reference : e.isReference = true → g.isEntityType p.type = .ok true) {new : PropertyId}
    (hadd : g.addContainerProperty p = .ok (g', new)) :
    doc.Drawn linked (members ++ [(.container, e)]) operations g' := by
  have built := h.built.addContainerProperty hadd
  have same := SameTypes.addContainerProperty hadd
  obtain ⟨_, rfl⟩ := Graph.addContainerProperty_eq_ok hadd
  exact h.congr built same rfl (h.properties_push hp) (h.references_push hp reference) h.methods

theorem addMethod (h : doc.Drawn linked members operations g) {e : MethodEntry} {m : Method}
    (hm : FitsMethod g.Draws (⟨0⟩, e) m) {new : MethodId}
    (hadd : g.addMethod id m = .ok (g', new)) :
    doc.Drawn linked members (operations ++ [(id, e)]) g' := by
  have baseOf := Graph.baseOf_addMethod hadd
  have built := h.built.addMethod hadd
  have same := SameTypes.addMethod hadd
  obtain rfl := Graph.addMethod_eq_ok hadd
  refine h.congr built same baseOf h.properties h.references ?_
  rw [Array.toList_push]
  refine List.rel_append h.methods (.cons ?_ .nil)
  obtain ⟨parameters, returns, hparameters, hreturns, rfl⟩ := hm
  exact ⟨parameters, returns, hparameters, hreturns, rfl⟩

/-- A property that is a reference has the type of a class. -/
theorem structured_of_isReference (h : doc.Drawn linked members operations g) {p : Property}
    (hp : p ∈ g.properties.toList) (href : p.isReference = true) :
    ∃ id, p.type = .structured id := by
  obtain ⟨x, hx, type, htype, rfl⟩ := Fallible.exists_of_mem_right h.properties hp
  obtain ⟨id, _, hclass, _⟩ := h.references x hx href
  exact ⟨id, Option.some.inj (htype.symm.trans hclass)⟩

end Drawn

end Document
end EdmCommands
