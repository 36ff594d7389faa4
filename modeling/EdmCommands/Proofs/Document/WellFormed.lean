import EdmCommands.Document
import EdmCommands.Edm.TypeName
import Mathlib.Data.List.Induction
import Mathlib.Logic.Relation

/-!
# EdmCommands.Proofs.Document.WellFormed

What a schema document has to be like, said of the document alone: what its names refer to, which
classes are below which, and that the declarations of a chain of bases go together.

* `Refers`, `Denotes`: what a name of a class, or of any type, stands for.
* `Below`: inheritance between class entries.
* `KeyOf`: the key of a class, its own or the nearest one above.
* `declared`: the members that the class entries declare, in order.
* `WellFormed`: the documents that have a schema graph.
-/

namespace EdmCommands
namespace Document

open Schema (ClassId TypeRef Owner)

/-- A name that cannot be taken for one with a namespace in front. -/
def IsPlain (name : String) : Prop :=
  '.' ∉ name.toList

structure PlainTypes (doc : Document) : Prop where
  classes : ∀ c ∈ doc.classes, IsPlain c.name
  enums : ∀ e ∈ doc.enums, IsPlain e.name

/-! ## Names -/

/-- The text is the name itself, or the name behind the namespace. -/
def Refers (doc : Document) (text name : String) : Prop :=
  text = name ∨ text = doc.namespaceName ++ "." ++ name

/-- What the name of an element type stands for. In the namespace of the primitive types there are
no others, and a class hides an enumeration of the same name. -/
inductive Denotes (doc : Document) : String → TypeRef → Prop where
  | primitive (p : Edm.Primitive) : Denotes doc p.edmName (.primitive p)
  | structured {name : String} {i : Nat} {c : ClassEntry} :
      Edm.isEdmName name = false → doc.classes[i]? = some c → doc.Refers name c.name →
      Denotes doc name (.structured ⟨i⟩)
  | enum {name : String} {i : Nat} {e : EnumEntry} :
      Edm.isEdmName name = false → (∀ c ∈ doc.classes, ¬ doc.Refers name c.name) →
      doc.enums[i]? = some e → doc.Refers name e.name → Denotes doc name (.enum ⟨i⟩)

/-- What a written type stands for, apart from being a collection. -/
def Types (doc : Document) (text : String) (type : TypeRef) : Prop :=
  doc.Denotes (Edm.TypeName.ofText text).element type

/-! ## Inheritance -/

/-- The entry `d` names `b` as its base. -/
def Extends (doc : Document) (d b : ClassEntry) : Prop :=
  d ∈ doc.classes ∧ b ∈ doc.classes ∧ ∃ text, d.base = some text ∧ doc.Refers text b.name

def Below (doc : Document) : ClassEntry → ClassEntry → Prop :=
  Relation.TransGen doc.Extends

/-- The key that a class declares, or the nearest one that a class above it declares. -/
inductive KeyOf (doc : Document) : ClassEntry → String → Prop where
  | own {c : ClassEntry} {key : String} : c.key = some key → KeyOf doc c key
  | inherited {c b : ClassEntry} {key : String} :
      c.key = none → doc.Extends c b → KeyOf doc b key → KeyOf doc c key

/-! ## Declarations -/

/-- The members of the classes in order, each with what stands for its class. -/
def declared {ω μ : Type} (tag : ClassId → ω) (members : ClassEntry → List μ)
    (classes : List ClassEntry) : List (ω × μ) :=
  classes.zipIdx.flatMap fun (c, i) => (members c).map (Prod.mk (tag ⟨i⟩))

def propertyDeclarations (doc : Document) : List (Owner × PropertyEntry) :=
  declared .structured (·.properties) doc.classes ++
    doc.container.properties.map (Prod.mk .container)

def methodDeclarations (doc : Document) : List (ClassId × MethodEntry) :=
  declared id (·.methods) doc.classes

def MethodEntry.typeNames (m : MethodEntry) : List String :=
  m.parameters.map (·.typeName) ++ (m.returns.map (·.typeName)).toList

/-- The class, or one above it, declares a property of the name. -/
def HasProperty (doc : Document) (c : ClassEntry) (name : String) : Prop :=
  ∃ b, (b = c ∨ doc.Below c b) ∧ ∃ e ∈ b.properties, e.name = name

/-- Every name stands for something and is used once where it has to tell things apart. -/
structure WellFormed (doc : Document) : Prop where
  enums : (doc.enums.map (·.name)).Nodup
  classes : (doc.classes.map (·.name)).Nodup
  bases : ∀ d ∈ doc.classes, ∀ text, d.base = some text →
    ∃ b ∈ doc.classes, doc.Refers text b.name
  acyclic : ∀ c, ¬ doc.Below c c
  propertyTypes : ∀ x ∈ doc.propertyDeclarations, ∃ type, doc.Types x.2.typeName type
  methodTypes : ∀ x ∈ doc.methodDeclarations, ∀ text ∈ x.2.typeNames, ∃ type, doc.Types text type
  references : ∀ x ∈ doc.propertyDeclarations, x.2.isReference = true →
    ∃ i c, doc.Types x.2.typeName (.structured ⟨i⟩) ∧ doc.classes[i]? = some c ∧ c.kind = .entity
  ownNames : ∀ c ∈ doc.classes, (c.properties.map (·.name)).Nodup
  inheritedNames : ∀ d b, doc.Below d b → ∀ p ∈ d.properties, ∀ q ∈ b.properties, p.name ≠ q.name
  entryNames : (doc.container.properties.map (·.name)).Nodup
  parameterNames : ∀ x ∈ doc.methodDeclarations, (x.2.parameters.map (·.name)).Nodup
  keys : ∀ c ∈ doc.classes, ∀ key, c.key = some key → doc.HasProperty c key

variable {doc : Document} {c d b : ClassEntry} {ω μ : Type} {tag : ClassId → ω}
  {members : ClassEntry → List μ} {classes : List ClassEntry}

theorem declared_concat :
    declared tag members (classes ++ [c]) =
      declared tag members classes ++ (members c).map (Prod.mk (tag ⟨classes.length⟩)) := by
  simp [declared, List.zipIdx_append]

theorem mem_declared_iff {x : ω × μ} :
    x ∈ declared tag members classes ↔
      ∃ i c, classes[i]? = some c ∧ ∃ m ∈ members c, x = (tag ⟨i⟩, m) := by
  simp only [declared, List.mem_flatMap, List.mem_map, Prod.exists, List.mem_zipIdx_iff_getElem?,
    eq_comm (a := x)]
  constructor
  · rintro ⟨c, i, hc, hx⟩
    exact ⟨i, c, hc, hx⟩
  · rintro ⟨i, c, hc, hx⟩
    exact ⟨c, i, hc, hx⟩

theorem filter_declared [DecidableEq ω] (inj : Function.Injective tag) {id : ClassId}
    (hc : classes[id.index]? = some c) :
    (declared tag members classes).filter (·.1 = tag id) =
      (members c).map (Prod.mk (tag id)) := by
  induction classes using List.reverseRecOn with
  | nil => cases hc
  | append_singleton front last ih =>
    rw [declared_concat, List.filter_append]
    by_cases hlast : id = ⟨front.length⟩
    · subst hlast
      rw [List.getElem?_concat_length] at hc
      cases hc
      have hfront : (declared tag members front).filter (·.1 = tag ⟨front.length⟩) = [] := by
        refine List.filter_eq_nil_iff.2 ?_
        intro x hx heq
        obtain ⟨i, d, hd, m, _, rfl⟩ := mem_declared_iff.1 hx
        have := inj (of_decide_eq_true heq)
        cases this
        exact Nat.lt_irrefl _ (List.getElem?_eq_some_iff.1 hd).1
      rw [hfront, List.nil_append]
      exact List.filter_eq_self.2 (by simp)
    · have hindex : id.index ≠ front.length := fun heq => hlast (by cases id; exact congrArg _ heq)
      have hlt := (List.getElem?_eq_some_iff.1 hc).1
      rw [List.length_append, List.length_singleton] at hlt
      rw [List.getElem?_append_left (by omega)] at hc
      rw [ih hc, List.append_right_eq_self]
      refine List.filter_eq_nil_iff.2 ?_
      intro x hx heq
      obtain ⟨m, _, rfl⟩ := List.mem_map.1 hx
      exact hlast (inj (of_decide_eq_true heq)).symm

/-- The declarations of an owner are those of its entry. -/
theorem filter_propertyDeclarations {id : ClassId} (hc : doc.classes[id.index]? = some c) :
    doc.propertyDeclarations.filter (·.1 = .structured id) =
      c.properties.map (Prod.mk (.structured id)) := by
  have inj : Function.Injective Owner.structured := fun _ _ => Owner.structured.inj
  rw [propertyDeclarations, List.filter_append, filter_declared inj hc, List.append_right_eq_self]
  refine List.filter_eq_nil_iff.2 ?_
  intro x hx
  obtain ⟨e, _, rfl⟩ := List.mem_map.1 hx
  simp

theorem filter_propertyDeclarations_container :
    doc.propertyDeclarations.filter (·.1 = .container) =
      doc.container.properties.map (Prod.mk .container) := by
  have hclasses : (declared Owner.structured (·.properties) doc.classes).filter
      (·.1 = .container) = [] := by
    refine List.filter_eq_nil_iff.2 ?_
    intro x hx
    obtain ⟨_, _, _, _, _, rfl⟩ := mem_declared_iff.1 hx
    simp
  rw [propertyDeclarations, List.filter_append, hclasses, List.nil_append]
  exact List.filter_eq_self.2 (by simp)

theorem mem_propertyDeclarations_iff {id : ClassId} {e : PropertyEntry} :
    (.structured id, e) ∈ doc.propertyDeclarations ↔
      ∃ c, doc.classes[id.index]? = some c ∧ e ∈ c.properties := by
  rw [propertyDeclarations, List.mem_append, mem_declared_iff]
  constructor
  · rintro (⟨i, c, hc, e', he, heq⟩ | hmem)
    · cases heq
      exact ⟨c, hc, he⟩
    · obtain ⟨_, _, heq⟩ := List.mem_map.1 hmem
      cases heq
  · rintro ⟨c, hc, he⟩
    exact .inl ⟨id.index, c, hc, e, he, rfl⟩

theorem Below.mem (h : doc.Below d b) : d ∈ doc.classes ∧ b ∈ doc.classes := by
  induction h with
  | single h => exact ⟨h.1, h.2.1⟩
  | tail _ h ih => exact ⟨ih.1, h.2.1⟩

theorem HasProperty.of_above {name : String} (h : doc.HasProperty b name)
    (habove : b = c ∨ doc.Below c b) : doc.HasProperty c name := by
  obtain ⟨a, hab, hname⟩ := h
  rcases habove with rfl | hbelow
  · exact ⟨a, hab, hname⟩
  · rcases hab with rfl | hab
    · exact ⟨a, .inr hbelow, hname⟩
    · exact ⟨a, .inr (hbelow.trans hab), hname⟩

/-- A key comes from a class that declares it. -/
theorem KeyOf.exists_declaring {key : String} (h : doc.KeyOf c key) (hc : c ∈ doc.classes) :
    ∃ d ∈ doc.classes, (d = c ∨ doc.Below c d) ∧ d.key = some key := by
  induction h with
  | own hkey => exact ⟨_, hc, .inl rfl, hkey⟩
  | inherited _ hbase _ ih =>
    obtain ⟨d, hd, habove, hkey⟩ := ih hbase.2.1
    refine ⟨d, hd, .inr ?_, hkey⟩
    rcases habove with rfl | habove
    · exact .single hbase
    · exact .head hbase habove

end Document
end EdmCommands
