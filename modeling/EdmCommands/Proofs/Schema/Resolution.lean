import EdmCommands.Proofs.Schema.Types
import EdmCommands.Schema.OfDocument

/-!
# EdmCommands.Proofs.Schema.Resolution

The members of a graph beside the entries of a document that they come from. An entry names its
types; a member has the type and, apart from that, what the entry says.

* `typeNamed?`, `Draws`: the type that a name, or a written type, stands for in a graph.
* `FitsProperty`, `FitsMethod`: a member has the types that its entry names, under any reading of
  type names.
* `resolveProperty_eq_ok_iff`, `resolveMethod_eq_ok_iff`: what the members of a document become.
-/

namespace EdmCommands

namespace Edm

theorem Primitive.ofEdmName?_eq_some_iff {name : String} {p : Primitive} :
    Primitive.ofEdmName? name = some p ↔ p.edmName = name := by
  constructor
  · intro h
    simpa using List.find?_some h
  · rintro rfl
    cases p <;> decide

theorem isEdmName_edmName (p : Primitive) : isEdmName p.edmName = true := by
  cases p <;> decide

end Edm

namespace Document

open Schema (ClassId TypeRef Owner Property MethodParameter MethodReturn Method StructuredType
  EnumType)

def EnumEntry.type (e : EnumEntry) : EnumType :=
  { name := e.name, members := e.members, isFlags := e.isFlags }

/-- The class of an entry, without links and members. -/
def ClassEntry.type (c : ClassEntry) : StructuredType :=
  { name := c.name
    kind := c.kind
    isAbstract := c.isAbstract
    key := c.key
    description := c.description }

def PropertyEntry.property (e : PropertyEntry) (type : TypeRef) (owner : Owner) : Property :=
  { name := e.name
    type := type
    owner := owner
    isCollection := e.isCollection || (Edm.TypeName.ofText e.typeName).isCollection
    isComputed := e.isComputed
    isImmutable := e.isImmutable
    isReference := e.isReference
    nullable := e.nullable
    capabilities := e.capabilities
    description := e.description }

def ParameterEntry.parameter (e : ParameterEntry) (type : TypeRef) : MethodParameter :=
  { name := e.name
    type := type
    isCollection := e.isCollection || (Edm.TypeName.ofText e.typeName).isCollection
    nullable := e.nullable }

def ReturnEntry.result (e : ReturnEntry) (type : TypeRef) : MethodReturn :=
  { type := type
    isCollection := e.isCollection || (Edm.TypeName.ofText e.typeName).isCollection }

def MethodEntry.method (e : MethodEntry) (declaring : ClassId)
    (parameters : List MethodParameter) (returns : Option MethodReturn) : Method :=
  { name := e.name
    kind := e.kind
    declaring := declaring
    boundToCollection := e.boundToCollection
    parameters := parameters
    returns := returns
    description := e.description }

/-! Under a reading of written types, a member fits its entry. -/

section Fits

variable (reads : String → TypeRef → Prop)

def FitsProperty (declaration : Owner × PropertyEntry) (p : Property) : Prop :=
  ∃ type, reads declaration.2.typeName type ∧ p = declaration.2.property type declaration.1

def FitsParameter (e : ParameterEntry) (p : MethodParameter) : Prop :=
  ∃ type, reads e.typeName type ∧ p = e.parameter type

def FitsReturn (e : ReturnEntry) (r : MethodReturn) : Prop :=
  ∃ type, reads e.typeName type ∧ r = e.result type

def FitsMethod (declaration : ClassId × MethodEntry) (m : Method) : Prop :=
  ∃ parameters returns,
    List.Forall₂ (FitsParameter reads) declaration.2.parameters parameters ∧
      Option.Rel (FitsReturn reads) declaration.2.returns returns ∧
        m = declaration.2.method declaration.1 parameters returns

end Fits

theorem FitsMethod.parameterNames {reads : String → TypeRef → Prop} {x : ClassId × MethodEntry}
    {m : Method} (h : FitsMethod reads x m) :
    m.parameters.map (·.name) = x.2.parameters.map (·.name) := by
  obtain ⟨parameters, returns, hparameters, _, rfl⟩ := h
  refine Fallible.map_eq_map_of_forall₂ hparameters ?_
  rintro e p ⟨type, _, rfl⟩
  rfl

end Document

namespace Schema
namespace Graph

open Document (PropertyEntry MethodEntry ParameterEntry ReturnEntry ClassEntry EnumEntry
  FitsProperty FitsParameter FitsReturn FitsMethod)

/-- The type that the name of an element type stands for. -/
def typeNamed? (g : Graph) (name : String) : Option TypeRef :=
  if Edm.isEdmName name then (Edm.Primitive.ofEdmName? name).map .primitive
  else
    match g.findClass name with
    | some id => some (.structured id)
    | none => (g.findEnum name).map .enum

def Draws (g : Graph) (text : String) (type : TypeRef) : Prop :=
  g.typeNamed? (Edm.TypeName.ofText text).element = some type

variable {g g' : Graph} {location : String}

/-! ## Graphs with the same types -/

namespace SameTypes

variable (same : SameTypes g g')
include same

theorem findClass_eq : g'.findClass = g.findClass := by
  funext name
  rw [Graph.findClass_eq, Graph.findClass_eq, same.heads, same.simpleName_eq]

theorem draws_eq : g'.Draws = g.Draws := by
  have henum : g'.findEnum = g.findEnum := by
    funext name
    rw [Graph.findEnum_eq, Graph.findEnum_eq, same.enums, same.simpleName_eq]
  funext text type
  rw [Draws, Draws, typeNamed?, typeNamed?, same.findClass_eq, henum]

end SameTypes

theorem isEntityType_eq_ok_true_iff {type : TypeRef} : g.isEntityType type = .ok true ↔
    ∃ id c, type = .structured id ∧ g.heads[id.index]? = some c ∧ c.kind = .entity := by
  cases type with
  | primitive p => simp [isEntityType]
  | enum id => simp [isEntityType]
  | structured id =>
    have hkind : ∀ c : StructuredType, c.isEntity = true ↔ c.kind = .entity := by
      intro c
      simp [StructuredType.isEntity]
    simp only [isEntityType, Fallible.map_eq_ok_iff, classAt_eq_ok_iff, heads_getElem?, hkind]
    constructor
    · rintro ⟨c, hc, hentity⟩
      exact ⟨id, c.head, rfl, by rw [hc]; rfl, hentity⟩
    · rintro ⟨_, _, heq, hc, hentity⟩
      cases heq
      obtain ⟨c, hfound, rfl⟩ := Option.map_eq_some_iff.1 hc
      exact ⟨c, hfound, hentity⟩

/-! ## Members and their entries -/

theorem resolveType_eq_ok_iff {text : String} {type : TypeRef} {wrapped : Bool} :
    g.resolveType text location = .ok (type, wrapped) ↔
      g.Draws text type ∧ wrapped = (Edm.TypeName.ofText text).isCollection := by
  unfold resolveType Draws typeNamed?
  cases Edm.TypeName.ofText text with
  | mk name isCollection =>
    simp only
    split
    · cases Edm.Primitive.ofEdmName? name <;> simp [eq_comm]
    · cases g.findClass name with
      | some id => simp [eq_comm]
      | none => cases g.findEnum name <;> simp [eq_comm]

-- the reading of a text is rewritten and not substituted: substitution would try to evaluate it

theorem resolveProperty_eq_ok_iff {e : PropertyEntry} {p : Property} :
    g.resolveProperty location e = .ok p ↔ FitsProperty g.Draws (.container, e) p ∧
      (e.isReference = true → g.isEntityType p.type = .ok true) := by
  unfold resolveProperty
  simp only [Fallible.bind_eq_ok_iff, Prod.exists, resolveType_eq_ok_iff]
  constructor
  · rintro ⟨type, wrapped, ⟨hdraws, hwrapped⟩, h⟩
    rw [hwrapped] at h
    split at h
    · obtain ⟨entity, hentity, h⟩ := Fallible.bind_eq_ok_iff.1 h
      cases entity with
      | false => cases h
      | true =>
        cases h
        exact ⟨⟨type, hdraws, rfl⟩, fun _ => hentity⟩
    · rename_i href
      cases h
      exact ⟨⟨type, hdraws, rfl⟩, fun h => absurd h href⟩
  · rintro ⟨⟨type, hdraws, rfl⟩, hentity⟩
    refine ⟨type, _, ⟨hdraws, rfl⟩, ?_⟩
    split
    · rename_i href
      rw [show g.isEntityType type = .ok true from hentity href]
      rfl
    · rfl

theorem resolveParameter_eq_ok_iff {e : ParameterEntry} {p : MethodParameter} :
    g.resolveParameter location e = .ok p ↔ FitsParameter g.Draws e p := by
  unfold resolveParameter
  simp only [Fallible.bind_eq_ok_iff, Prod.exists, resolveType_eq_ok_iff]
  constructor
  · rintro ⟨type, wrapped, ⟨hdraws, hwrapped⟩, h⟩
    rw [hwrapped] at h
    cases h
    exact ⟨type, hdraws, rfl⟩
  · rintro ⟨type, hdraws, rfl⟩
    exact ⟨type, _, ⟨hdraws, rfl⟩, rfl⟩

theorem resolveReturn_eq_ok_iff {e : ReturnEntry} {r : MethodReturn} :
    (do
      let (type, wrapped) ← g.resolveType e.typeName location
      return ({ type := type, isCollection := e.isCollection || wrapped } : MethodReturn)) = .ok r ↔
      FitsReturn g.Draws e r := by
  simp only [Fallible.bind_eq_ok_iff, Prod.exists, resolveType_eq_ok_iff]
  constructor
  · rintro ⟨type, wrapped, ⟨hdraws, hwrapped⟩, h⟩
    rw [hwrapped] at h
    cases h
    exact ⟨type, hdraws, rfl⟩
  · rintro ⟨type, hdraws, rfl⟩
    exact ⟨type, _, ⟨hdraws, rfl⟩, rfl⟩

theorem resolveMethod_eq_ok_iff {e : MethodEntry} {m : Method} :
    g.resolveMethod location e = .ok m ↔ FitsMethod g.Draws (⟨0⟩, e) m := by
  have hparameters : ∀ l, e.parameters.mapM (g.resolveParameter location) = .ok l ↔
      List.Forall₂ (FitsParameter g.Draws) e.parameters l := by
    intro l
    rw [Fallible.mapM_eq_ok_iff]
    simp only [resolveParameter_eq_ok_iff]
  unfold resolveMethod
  rw [Fallible.bind_eq_ok_iff]
  constructor
  · rintro ⟨parameters, hparams, h⟩
    obtain ⟨returns, hreturns, h⟩ := Fallible.bind_eq_ok_iff.1 h
    rw [Fallible.optionMapM_eq_ok_iff] at hreturns
    simp only [resolveReturn_eq_ok_iff] at hreturns
    cases h
    exact ⟨parameters, returns, (hparameters _).1 hparams, hreturns, rfl⟩
  · rintro ⟨parameters, returns, hparams, hreturns, rfl⟩
    refine ⟨parameters, (hparameters _).2 hparams, Fallible.bind_eq_ok_iff.2 ⟨returns, ?_, rfl⟩⟩
    rw [Fallible.optionMapM_eq_ok_iff]
    simp only [resolveReturn_eq_ok_iff]
    exact hreturns

end Graph
end Schema
end EdmCommands
