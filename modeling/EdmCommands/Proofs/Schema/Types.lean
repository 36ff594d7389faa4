import EdmCommands.Proofs.Schema.Operations
import EdmCommands.Proofs.Text.Trim

/-!
# EdmCommands.Proofs.Schema.Types

The types of a graph: what its classes say of themselves, apart from their links and members, and
its enumerations. Only two operations add to them; the others leave them as they are, and with them
everything that is looked up by name.

* `heads`: the classes without links and members.
* `SameTypes`: two graphs with the same types; one lemma for each operation that keeps them.
* `findClass_eq_some_iff`, `findEnum_eq_some_iff`: what a look-up by name finds.
* `simpleName_qualified`, `simpleName_of_not_qualified`: the name that is looked for.
-/

namespace EdmCommands
namespace Schema

/-- A class without its links and members. -/
def StructuredType.head (c : StructuredType) : StructuredType :=
  { c with base := none, properties := [], methods := [], derived := [] }

namespace Graph

/-- The classes without their links and members. -/
def heads (g : Graph) : List StructuredType :=
  g.classes.toList.map (·.head)

/-- The graphs differ in links and members only. -/
structure SameTypes (g g' : Graph) : Prop where
  namespaceName : g'.namespaceName = g.namespaceName
  containerName : g'.container.name = g.container.name
  enums : g'.enums = g.enums
  heads : g'.heads = g.heads

variable {g g' : Graph} {id : ClassId} {c : StructuredType} {name rest : String}

/-! ## Operations on links and members -/

theorem heads_modify {classes : Array StructuredType} {i : Nat}
    {f : StructuredType → StructuredType} (same : ∀ c, (f c).head = c.head) :
    (classes.modify i f).toList.map (·.head) = classes.toList.map (·.head) := by
  refine List.ext_getElem? fun k => ?_
  simp only [List.getElem?_map, Array.getElem?_toList, Array.getElem?_modify]
  split
  · cases classes[k]? <;> simp [same]
  · rfl

namespace SameTypes

theorem setBase {derived base : ClassId} (h : g.setBase derived base = .ok g') :
    SameTypes g g' := by
  obtain ⟨_, _, _, _, _, _, _, _, _, _, _, _, rfl⟩ := setBase_eq_ok h
  refine ⟨rfl, rfl, rfl, ?_⟩
  refine List.ext_getElem? fun k => ?_
  have hclass : ∀ id : ClassId, (g.relink derived base (g.baseOf derived)).classes[id.index]? = _ :=
    classes_relink
  simp only [Graph.heads, List.getElem?_map, Array.getElem?_toList, hclass ⟨k⟩]
  cases g.classes[k]? <;> rfl

theorem addProperty {owner : ClassId} {p : Property} {new : PropertyId}
    (h : g.addProperty owner p = .ok (g', new)) : SameTypes g g' := by
  obtain ⟨_, _, _, _, _, _, rfl⟩ := addProperty_eq_ok h
  exact ⟨rfl, rfl, rfl, heads_modify fun _ => rfl⟩

theorem addContainerProperty {p : Property} {new : PropertyId}
    (h : g.addContainerProperty p = .ok (g', new)) : SameTypes g g' := by
  obtain ⟨_, rfl⟩ := addContainerProperty_eq_ok h
  exact ⟨rfl, rfl, rfl, rfl⟩

theorem addMethod {owner : ClassId} {m : Method} {new : MethodId}
    (h : g.addMethod owner m = .ok (g', new)) : SameTypes g g' := by
  obtain rfl := addMethod_eq_ok h
  exact ⟨rfl, rfl, rfl, heads_modify fun _ => rfl⟩

theorem simpleName_eq (same : SameTypes g g') : g'.simpleName = g.simpleName := by
  funext name
  rw [simpleName, simpleName, same.namespaceName]

end SameTypes

/-! ## Operations on types -/

theorem addClass_eq_ok_iff {result : Graph × ClassId} :
    g.addClass c = .ok result ↔
      g.findClass c.name = none ∧
        result = ({ g with classes := g.classes.push c }, ⟨g.classes.size⟩) := by
  unfold Graph.addClass
  cases g.findClass c.name <;> simp [eq_comm]

theorem addEnum_eq_ok_iff {e : EnumType} {result : Graph × EnumId} :
    g.addEnum e = .ok result ↔
      (g.findClass e.name = none ∧ g.findEnum e.name = none) ∧
        result = ({ g with enums := g.enums.push e }, ⟨g.enums.size⟩) := by
  unfold Graph.addEnum
  cases g.findClass e.name <;> cases g.findEnum e.name <;> simp [eq_comm]

/-! ## Names that are looked up -/

theorem simpleName_qualified (rest : String) :
    g.simpleName (g.namespaceName ++ "." ++ rest) = rest := by
  have hspace : Text.stripStart? g.namespaceName (g.namespaceName ++ "." ++ rest) =
      some ("." ++ rest) := Text.stripStart?_eq_some_iff.2 (String.append_assoc ..)
  have hdot : Text.stripStart? "." ("." ++ rest) = some rest :=
    Text.stripStart?_eq_some_iff.2 rfl
  rw [simpleName, hspace, Option.bind_some, hdot, Option.getD_some]

theorem simpleName_of_not_qualified (h : ∀ rest, name ≠ g.namespaceName ++ "." ++ rest) :
    g.simpleName name = name := by
  unfold simpleName
  cases hspace : Text.stripStart? g.namespaceName name with
  | none => rfl
  | some dotted =>
    cases hdot : Text.stripStart? "." dotted with
    | none => rw [Option.bind_some, hdot, Option.getD_none]
    | some rest =>
      refine absurd ?_ (h rest)
      rw [Text.stripStart?_eq_some_iff.1 hspace, Text.stripStart?_eq_some_iff.1 hdot,
        String.append_assoc]

theorem simpleName_qualify (plain : g.namespaceName.isEmpty = true → g.simpleName name = name) :
    g.simpleName (g.qualify name) = name := by
  unfold qualify
  split
  · rename_i hempty
    exact plain hempty
  · exact simpleName_qualified name

/-! ## Look-ups -/

theorem heads_getElem? {i : Nat} : g.heads[i]? = g.classes[i]?.map (·.head) := by
  rw [heads, List.getElem?_map, Array.getElem?_toList]

theorem findClass_eq : g.findClass name =
    (g.heads.findIdx? fun c => c.name == g.simpleName name).map ClassId.mk := by
  unfold findClass heads
  rw [List.findIdx?_map, ← List.findIdx?_toArray, Array.toArray_toList]
  rfl

theorem findEnum_eq : g.findEnum name =
    (g.enums.toList.findIdx? fun e => e.name == g.simpleName name).map EnumId.mk := by
  unfold findEnum
  rw [← List.findIdx?_toArray, Array.toArray_toList]

/-- The first class of the simple name is found. -/
theorem findClass_eq_some_iff : g.findClass name = some id ↔
    (∃ c, g.heads[id.index]? = some c ∧ c.name = g.simpleName name) ∧
      ∀ j < id.index, ∀ d, g.heads[j]? = some d → d.name ≠ g.simpleName name := by
  rw [findClass_eq, Option.map_eq_some_iff]
  simp only [List.findIdx?_eq_some_iff_getElem, beq_iff_eq]
  constructor
  · rintro ⟨i, ⟨hlt, hname, hfirst⟩, rfl⟩
    refine ⟨⟨g.heads[i], List.getElem?_eq_getElem hlt, hname⟩, ?_⟩
    intro j hj d hd
    obtain ⟨_, rfl⟩ := List.getElem?_eq_some_iff.1 hd
    exact hfirst j hj
  · rintro ⟨⟨c, hc, hname⟩, hfirst⟩
    obtain ⟨hlt, rfl⟩ := List.getElem?_eq_some_iff.1 hc
    exact ⟨id.index, ⟨hlt, hname, fun j hj => hfirst j hj _ (List.getElem?_eq_getElem _)⟩, rfl⟩

theorem findClass_eq_none_iff :
    g.findClass name = none ↔ ∀ c ∈ g.heads, c.name ≠ g.simpleName name := by
  rw [findClass_eq, Option.map_eq_none_iff, List.findIdx?_eq_none_iff]
  simp

theorem findEnum_eq_none_iff :
    g.findEnum name = none ↔ ∀ e ∈ g.enums, e.name ≠ g.simpleName name := by
  rw [findEnum_eq, Option.map_eq_none_iff, List.findIdx?_eq_none_iff]
  simp

end Graph
end Schema
end EdmCommands
