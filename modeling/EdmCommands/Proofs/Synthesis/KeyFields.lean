import EdmCommands.Proofs.Schema.Accepted
import EdmCommands.Proofs.Synthesis.FieldClasses
import EdmCommands.Schema.OfDocument

/-!
# EdmCommands.Proofs.Synthesis.KeyFields

Whether the identifier of an entity is a field of its body. Of all the properties of a hierarchy
resolving leaves out one, the key of the base, and so the key of a class below is left out when it
is this one. A class that declares a key of its own, under a base that has another one or none, has
it among its fields.

* `keyField_iff_of_resolve`: when the set of a class has a field that is called as its key.
* `key_sent_under_keyless_base`: a book is sent with its number.
-/

namespace EdmCommands
namespace Synthesis

open Schema

variable {g : Graph} {base d : ClassId} {c c' : Command} {k : PropertyId}

theorem has_of_keyProperty (hb : g.Built) (hk : g.keyProperty d = .ok (some k)) : g.Has d k :=
  Graph.member_of_keyProperty hb.forest hb.wellOwned hk

/-- The key is the only property of its name, so it stands for the field. -/
theorem exists_sent_iff (hb : g.Built) (hk : g.Has d k) {operation : OperationKind} :
    (∃ p, g.Has d p ∧ g.nameOf p = g.nameOf k ∧ Sent g base operation p) ↔
      Sent g base operation k := by
  constructor
  · rintro ⟨p, hp, hname, hsent⟩
    obtain rfl := property_unique hb.wellOwned hp hk hname
    exact hsent
  · intro hsent
    exact ⟨k, hk, rfl, hsent⟩

/-- The set of a class has a field that is called as the key of the class when it had one before, or
when a class that the set is for has a property of this name that is sent. A class that has its set
for itself, as all do whose name no other one has, sends its key unless the operation can not
or the key is that of the base too. -/
theorem keyField_iff_of_resolve (hb : g.Built) (h : resolve g base c = (c', none))
    (hd : d ∈ g.concrete base) (hk : g.keyProperty d = .ok (some k)) :
    ∃ set, classSet g c' d = some set ∧
      (HasField c' (g.nameOf k) set ↔ HasField c (g.nameOf k) set ∨
        ∃ e ∈ g.concrete base, classSet g c' e = some set ∧
          ∃ p, g.Has e p ∧ g.nameOf p = g.nameOf k ∧ Sent g base c.operation p) ∧
      ((∀ e ∈ g.concrete base, classSet g c' e = some set → e = d) →
        (HasField c' (g.nameOf k) set ↔
          HasField c (g.nameOf k) set ∨ Sent g base c.operation k)) ∧
      (c.sets = [] → ∀ e, classSet g c' e = some set ↔ g.className e = g.className d) := by
  obtain ⟨set, hset⟩ := exists_classSet_of_resolve hb h hd
  have hfield : HasField c' (g.nameOf k) set ↔ _ := hasField_iff_of_resolve hb h
  refine ⟨set, hset, hfield, fun alone => ?_, fun noSets e =>
    classSet_eq_iff_of_resolve hb noSets h hset⟩
  rw [hfield, ← exists_sent_iff hb (has_of_keyProperty hb hk)]
  refine or_congr_right ⟨?_, fun hsent => ⟨d, hd, hset, hsent⟩⟩
  rintro ⟨e, he, hother, hsent⟩
  obtain rfl := alone e he hother
  exact hsent

theorem keyField_of_library :
    ∃ c', resolve Graph.library ⟨0⟩ newItem = (c', none) ∧
      ⟨1⟩ ∈ Graph.library.concrete ⟨0⟩ ∧ Graph.library.keyProperty ⟨1⟩ = .ok (some ⟨0⟩) ∧
      ∃ set, classSet Graph.library c' ⟨1⟩ = some set ∧ ¬ HasField c' "id" set := by
  have done : (resolve Graph.library ⟨0⟩ newItem).2 = none := by decide +kernel
  have h : resolve Graph.library ⟨0⟩ newItem =
      ((resolve Graph.library ⟨0⟩ newItem).1, none) := Prod.ext rfl done
  have hd : ⟨1⟩ ∈ Graph.library.concrete ⟨0⟩ := by decide +kernel
  have hk : Graph.library.keyProperty ⟨1⟩ = .ok (some ⟨0⟩) := by decide +kernel
  have base : Graph.library.keyProperty ⟨0⟩ = .ok (some ⟨0⟩) := by decide +kernel
  obtain ⟨set, hset, _, halone, hnames⟩ := keyField_iff_of_resolve Graph.library_built h hd hk
  refine ⟨_, h, hd, hk, set, hset, ?_⟩
  have others : ∀ e ∈ Graph.library.concrete ⟨0⟩,
      Graph.library.className e = Graph.library.className ⟨1⟩ → e = ⟨1⟩ := by decide +kernel
  have name : Graph.library.nameOf ⟨0⟩ = "id" := by decide
  rw [← name, halone fun e he hother => others e he ((hnames rfl e).1 hother)]
  rintro (⟨p, hp, _⟩ | hsent)
  · cases hp
  · exact hsent.not_key base

/-- Items have no key of their own, and books have a number. -/
def numberedBooks : Document :=
  { namespaceName := "shop"
    container := { name := "Shop", properties := [{ name := "item", typeName := "Item" }] }
    classes := [
      { name := "Item", isAbstract := true },
      { name := "Book", base := some "Item", key := some "isbn"
        properties := [
          { name := "isbn", typeName := "Edm.String" },
          { name := "title", typeName := "Edm.String" }] }] }

def numberedBooksGraph : Graph :=
  (Graph.ofDocument numberedBooks).toOption.getD (Graph.empty "shop" "Shop")

theorem key_sent_under_keyless_base :
    ¬ ∀ (doc : Document) (g : Graph) (base d : ClassId) (c c' : Command) (k : PropertyId)
      (set : String), Graph.ofDocument doc = .ok g → c.sets = [] → c.parameters = [] →
        c.operation = .post ∨ c.operation = .patch → resolve g base c = (c', none) →
        d ∈ g.concrete base → g.keyProperty d = .ok (some k) → classSet g c' d = some set →
        ¬ HasField c' (g.nameOf k) set := by
  intro unsent
  have drawn : Graph.ofDocument numberedBooks = .ok numberedBooksGraph := by decide +kernel
  have done : (resolve numberedBooksGraph ⟨0⟩ newItem).2 = none := by decide +kernel
  have sent : HasField (resolve numberedBooksGraph ⟨0⟩ newItem).1
      (numberedBooksGraph.nameOf ⟨0⟩) "Book" := by
    unfold HasField
    decide +kernel
  exact unsent numberedBooks numberedBooksGraph ⟨0⟩ ⟨1⟩ newItem _ ⟨0⟩ "Book" drawn rfl rfl
    (.inl rfl) (Prod.ext rfl done) (by decide +kernel) (by decide +kernel) (by decide +kernel) sent

end Synthesis
end EdmCommands
