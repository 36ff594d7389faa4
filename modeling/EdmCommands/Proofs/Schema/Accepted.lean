import EdmCommands.Proofs.Schema.Types
import EdmCommands.Proofs.Schema.Ownership

/-!
# EdmCommands.Proofs.Schema.Accepted

When the operations that build a graph are accepted. In a forest the walks up and down come to an
end, so an operation on classes that are there can be refused only for what it checks.

* `exists_setBase_of_apart`, `exists_addProperty`, `exists_addContainerProperty`,
  `exists_addMethod`: what is enough for each operation.
* `keyProperty_eq`: which key a class has, and when it is found.
-/

namespace EdmCommands
namespace Schema
namespace Graph

variable {g : Graph} {id : ClassId} {above : List ClassId} {ids : List PropertyId}

/-! ## Operations -/

theorem firstNamedIn_eq_none_of {names : List String}
    (free : ∀ p ∈ ids, ∀ q, g.properties[p.index]? = some q → q.name ∉ names) :
    g.firstNamedIn names ids = none := by
  refine List.find?_eq_none.2 ?_
  intro p hp
  cases hq : g.properties[p.index]? with
  | none => simp
  | some q => simpa using free p hp q hq

theorem mem_propertyNames_iff {name : String} : name ∈ g.propertyNames ids ↔
    ∃ p ∈ ids, ∃ q, g.properties[p.index]? = some q ∧ q.name = name := by
  simp [propertyNames, List.mem_filterMap, Option.map_eq_some_iff]

/-- Two classes can be linked when that closes no cycle and no name is declared both at or above
the base and at or below the class. -/
theorem exists_setBase_of_apart (hf : g.Forest) {derived base : ClassId}
    (known : g.IsClass derived) (hbase : g.IsClass base) (acyclic : ¬ g.Within base derived)
    (apart : ∀ x y, g.Within base x → g.Within y derived → ∀ p ∈ g.ownProperties x,
      ∀ q ∈ g.ownProperties y, ∀ p' q', g.properties[p.index]? = some p' →
        g.properties[q.index]? = some q' → p'.name ≠ q'.name) :
    ∃ g', g.setBase derived base = .ok g' := by
  obtain ⟨d, hd⟩ := isClass_iff.1 known
  obtain ⟨b, hb⟩ := isClass_iff.1 hbase
  obtain ⟨above, habove, hchain⟩ := hf.exists_ancestors hbase
  have within : ∀ x ∈ base :: above, g.Within base x := by
    intro x hx
    rcases List.mem_cons.1 hx with rfl | hx
    · exact .inl rfl
    · exact .inr (hchain.mem_iff.1 hx)
  have hlead : g.leadsTo derived (g.classes.size + 1) (some base) = false := by
    have hlen := hf.length_lt hbase hchain
    rw [leadsTo_eq hchain (by omega)]
    exact decide_eq_false fun hmem => acyclic (within derived hmem)
  have below : ∀ y ∈ derived :: g.below derived, g.IsClass y ∧ g.Within y derived := by
    intro y hy
    rcases List.mem_cons.1 hy with rfl | hy
    · exact ⟨known, .inl rfl⟩
    · exact ⟨isClass_of_mem_below hf hy, .inr ((mem_below_iff hf).1 hy)⟩
  have hinherited := gather_properties_eq (isClass_of_mem_chain hf hbase hchain)
  have hbelow := descendants_eq hf known
  have hdeclared := gather_properties_eq fun y hy => (below y hy).1
  have hfree : g.firstNamedIn (g.propertyNames ((base :: above).flatMap g.ownProperties))
      ((derived :: g.below derived).flatMap g.ownProperties) = none := by
    refine firstNamedIn_eq_none_of ?_
    intro q hq q' hq' hname
    obtain ⟨y, hy, hqy⟩ := List.mem_flatMap.1 hq
    obtain ⟨p, hp, p', hp', hsame⟩ := mem_propertyNames_iff.1 hname
    obtain ⟨x, hx, hpx⟩ := List.mem_flatMap.1 hp
    exact apart x y (within x hx) (below y hy).2 p hpx q hqy p' q' hp' hq' hsame
  refine ⟨g.relink derived base d.base, ?_⟩
  unfold setBase
  simp only [hd, hb, hlead, habove, hinherited, hbelow, hdeclared, hfree, bind, Except.bind]
  rfl

/-- Two classes without members can be linked as long as that closes no cycle. -/
theorem exists_setBase (hf : g.Forest) {derived base : ClassId} (known : g.IsClass derived)
    (hbase : g.IsClass base) (bare : ∀ x, g.ownProperties x = [])
    (acyclic : ¬ g.Within base derived) : ∃ g', g.setBase derived base = .ok g' := by
  refine exists_setBase_of_apart hf known hbase acyclic ?_
  intro x _ _ _ p hp
  rw [bare x] at hp
  cases hp

theorem firstDeclaring_eq_ok_none {name : String} {classes : List ClassId}
    (known : ∀ x ∈ classes, g.IsClass x)
    (free : ∀ x ∈ classes, ∀ p ∈ g.ownProperties x, ∀ q, g.properties[p.index]? = some q →
      q.name ≠ name) : g.firstDeclaring name classes = .ok none := by
  induction classes with
  | nil => rfl
  | cons x rest ih =>
    rw [List.forall_mem_cons] at known free
    obtain ⟨c, hc⟩ := isClass_iff.1 known.1
    have hfirst : g.firstNamedIn [name] c.properties = none := by
      rw [← ownProperties_of_classAt hc]
      refine firstNamedIn_eq_none_of ?_
      intro p hp q hq
      simpa using free.1 p hp q hq
    unfold firstDeclaring
    simp only [hc, hfirst]
    exact ih known.2 free.2

/-- A property is accepted when its name is free on the class, above it and below it. -/
theorem exists_addProperty (hf : g.Forest) (known : g.IsClass id) {p : Property}
    (free : ∀ x, g.Within id x ∨ g.Within x id → ∀ q ∈ g.ownProperties x, ∀ r,
      g.properties[q.index]? = some r → r.name ≠ p.name) :
    ∃ result, g.addProperty id p = .ok result := by
  obtain ⟨c, hc⟩ := isClass_iff.1 known
  obtain ⟨above, habove, hchain⟩ := hf.exists_ancestors known
  have hbelow := descendants_eq hf known
  have related : ∀ x ∈ id :: (above ++ g.below id),
      g.IsClass x ∧ (g.Within id x ∨ g.Within x id) := by
    intro x hx
    rcases List.mem_cons.1 hx with rfl | hx
    · exact ⟨known, .inl (.inl rfl)⟩
    rcases List.mem_append.1 hx with hx | hx
    · have hderives := hchain.mem_iff.1 hx
      exact ⟨(hf.isClass_of_derives hderives).2, .inl (.inr hderives)⟩
    · exact ⟨isClass_of_mem_below hf hx, .inr (.inr ((mem_below_iff hf).1 hx))⟩
  have hfree : g.firstDeclaring p.name (id :: (above ++ g.below id)) = .ok none :=
    firstDeclaring_eq_ok_none (fun x hx => (related x hx).1)
      (fun x hx => free x (related x hx).2)
  unfold addProperty
  simp only [hc, habove, hbelow, hfree, bind, Except.bind]
  exact ⟨_, rfl⟩

theorem exists_addContainerProperty {p : Property}
    (free : ∀ q ∈ g.container.properties, ∀ r, g.properties[q.index]? = some r → r.name ≠ p.name) :
    ∃ result, g.addContainerProperty p = .ok result := by
  have hfirst : g.firstNamedIn [p.name] g.container.properties = none := by
    refine firstNamedIn_eq_none_of ?_
    intro q hq r hr
    simpa using free q hq r hr
  unfold addContainerProperty
  rw [hfirst]
  exact ⟨_, rfl⟩

theorem exists_addMethod (known : g.IsClass id) {m : Method}
    (distinct : (m.parameters.map (·.name)).Nodup) : ∃ result, g.addMethod id m = .ok result := by
  obtain ⟨c, hc⟩ := isClass_iff.1 known
  have hfirst : Naming.firstRepeated [] (m.parameters.map (·.name)) = none :=
    Naming.firstRepeated_eq_none_iff.2 ⟨distinct, by simp⟩
  unfold addMethod
  simp only [hc, hfirst, bind, Except.bind]
  exact ⟨_, rfl⟩

/-! ## Keys -/

def ownKey (g : Graph) (id : ClassId) : Option String :=
  g.classes[id.index]?.bind (·.key)

theorem ownKey_of_classAt {c : StructuredType} (h : g.classAt id = .ok c) :
    g.ownKey id = c.key := by
  simp [ownKey, (classAt_eq_ok_iff g).1 h]

theorem firstKey_eq {classes : List ClassId} (known : ∀ x ∈ classes, g.IsClass x) :
    g.firstKey classes = .ok (classes.findSome? g.ownKey) := by
  induction classes with
  | nil => rfl
  | cons x rest ih =>
    rw [List.forall_mem_cons] at known
    obtain ⟨c, hc⟩ := isClass_iff.1 known.1
    unfold firstKey
    rw [List.findSome?_cons, ownKey_of_classAt hc, ih known.2]
    simp only [hc]
    cases c.key <;> rfl

theorem keyName_eq (hf : g.Forest) (known : g.IsClass id) (hchain : BaseChain g id above) :
    g.keyName id = .ok ((id :: above).findSome? g.ownKey) := by
  obtain ⟨c, hc⟩ := isClass_iff.1 known
  have habove := ancestors_eq hf known hchain
  have hrest : g.firstKey above = .ok (above.findSome? g.ownKey) := by
    refine firstKey_eq ?_
    intro x hx
    exact isClass_of_mem_chain hf known hchain x (List.mem_cons_of_mem _ hx)
  unfold keyName
  rw [List.findSome?_cons, ownKey_of_classAt hc]
  simp only [hc, habove]
  cases c.key with
  | some key => rfl
  | none => exact hrest

theorem findNamed_eq {name : String} (known : ∀ p ∈ ids, ∃ q, g.propertyAt p = .ok q) :
    g.findNamed name ids = .ok (ids.find? fun p => g.nameOf p == name) := by
  induction ids with
  | nil => rfl
  | cons p rest ih =>
    rw [List.forall_mem_cons] at known
    obtain ⟨⟨q, hq⟩, hrest⟩ := known
    have hname := nameOf_of_getElem? ((propertyAt_eq_ok_iff g).1 hq)
    unfold findNamed
    rw [List.find?_cons, hname, ih hrest]
    simp only [hq]
    cases q.name == name <;> rfl

/-- A class has the key that is nearest along its bases, and the property that the key names. -/
theorem keyProperty_eq (hf : g.Forest) (hw : g.WellOwned) (known : g.IsClass id)
    (hchain : BaseChain g id above) (hids : g.allProperties id = .ok ids) :
    (∀ p, g.keyProperty id = .ok (some p) ↔ ∃ key, (id :: above).findSome? g.ownKey = some key ∧
      ids.find? (fun p => g.nameOf p == key) = some p) ∧
    (g.keyProperty id = .ok none ↔ (id :: above).findSome? g.ownKey = none) := by
  have hname := keyName_eq hf known hchain
  obtain ⟨c, hc⟩ := isClass_iff.1 known
  have hfind : ∀ key, g.findNamed key ids = .ok (ids.find? fun p => g.nameOf p == key) := by
    intro key
    refine findNamed_eq ?_
    intro p hp
    obtain ⟨x, _, hown⟩ := (mem_allProperties_iff hf hids).1 hp
    obtain ⟨q, hq, _⟩ := hw.own_known hown
    exact ⟨q, (propertyAt_eq_ok_iff g).2 hq⟩
  unfold keyProperty
  rw [hname]
  cases (id :: above).findSome? g.ownKey with
  | none => simp
  | some key =>
    simp only [hids, hfind, hc]
    cases hfound : ids.find? (fun p => g.nameOf p == key) <;> simp [hfound]

theorem isClass_of_keyProperty {key : Option PropertyId} (h : g.keyProperty id = .ok key) :
    g.IsClass id := by
  cases hc : g.classAt id with
  | ok c => exact isClass_iff.2 ⟨c, hc⟩
  | error fault => simp [keyProperty, keyName, hc] at h

/-- The key of a class is a property that it has or inherits. -/
theorem member_of_keyProperty (hf : g.Forest) (hw : g.WellOwned) {p : PropertyId}
    (h : g.keyProperty id = .ok (some p)) :
    ∃ owner, g.Within id owner ∧ p ∈ g.ownProperties owner := by
  obtain ⟨above, hchain⟩ := hf.chain id
  have known := isClass_of_keyProperty h
  have hids := allProperties_eq hf known hchain
  obtain ⟨_, _, hfound⟩ := ((keyProperty_eq hf hw known hchain hids).1 p).1 h
  exact (mem_allProperties_iff hf hids).1 (List.mem_of_find?_eq_some hfound)

theorem owned_of_keyProperty (hf : g.Forest) (hw : g.WellOwned) {p : PropertyId}
    (h : g.keyProperty id = .ok (some p)) : ∃ owner, p ∈ g.ownProperties owner := by
  obtain ⟨owner, _, hown⟩ := member_of_keyProperty hf hw h
  exact ⟨owner, hown⟩

end Graph
end Schema
end EdmCommands
