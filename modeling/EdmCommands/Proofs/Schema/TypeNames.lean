import EdmCommands.Proofs.Schema.Runs
import EdmCommands.Proofs.Schema.Types

/-!
# EdmCommands.Proofs.Schema.TypeNames

The names of types, after any run of operations. The operations that add a type look for its name
without the namespace in front but store it as it is, and the one that adds a class does not look
at the enumerations. So names with the namespace in front, and names that a class shares with an
enumeration, get past the check.

* `TypesNamed`: type names are distinct and lead back to the classes that have them.
* `NamesChecked`: what the checks make sure of in any case.
* `typesNamed_iff_of_attempts`: when the one follows from the other.
* `genres_not_typesNamed`: a class that takes the name of an enumeration.
-/

namespace EdmCommands
namespace Schema
namespace Graph

def classNames (g : Graph) : List String :=
  g.classes.toList.map (·.name)

def enumNames (g : Graph) : List String :=
  g.enums.toList.map (·.name)

/-- No two types have one name, and each class is found by its simple and by its qualified name. -/
structure TypesNamed (g : Graph) : Prop where
  distinct : (g.classNames ++ g.enumNames).Nodup
  simple : ∀ id c, g.classAt id = .ok c → g.findClass c.name = some id
  qualified : ∀ id name, g.qualifiedName id = .ok name → g.findClass name = some id

/-- No class has the name that a later one is looked for under, and no enumeration. -/
structure NamesChecked (g : Graph) : Prop where
  classes : g.classNames.Pairwise fun earlier later => earlier ≠ g.simpleName later
  enums : g.enumNames.Pairwise fun earlier later => earlier ≠ g.simpleName later

variable {g g' : Graph} {ops : List Operation} {id : ClassId} {c : StructuredType}

theorem classNames_eq : g.classNames = g.heads.map (·.name) := by
  rw [heads, List.map_map]
  rfl

theorem mem_classNames_iff {name : String} :
    name ∈ g.classNames ↔ ∃ c ∈ g.classes, c.name = name := by
  simp [classNames]

/-! ## What the checks make sure of -/

theorem NamesChecked.congr (h : g.NamesChecked) (same : SameTypes g g') : g'.NamesChecked := by
  refine ⟨?_, ?_⟩
  · rw [classNames_eq, same.heads, ← classNames_eq, same.simpleName_eq]
    exact h.classes
  · rw [enumNames, same.enums, same.simpleName_eq]
    exact h.enums

theorem NamesChecked.addClass (h : g.NamesChecked) (hadd : g.addClass c = .ok (g', id)) :
    g'.NamesChecked := by
  obtain ⟨hfree, heq⟩ := addClass_eq_ok_iff.1 hadd
  cases heq
  refine ⟨?_, h.enums⟩
  have hnames : classNames { g with classes := g.classes.push c } = g.classNames ++ [c.name] := by
    simp [classNames]
  rw [hnames, List.pairwise_append]
  refine ⟨h.classes, List.pairwise_singleton _ _, ?_⟩
  intro earlier hearlier later hlater
  rw [List.mem_singleton.1 hlater]
  rw [classNames_eq] at hearlier
  obtain ⟨d, hd, rfl⟩ := List.mem_map.1 hearlier
  exact findClass_eq_none_iff.1 hfree d hd

theorem NamesChecked.addEnum (h : g.NamesChecked) {e : EnumType} {new : EnumId}
    (hadd : g.addEnum e = .ok (g', new)) : g'.NamesChecked := by
  obtain ⟨⟨_, hfree⟩, heq⟩ := addEnum_eq_ok_iff.1 hadd
  cases heq
  refine ⟨h.classes, ?_⟩
  have hnames : enumNames { g with enums := g.enums.push e } = g.enumNames ++ [e.name] := by
    simp [enumNames]
  rw [hnames, List.pairwise_append]
  refine ⟨h.enums, List.pairwise_singleton _ _, ?_⟩
  intro earlier hearlier later hlater
  rw [List.mem_singleton.1 hlater]
  obtain ⟨d, hd, rfl⟩ := List.mem_map.1 hearlier
  exact findEnum_eq_none_iff.1 hfree d (Array.mem_toList_iff.1 hd)

theorem NamesChecked.apply (h : g.NamesChecked) {op : Operation} (happly : op.apply g = .ok g') :
    g'.NamesChecked := by
  cases op with
  | addClass c =>
    obtain ⟨⟨_, id⟩, hadd, rfl⟩ := Fallible.map_eq_ok_iff.1 happly
    exact h.addClass hadd
  | addEnum e =>
    obtain ⟨⟨_, id⟩, hadd, rfl⟩ := Fallible.map_eq_ok_iff.1 happly
    exact h.addEnum hadd
  | setBase derived base => exact h.congr (.setBase happly)
  | addProperty owner p =>
    obtain ⟨⟨_, id⟩, hadd, rfl⟩ := Fallible.map_eq_ok_iff.1 happly
    exact h.congr (.addProperty hadd)
  | addContainerProperty p =>
    obtain ⟨⟨_, id⟩, hadd, rfl⟩ := Fallible.map_eq_ok_iff.1 happly
    exact h.congr (.addContainerProperty hadd)
  | addMethod owner m =>
    obtain ⟨⟨_, id⟩, hadd, rfl⟩ := Fallible.map_eq_ok_iff.1 happly
    exact h.congr (.addMethod hadd)

theorem NamesChecked.attempts (h : g.NamesChecked) :
    (ops.foldl Operation.attempt g).NamesChecked := by
  induction ops generalizing g with
  | nil => exact h
  | cons op rest ih =>
    refine ih ?_
    unfold Operation.attempt
    split
    · rename_i grown happly
      exact h.apply happly
    · exact h

theorem namesChecked_empty (spaceName containerName : String) :
    (Graph.empty spaceName containerName).NamesChecked :=
  ⟨.nil, .nil⟩

/-! ## When names are distinct and lead back -/

/-- A name that the check does not change is not used again. -/
theorem nodup_of_checked {names : List String}
    (checked : names.Pairwise fun earlier later => earlier ≠ g.simpleName later)
    (once : ∀ name, g.simpleName name ≠ name → names.count name ≤ 1) : names.Nodup := by
  rw [List.nodup_iff_sublist]
  intro name htwice
  have hpair := checked.sublist htwice
  rw [List.pairwise_pair] at hpair
  have atMost := once name (Ne.symm hpair)
  have atLeast := htwice.count_le name
  simp only [List.count_cons_self, List.count_nil] at atLeast
  omega

theorem NamesChecked.nodup_classNames (h : g.NamesChecked)
    (simple : ∀ c ∈ g.classes, g.simpleName c.name = c.name) : g.classNames.Nodup := by
  refine nodup_of_checked h.classes ?_
  intro name hname
  have absent : name ∉ g.classNames := by
    intro hmem
    obtain ⟨c, hc, rfl⟩ := mem_classNames_iff.1 hmem
    exact hname (simple c hc)
  rw [List.count_eq_zero.2 absent]
  exact Nat.zero_le 1

/-- The only class of its name is found by it. -/
theorem findClass_of_simpleName (distinct : g.classNames.Nodup) (hc : g.classAt id = .ok c)
    {name : String} (hname : g.simpleName name = c.name) : g.findClass name = some id := by
  have hid : g.classNames[id.index]? = some c.name := by
    rw [classNames, List.getElem?_map, Array.getElem?_toList, (classAt_eq_ok_iff g).1 hc]
    rfl
  rw [findClass_eq_some_iff, heads_getElem?, (classAt_eq_ok_iff g).1 hc, hname]
  refine ⟨⟨c.head, rfl, rfl⟩, ?_⟩
  intro j hj d hd hsame
  have hjd : g.classNames[j]? = some c.name := by
    rw [classNames_eq, List.getElem?_map, hd, Option.map_some, hsame]
  have hlt := (List.getElem?_eq_some_iff.1 hjd).1
  have := (List.getElem?_inj hlt distinct).1 (hjd.trans hid.symm)
  omega

theorem qualifiedName_eq_ok_iff {name : String} :
    g.qualifiedName id = .ok name ↔ ∃ c, g.classAt id = .ok c ∧ g.qualify c.name = name := by
  unfold qualifiedName
  cases g.classAt id <;> simp

theorem NamesChecked.typesNamed (h : g.NamesChecked)
    (simple : ∀ c ∈ g.classes, g.simpleName c.name = c.name)
    (apart : ∀ c ∈ g.classes, ∀ e ∈ g.enums, c.name ≠ e.name)
    (once : ∀ name, g.simpleName name ≠ name → g.enumNames.count name ≤ 1) : g.TypesNamed := by
  have distinct := h.nodup_classNames simple
  have of_classAt : ∀ {id c}, g.classAt id = .ok c → g.simpleName c.name = c.name :=
    fun hc => simple _ (Array.mem_of_getElem? ((classAt_eq_ok_iff g).1 hc))
  refine ⟨?_, ?_, ?_⟩
  · refine List.nodup_append.2 ⟨distinct, nodup_of_checked h.enums once, ?_⟩
    intro name hclass other henum heq
    obtain ⟨c, hc, rfl⟩ := mem_classNames_iff.1 hclass
    obtain ⟨e, he, rfl⟩ := List.mem_map.1 henum
    exact apart c hc e (Array.mem_toList_iff.1 he) heq
  · intro id c hc
    exact findClass_of_simpleName distinct hc (of_classAt hc)
  · intro id name hname
    obtain ⟨c, hc, rfl⟩ := qualifiedName_eq_ok_iff.1 hname
    exact findClass_of_simpleName distinct hc (simpleName_qualify fun _ => of_classAt hc)

/-- A class that is found by its name has a name that the check does not change. -/
theorem TypesNamed.simpleName_eq (h : g.TypesNamed) (hc : c ∈ g.classes) :
    g.simpleName c.name = c.name := by
  obtain ⟨i, hi, rfl⟩ := Array.mem_iff_getElem.1 hc
  have hat : g.classAt ⟨i⟩ = .ok g.classes[i] :=
    (classAt_eq_ok_iff g).2 (Array.getElem?_eq_getElem hi)
  obtain ⟨⟨d, hd, hname⟩, _⟩ := findClass_eq_some_iff.1 (h.simple _ _ hat)
  rw [heads_getElem?, Array.getElem?_eq_getElem hi] at hd
  cases hd
  exact hname.symm

theorem TypesNamed.name_ne (h : g.TypesNamed) {e : EnumType} (hc : c ∈ g.classes)
    (he : e ∈ g.enums) : c.name ≠ e.name := by
  have hclass : c.name ∈ g.classNames := mem_classNames_iff.2 ⟨c, hc, rfl⟩
  have henum : e.name ∈ g.enumNames := List.mem_map.2 ⟨e, Array.mem_toList_iff.2 he, rfl⟩
  exact (List.nodup_append.1 h.distinct).2.2 _ hclass _ henum

/-- Whatever is tried to add, in whatever order: type names are distinct and lead back to their
classes just when no class has the namespace in its name, none has the name of an enumeration, and
no enumeration with the namespace in its name was added twice. -/
theorem typesNamed_iff_of_attempts (spaceName containerName : String) (ops : List Operation) :
    let g := ops.foldl Operation.attempt (Graph.empty spaceName containerName)
    g.TypesNamed ↔
      (∀ c ∈ g.classes, g.simpleName c.name = c.name) ∧
      (∀ c ∈ g.classes, ∀ e ∈ g.enums, c.name ≠ e.name) ∧
      ∀ name, g.simpleName name ≠ name → g.enumNames.count name ≤ 1 := by
  intro g
  have checked : g.NamesChecked := (namesChecked_empty spaceName containerName).attempts
  constructor
  · intro h
    refine ⟨fun c hc => h.simpleName_eq hc, fun c hc e he => h.name_ne hc he, ?_⟩
    intro name _
    exact List.nodup_iff_count_le_one.1 (List.nodup_append.1 h.distinct).2.1 name
  · rintro ⟨simple, apart, once⟩
    exact checked.typesNamed simple apart once

/-- An enumeration, and then a class of the same name. -/
def genres : List Operation :=
  [.addEnum { name := "Genre", members := ["Fiction"] },
    .addClass { name := "Genre", kind := .entity }]

/-- Both are added, and the name stands for two types. -/
theorem genres_not_typesNamed :
    (genres.foldlM Operation.apply (Graph.empty "shop" "Shop")).toOption.isSome = true ∧
      ¬ (genres.foldl Operation.attempt (Graph.empty "shop" "Shop")).TypesNamed := by
  refine ⟨by decide +kernel, ?_⟩
  intro h
  have distinct := h.distinct
  revert distinct
  decide +kernel

end Graph
end Schema
end EdmCommands
