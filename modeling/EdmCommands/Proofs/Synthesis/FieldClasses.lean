import EdmCommands.Proofs.Synthesis.Defaults

/-!
# EdmCommands.Proofs.Synthesis.FieldClasses

Which classes a body has its fields from. Whatever command is resolved, and whatever the classes
are called, a set has the fields that it had before, and those of the concrete classes that it is
for: the properties that these have or inherit, as far as they are sent.

* `Graph.Has`, `Sent`: the properties of a class, and those of them that go into a body.
* `mem_sets_declareTypes`: the set of a class is the one that the command has for it in the end.
* `of_mem_declareTypes`: the switches are the only parameters that types bring.
* `hasField_iff_of_resolve`: the fields of a set.
* `mem_wireNames_mergeEntries`: the names of all fields.
-/

namespace EdmCommands
namespace Schema

def Graph.Has (g : Graph) (d : ClassId) (p : PropertyId) : Prop :=
  ∃ owner, g.Within d owner ∧ p ∈ g.ownProperties owner

end Schema

namespace Synthesis

open Schema

/-- A property goes into the body of an operation: its value can be sent, and it is not the key of
the class that the body is resolved for. -/
structure Sent (g : Graph) (base : ClassId) (operation : OperationKind) (p : PropertyId) :
    Prop where
  sendable : Sendable g operation p
  not_key : g.keyProperty base ≠ .ok (some p)

variable {g : Graph} {base d : ClassId} {c c' : Command} {t : ConcreteType}
  {types : List ConcreteType} {entries : List BodyEntry} {p : Parameter} {wire set : String}

/-! ## Types -/

/-- The fields of a body, as the parameters that they are. -/
def bodyFields (c : Command) : List Parameter :=
  c.parameters.filter (·.location == .body)

theorem hasField_iff_bodyFields :
    HasField c wire set ↔
      ∃ p ∈ bodyFields c, p.effectiveWireName = wire ∧ p.isIn set = true := by
  simp only [HasField, bodyFields, isBodyField_iff, List.mem_filter, beq_iff_eq, and_assoc]

theorem wireNames_eq : wireNames c = (bodyFields c).map (·.effectiveWireName) := rfl

/-- A switch is no field. -/
theorem declareType_rest (base : ClassId) (c : Command) (t : ConcreteType) :
    (declareType base c t).1.operation = c.operation ∧
      bodyFields (declareType base c t).1 = bodyFields c := by
  have set : (ensureSet c t).1.operation = c.operation ∧
      (ensureSet c t).1.parameters = c.parameters := by
    rcases ensureSet_cases c t with heq | ⟨_, _, _, heq⟩ <;> rw [heq] <;> exact ⟨rfl, rfl⟩
  unfold declareType bodyFields
  dsimp only
  split
  · exact ⟨set.1, by rw [set.2]⟩
  · rcases ensureSwitch_cases (ensureSet c t).1 (ensureSet c t).2 t with
      ⟨_, heq⟩ | ⟨_, name, heq⟩
    · rw [heq]
      exact ⟨set.1, by rw [set.2]⟩
    · rw [heq]
      refine ⟨set.1, ?_⟩
      dsimp only
      rw [List.filter_append, set.2]
      simp

theorem declareTypes_rest (base : ClassId) (c : Command) (types : List ConcreteType) :
    (declareTypes base c types).1.operation = c.operation ∧
      bodyFields (declareTypes base c types).1 = bodyFields c := by
  induction types generalizing c with
  | nil => exact ⟨rfl, rfl⟩
  | cons t rest ih =>
    obtain ⟨hoperation, hfields⟩ := declareType_rest base c t
    obtain ⟨hrest, hsame⟩ := ih (declareType base c t).1
    exact ⟨hrest.trans hoperation, hsame.trans hfields⟩

theorem classes_declareTypes (base : ClassId) (c : Command) (ds : List ClassId) :
    (declareTypes base c (ds.map (concreteType g))).2.map (·.1) = ds := by
  have told := sets_declareTypes base c (ds.map (concreteType g))
  rw [List.forall₂_map_left_iff] at told
  have classes := Fallible.map_eq_map_of_forall₂ told fun d entry hentry => hentry.1
  simpa [concreteType] using classes

theorem mem_sets_declareTypes {ds : List ClassId} :
    (d, set) ∈ (declareTypes base c (ds.map (concreteType g))).2 ↔
      d ∈ ds ∧ classSet g (declareTypes base c (ds.map (concreteType g))).1 d = some set := by
  have told := sets_declareTypes base c (ds.map (concreteType g))
  rw [List.forall₂_map_left_iff] at told
  constructor
  · intro h
    obtain ⟨e, he, hid, hset⟩ := Fallible.exists_of_mem_right told h
    obtain rfl : d = e := hid
    exact ⟨he, hset⟩
  · rintro ⟨hd, hset⟩
    obtain ⟨⟨e, other⟩, hentry, hid, hother⟩ := Fallible.exists_of_mem_left told hd
    obtain rfl : e = d := hid
    obtain rfl : other = set := Option.some.inj (hother.symm.trans hset)
    exact hentry

/-- Declaring a type adds no parameter but a switch that is in the set of the type. -/
theorem of_mem_declareType {t : ConcreteType} (hp : p ∈ (declareType base c t).1.parameters) :
    p ∈ c.parameters ∨ ∃ name, p = typeSwitch name (declareType base c t).2 t.qualified := by
  have kept : (ensureSet c t).1.parameters = c.parameters := by
    rcases ensureSet_cases c t with heq | ⟨_, _, _, heq⟩ <;> rw [heq]
  unfold declareType at hp ⊢
  dsimp only at hp ⊢
  split at hp
  · exact .inl (kept ▸ hp)
  · rcases ensureSwitch_cases (ensureSet c t).1 (ensureSet c t).2 t with
      ⟨_, heq⟩ | ⟨_, name, heq⟩
    · rw [heq, kept] at hp
      exact .inl hp
    · rw [heq, List.mem_append, List.mem_singleton, kept] at hp
      exact hp.imp id fun heq => ⟨name, heq⟩

theorem of_mem_declareTypes {types : List ConcreteType}
    (hp : p ∈ (declareTypes base c types).1.parameters) :
    p ∈ c.parameters ∨ ∃ name set type, p = typeSwitch name set type ∧
      setFor (declareTypes base c types).1 type = some set := by
  induction types generalizing c with
  | nil => exact .inl hp
  | cons t rest ih =>
    rcases ih hp with hp | hswitch
    · rcases of_mem_declareType hp with hp | ⟨name, heq⟩
      · exact .inl hp
      · exact .inr ⟨name, _, _, heq, (declareTypes_keeps base _ rest).sets _ _
          (declared_of_declareType base c t).1⟩
    · exact .inr hswitch

/-! ## Fields -/

theorem mem_wireNames_mergeProperty {p : Property} {type : ParameterType} {sets : List String}
    {discriminator : Option String} :
    wire ∈ wireNames (mergeProperty c p type sets discriminator) ↔
      wire ∈ wireNames c ∨ p.name = wire := by
  rcases mergeProperty_cases c p type sets discriminator with
    ⟨front, q, back, heq, hlocation, hwire, hmerged⟩ | ⟨_, hmerged⟩
  · have same : wireNames (mergeProperty c p type sets discriminator) = wireNames c := by
      have kept : (widen sets type discriminator q).location = .body := hlocation
      have named : (widen sets type discriminator q).effectiveWireName = q.effectiveWireName := rfl
      rw [wireNames, hmerged, wireNames, heq]
      simp [hlocation, kept, named]
    rw [same, iff_self_or]
    rintro rfl
    rw [wireNames, heq, ← hwire]
    exact List.mem_map_of_mem (List.mem_filter.2 ⟨by simp, by simp [hlocation]⟩)
  · have last : [newField c p type sets discriminator].filter (·.location == .body) =
        [newField c p type sets discriminator] := by
      simp [newField_location]
    rw [wireNames, hmerged]
    dsimp only
    rw [List.filter_append, last, List.map_append, List.map_singleton, newField_wire,
      List.mem_append, List.mem_singleton, @eq_comm _ wire]
    rfl

theorem mem_wireNames_mergeEntry {entry : BodyEntry} (h : mergeEntry g c entry = .ok c') :
    wire ∈ wireNames c' ↔ wire ∈ wireNames c ∨
      Sendable g c.operation entry.property ∧ g.nameOf entry.property = wire := by
  obtain ⟨p, hp, hcases⟩ := mergeEntry_cases h
  have name : g.nameOf entry.property = p.name :=
    Graph.nameOf_of_getElem? ((g.propertyAt_eq_ok_iff).1 hp)
  have sendable : Sendable g c.operation entry.property ↔ p.isCollection = false ∧
      g.isEntityType p.type = .ok false ∧ p.isReadOnly c.operation = false := by
    simp [Sendable, hp]
  rcases hcases with ⟨hno, rfl⟩ | ⟨hyes, type, _, rfl⟩
  · rw [sendable, ← isEligible_eq_ok hno]
    simp
  · rw [sendable, ← isEligible_eq_ok hyes, mem_wireNames_mergeProperty, name]
    simp

/-- The body has the fields that it had, and one for each name of a property that is sent. -/
theorem mem_wireNames_mergeEntries (h : mergeEntries g c entries = (c', none)) :
    wire ∈ wireNames c' ↔ wire ∈ wireNames c ∨
      ∃ entry ∈ entries, Sendable g c.operation entry.property ∧
        g.nameOf entry.property = wire := by
  induction entries generalizing c with
  | nil =>
    cases h
    simp
  | cons entry rest ih =>
    unfold mergeEntries at h
    split at h
    · cases h
    · rename_i merged hmerged
      rw [ih h, mem_wireNames_mergeEntry hmerged, (mergeEntry_merges hmerged).operation,
        List.exists_mem_cons_iff, or_assoc]

/-! ## The fields of a set -/

theorem Merges.classSet_eq (h : Merges g c entries c') : classSet g c' = classSet g c := by
  funext d
  rw [classSet, setFor, h.sets, classSet, setFor]

/-- A set has the fields that it had, and those of the concrete classes that it is for. -/
theorem hasField_iff_of_resolve (hb : g.Built) (h : resolve g base c = (c', none)) :
    HasField c' wire set ↔ HasField c wire set ∨ ∃ d ∈ g.concrete base,
      classSet g c' d = some set ∧
        ∃ p, g.Has d p ∧ g.nameOf p = wire ∧ Sent g base c.operation p := by
  obtain ⟨key, entries, merged, hkey, known, hentries, hmerged, rfl⟩ := stages_of_resolve hb h
  have hmerges := mergeEntries_merges hmerged
  have hclasses : ((declareTypes base c ((g.concrete base).map (concreteType g))).2.map
      (·.1)).Nodup := by
    rw [classes_declareTypes]
    exact Graph.nodup_concrete hb.forest
  have hwithin : ∀ entry ∈ (declareTypes base c ((g.concrete base).map (concreteType g))).2,
      g.Within entry.1 base := by
    rintro ⟨d, set⟩ hentry
    exact ((Graph.mem_concrete_iff hb.forest).1 (mem_sets_declareTypes.1 hentry).1).1
  have htaken : ∀ p, (∃ entry ∈ entries, entry.property = p ∧ set ∈ entry.sets) ↔
      g.keyProperty base ≠ .ok (some p) ∧ ∃ d ∈ g.concrete base,
        classSet g merged d = some set ∧ g.Has d p := by
    intro p
    rw [mem_entries_iff hb.forest known hclasses hwithin hentries, hkey, hmerges.classSet_eq]
    simp only [mem_sets_declareTypes, and_assoc, Graph.Has, ne_eq, Except.ok.injEq, eq_comm]
  obtain ⟨hoperation, hfields⟩ :=
    declareTypes_rest base c ((g.concrete base).map (concreteType g))
  rw [classSet_chooseDefault, HasField, (chooseDefault_rest merged _).1, ← HasField,
    hmerges.fields, hoperation, hasField_iff_bodyFields, hfields, ← hasField_iff_bodyFields]
  refine or_congr_right ?_
  constructor
  · rintro ⟨entry, hentry, hsend, hname, hset⟩
    obtain ⟨hother, d, hd, hfor, hhas⟩ := (htaken entry.property).1 ⟨entry, hentry, rfl, hset⟩
    exact ⟨d, hd, hfor, entry.property, hhas, hname, hsend, hother⟩
  · rintro ⟨d, hd, hfor, p, hhas, hname, hsend, hother⟩
    obtain ⟨entry, hentry, rfl, hset⟩ := (htaken p).2 ⟨hother, d, hd, hfor, hhas⟩
    exact ⟨entry, hentry, hsend, hname, hset⟩

/-- Every concrete class of the hierarchy has a set. -/
theorem exists_classSet_of_resolve (hb : g.Built) (h : resolve g base c = (c', none))
    (hd : d ∈ g.concrete base) : ∃ set, classSet g c' d = some set := by
  obtain ⟨key, entries, merged, _, _, _, hmerged, rfl⟩ := stages_of_resolve hb h
  rw [classSet_chooseDefault, (mergeEntries_merges hmerged).classSet_eq]
  have hclass : d ∈ (declareTypes base c ((g.concrete base).map (concreteType g))).2.map (·.1) := by
    rwa [classes_declareTypes]
  obtain ⟨entry, hentry, rfl⟩ := List.mem_map.1 hclass
  exact ⟨_, (mem_sets_declareTypes.1 hentry).2⟩

/-- Where a command had no sets, classes share one just when they have one name. -/
theorem classSet_eq_iff_of_resolve (hb : g.Built) (noSets : c.sets = [])
    (h : resolve g base c = (c', none)) {e : ClassId} (hset : classSet g c' d = some set) :
    classSet g c' e = some set ↔ g.className e = g.className d := by
  obtain ⟨key, entries, merged, _, _, _, hmerged, rfl⟩ := stages_of_resolve hb h
  have hdiffer := (SetsDiffer.of_sets_nil noSets).declareTypes base
    ((g.concrete base).map (concreteType g))
  rw [classSet_chooseDefault, (mergeEntries_merges hmerged).classSet_eq] at hset ⊢
  constructor
  · intro hother
    exact qualify_injective g (hdiffer.setFor_injective hother hset)
  · intro hname
    rwa [classSet, hname]

end Synthesis
end EdmCommands
