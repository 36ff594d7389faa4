import EdmCommands.Proofs.Schema.Built
import EdmCommands.Proofs.Synthesis.Body

/-!
# EdmCommands.Proofs.Synthesis.Fields

Which fields a body has in which set. Entries are merged one after the other, and a field is in a
set just when some entry of its name put it there.

* `HasField`: the body has a field of the given name in a set.
* `Sendable`: the value of a property can be sent with an operation.
* `Merges`: what merging entries does to the fields, and what it leaves alone.
* `mergeEntries_merges`: one lemma for each step, and so for all of them.
* `mem_bodyEntries`, `mem_bodyEntries_iff`: which entries there are.
-/

namespace EdmCommands
namespace Synthesis

open Schema

/-- The names that the fields of the body have in the request. -/
def wireNames (c : Command) : List String :=
  (c.parameters.filter (·.location == .body)).map (·.effectiveWireName)

/-- The body has a field of the given name in the set. -/
def HasField (c : Command) (wire set : String) : Prop :=
  ∃ p ∈ c.parameters, isBodyField wire p = true ∧ p.isIn set = true

/-- The value of a property can be sent: it is not a collection and holds no entity, and the
operation may write it. -/
def Sendable (g : Graph) (operation : OperationKind) (id : PropertyId) : Prop :=
  ∃ p, g.propertyAt id = .ok p ∧ p.isCollection = false ∧ g.isEntityType p.type = .ok false ∧
    p.isReadOnly operation = false

/-- The entries are merged into a command: its sets and switches stay, and it has the fields that it
had and those of the entries that can be sent. -/
structure Merges (g : Graph) (c : Command) (entries : List BodyEntry) (c' : Command) : Prop where
  operation : c'.operation = c.operation
  sets : c'.sets = c.sets
  switches : ∀ qualified, c'.parameters.filter (isSwitchFor qualified) =
    c.parameters.filter (isSwitchFor qualified)
  fields : ∀ wire set, HasField c' wire set ↔ HasField c wire set ∨
    ∃ entry ∈ entries, Sendable g c.operation entry.property ∧
      g.nameOf entry.property = wire ∧ set ∈ entry.sets
  wires : (wireNames c).Nodup → (wireNames c').Nodup

variable {g : Graph} {base : ClassId} {c c' : Command}

/-! ## One field -/

theorem isBodyField_iff {wire : String} {p : Parameter} :
    isBodyField wire p = true ↔ p.location = .body ∧ p.effectiveWireName = wire := by
  simp [isBodyField]

/-- The first of the elements that are looked for is changed, and no other one. -/
theorem modifyFirst_eq {α : Type} {test : α → Bool} (change : α → α) {l : List α}
    (h : l.any test = true) :
    ∃ front x back, l = front ++ x :: back ∧ test x = true ∧
      modifyFirst test change l = front ++ change x :: back := by
  induction l with
  | nil => cases h
  | cons x rest ih =>
    by_cases hx : test x = true
    · exact ⟨[], x, rest, rfl, hx, by simp [modifyFirst, hx]⟩
    · have hrest : rest.any test = true := by simpa [hx] using h
      obtain ⟨front, y, back, rfl, hy, heq⟩ := ih hrest
      exact ⟨x :: front, y, back, rfl, hy, by simp [modifyFirst, hx, heq]⟩

theorem isIn_widen {sets : List String} {type : ParameterType} {discriminator : Option String}
    {p : Parameter} {set : String} :
    (widen sets type discriminator p).isIn set = true ↔ set ∈ sets ∨ p.isIn set = true :=
  contains_foldl_insert

section MergeProperty

variable {p : Property} {type : ParameterType} {sets : List String}
  {discriminator : Option String}

def newField (c : Command) (p : Property) (type : ParameterType) (sets : List String)
    (discriminator : Option String) : Parameter :=
  let plain : Parameter :=
    { name := fieldName c p.name "Property", type := type, location := .body }
  { (plain.withWireName p.name).inSets sets with
    fromPipelineByName := true
    discriminator := discriminator
    description := p.description }

theorem newField_location : (newField c p type sets discriminator).location = .body := by
  simp [newField, Parameter.inSets]

theorem newField_wire : (newField c p type sets discriminator).effectiveWireName = p.name :=
  Parameter.effectiveWireName_withWireName _ p.name rfl

theorem isIn_newField {set : String} :
    (newField c p type sets discriminator).isIn set = true ↔ set ∈ sets := by
  simp [newField, Parameter.inSets, Parameter.isIn, SetMembership.contains]

/-- A property changes the field of its name or adds one. -/
theorem mergeProperty_cases (c : Command) (p : Property) (type : ParameterType)
    (sets : List String) (discriminator : Option String) :
    (∃ front q back, c.parameters = front ++ q :: back ∧ q.location = .body ∧
      q.effectiveWireName = p.name ∧
      mergeProperty c p type sets discriminator =
        { c with parameters := front ++ widen sets type discriminator q :: back }) ∨
      p.name ∉ wireNames c ∧
        mergeProperty c p type sets discriminator =
          { c with parameters := c.parameters ++ [newField c p type sets discriminator] } := by
  unfold mergeProperty
  split
  · rename_i hany
    obtain ⟨front, q, back, heq, hq, hchanged⟩ :=
      modifyFirst_eq (widen sets type discriminator) hany
    rw [isBodyField_iff] at hq
    exact .inl ⟨front, q, back, heq, hq.1, hq.2, by rw [hchanged]⟩
  · rename_i hnone
    refine .inr ⟨fun hmem => hnone ?_, rfl⟩
    obtain ⟨q, hq, hwire⟩ := List.mem_map.1 hmem
    obtain ⟨hq, hlocation⟩ := List.mem_filter.1 hq
    exact List.any_eq_true.2 ⟨q, hq, isBodyField_iff.2 ⟨by simpa using hlocation, hwire⟩⟩

theorem hasField_mergeProperty {wire set : String} :
    HasField (mergeProperty c p type sets discriminator) wire set ↔
      HasField c wire set ∨ p.name = wire ∧ set ∈ sets := by
  rcases mergeProperty_cases c p type sets discriminator with
    ⟨front, q, back, heq, hlocation, hwire, hmerged⟩ | ⟨_, hmerged⟩
  · have changed : isBodyField wire (widen sets type discriminator q) = true ↔ p.name = wire := by
      rw [isBodyField_iff, ← hwire]
      exact and_iff_right hlocation
    have old : isBodyField wire q = true ↔ p.name = wire := by
      rw [isBodyField_iff, ← hwire]
      exact and_iff_right hlocation
    simp only [HasField, hmerged, heq, List.mem_append, List.mem_cons, or_and_right, exists_or,
      exists_eq_left, changed, old, isIn_widen, and_or_left, or_assoc]
    -- Only the place of the new sets among the alternatives is different.
    simp only [or_comm, or_left_comm]
  · have added : isBodyField wire (newField c p type sets discriminator) = true ↔
        p.name = wire := by
      rw [isBodyField_iff, newField_wire]
      exact and_iff_right newField_location
    simp only [HasField, hmerged, List.mem_append, List.mem_singleton, or_and_right, exists_or,
      exists_eq_left, added, isIn_newField]

theorem wireNames_mergeProperty (h : (wireNames c).Nodup) :
    (wireNames (mergeProperty c p type sets discriminator)).Nodup := by
  rcases mergeProperty_cases c p type sets discriminator with
    ⟨front, q, back, heq, hlocation, hwire, hmerged⟩ | ⟨hnew, hmerged⟩
  · rw [wireNames, heq] at h
    have kept : (widen sets type discriminator q).location = .body := hlocation
    have same : (widen sets type discriminator q).effectiveWireName = q.effectiveWireName := rfl
    rw [wireNames, hmerged]
    simpa [List.filter_cons, hlocation, kept, same] using h
  · rw [wireNames, hmerged]
    have last : [newField c p type sets discriminator].filter (·.location == .body) =
        [newField c p type sets discriminator] := by
      simp [newField_location]
    dsimp only
    rw [List.filter_append, last, List.map_append, List.map_singleton, newField_wire,
      List.nodup_append]
    refine ⟨h, by simp, fun a ha b hb hab => hnew ?_⟩
    rwa [← List.mem_singleton.1 hb, ← hab]

theorem switches_mergeProperty (qualified : String) :
    (mergeProperty c p type sets discriminator).parameters.filter (isSwitchFor qualified) =
      c.parameters.filter (isSwitchFor qualified) := by
  have noSwitch : ∀ q : Parameter, q.location = .body → isSwitchFor qualified q = false := by
    intro q hq
    simp [isSwitchFor, hq]
  rcases mergeProperty_cases c p type sets discriminator with
    ⟨front, q, back, heq, hlocation, hwire, hmerged⟩ | ⟨_, hmerged⟩
  · have kept := noSwitch (widen sets type discriminator q) hlocation
    rw [hmerged, heq]
    simp [noSwitch q hlocation, kept]
  · rw [hmerged]
    simp [noSwitch _ newField_location]

theorem mergeProperty_rest :
    (mergeProperty c p type sets discriminator).operation = c.operation ∧
      (mergeProperty c p type sets discriminator).sets = c.sets := by
  unfold mergeProperty
  split <;> exact ⟨rfl, rfl⟩

end MergeProperty

/-! ## All fields -/

theorem isEligible_eq_ok {p : Property} {operation : OperationKind} {eligible : Bool}
    (h : isEligible g p operation = .ok eligible) :
    eligible = true ↔
      p.isCollection = false ∧ g.isEntityType p.type = .ok false ∧
        p.isReadOnly operation = false := by
  unfold isEligible at h
  split at h
  · rename_i hcollection
    cases h
    simp [hcollection]
  · rename_i hsingle
    split at h
    · cases h
    · rename_i isEntity hentity
      cases h
      simp [hsingle, hentity]

theorem mergeEntry_merges {entry : BodyEntry} (h : mergeEntry g c entry = .ok c') :
    Merges g c [entry] c' := by
  unfold mergeEntry at h
  split at h
  · cases h
  rename_i p hp
  have name : g.nameOf entry.property = p.name :=
    Graph.nameOf_of_getElem? ((g.propertyAt_eq_ok_iff).1 hp)
  have sendable : Sendable g c.operation entry.property ↔ p.isCollection = false ∧
      g.isEntityType p.type = .ok false ∧ p.isReadOnly c.operation = false := by
    simp [Sendable, hp]
  split at h
  · cases h
  · rename_i hno
    cases h
    have unsent : ¬ Sendable g c.operation entry.property := by
      rw [sendable, ← isEligible_eq_ok hno]
      exact Bool.false_ne_true
    exact ⟨rfl, rfl, fun _ => rfl, fun wire set => by simp [unsent], id⟩
  · rename_i hyes
    have sent : Sendable g c.operation entry.property :=
      sendable.2 ((isEligible_eq_ok hyes).1 rfl)
    split at h
    · cases h
    · cases h
      refine ⟨mergeProperty_rest.1, mergeProperty_rest.2, switches_mergeProperty, ?_,
        wireNames_mergeProperty⟩
      intro wire set
      simp [hasField_mergeProperty, sent, name]

theorem Merges.trans {c₁ c₂ c₃ : Command} {front back : List BodyEntry}
    (h₁ : Merges g c₁ front c₂) (h₂ : Merges g c₂ back c₃) : Merges g c₁ (front ++ back) c₃ where
  operation := h₂.operation.trans h₁.operation
  sets := h₂.sets.trans h₁.sets
  switches qualified := (h₂.switches qualified).trans (h₁.switches qualified)
  fields wire set := by
    rw [h₂.fields, h₁.fields, h₁.operation]
    simp only [List.mem_append, or_and_right, exists_or, or_assoc]
  wires h := h₂.wires (h₁.wires h)

theorem mergeEntries_merges {entries : List BodyEntry}
    (h : mergeEntries g c entries = (c', none)) : Merges g c entries c' := by
  induction entries generalizing c with
  | nil =>
    cases h
    exact ⟨rfl, rfl, fun _ => rfl, fun wire set => by simp, id⟩
  | cons entry rest ih =>
    unfold mergeEntries at h
    split at h
    · cases h
    · rename_i merged hmerged
      exact (mergeEntry_merges hmerged).trans (ih h)

/-! ## The entries -/

/-- A class stands for its own properties in a body, and the base for the inherited ones too. -/
def StandsFor (g : Graph) (base id : ClassId) (p : PropertyId) : Prop :=
  ∃ owner, p ∈ g.ownProperties owner ∧ (owner = id ∨ id = base ∧ g.Within base owner)

theorem standsFor_iff (hf : g.Forest) {id : ClassId} {fields : List PropertyId}
    {discriminator : Option String}
    (h : (if id = base then (g.allProperties id).map fun ids => (ids, none)
      else (g.classAt id).map fun c => (c.properties, some (g.qualify c.name))) =
        .ok (fields, discriminator)) {p : PropertyId} :
    StandsFor g base id p ↔ p ∈ fields := by
  split at h
  · rename_i hbase
    subst hbase
    obtain ⟨ids, hids, heq⟩ := Fallible.map_eq_ok_iff.1 h
    cases heq
    rw [Graph.mem_allProperties_iff hf hids]
    constructor
    · rintro ⟨owner, hp, rfl | ⟨-, hwithin⟩⟩
      · exact ⟨owner, .inl rfl, hp⟩
      · exact ⟨owner, hwithin, hp⟩
    · rintro ⟨owner, hwithin, hp⟩
      exact ⟨owner, hp, .inr ⟨rfl, hwithin⟩⟩
  · rename_i hother
    obtain ⟨c, hc, heq⟩ := Fallible.map_eq_ok_iff.1 h
    cases heq
    rw [← Graph.ownProperties_of_classAt hc]
    simp [StandsFor, hother]

/-- The derived type that the properties of a class are tied to; those of the base are not. -/
def discriminatorOf (g : Graph) (base id : ClassId) : Option String :=
  if id = base then none else some (g.qualify (g.className id))

theorem eq_discriminatorOf {id : ClassId} {fields : List PropertyId}
    {discriminator : Option String}
    (h : (if id = base then (g.allProperties id).map fun ids => (ids, none)
      else (g.classAt id).map fun c => (c.properties, some (g.qualify c.name))) =
        .ok (fields, discriminator)) :
    discriminator = discriminatorOf g base id := by
  split at h
  · rename_i hbase
    obtain ⟨ids, _, heq⟩ := Fallible.map_eq_ok_iff.1 h
    cases heq
    rw [discriminatorOf, if_pos hbase]
  · rename_i hother
    obtain ⟨c, hc, heq⟩ := Fallible.map_eq_ok_iff.1 h
    cases heq
    rw [discriminatorOf, if_neg hother, Graph.className_of_classAt hc]

/-- There is an entry for each property that a class stands for, but for the key, when some set is
at the class or below it. -/
theorem mem_bodyEntries (hf : g.Forest) {key : Option PropertyId}
    {sets : List (ClassId × String)} {ids : List ClassId} {entries : List BodyEntry}
    (h : bodyEntries g base key sets ids = .ok entries) {entry : BodyEntry} :
    entry ∈ entries ↔ ∃ id ∈ ids, setsBelow g sets id ≠ [] ∧
      StandsFor g base id entry.property ∧ some entry.property ≠ key ∧
      entry = ⟨entry.property, setsBelow g sets id, discriminatorOf g base id⟩ := by
  induction ids generalizing entries with
  | nil =>
    cases h
    simp
  | cons id rest ih =>
    unfold bodyEntries at h
    dsimp only at h
    split at h
    · rename_i hnone
      rw [ih h]
      simp [hnone]
    · cases h
    · rename_i first others fields discriminator hmembers hdeclared
      split at h
      · cases h
      · rename_i found hfound
        cases h
        have own : entry ∈ (fields.filter fun p => some p != key).map
              (fun p => BodyEntry.mk p (setsBelow g sets id) discriminator) ↔
            setsBelow g sets id ≠ [] ∧ StandsFor g base id entry.property ∧
              some entry.property ≠ key ∧
              entry = ⟨entry.property, setsBelow g sets id, discriminatorOf g base id⟩ := by
          rw [standsFor_iff hf hdeclared, ← eq_discriminatorOf hdeclared]
          constructor
          · intro hentry
            obtain ⟨p, hp, rfl⟩ := List.mem_map.1 hentry
            obtain ⟨hp, hkey⟩ := List.mem_filter.1 hp
            exact ⟨by simp [hmembers], hp, by simpa using hkey, rfl⟩
          · rintro ⟨_, hp, hkey, heq⟩
            rw [heq]
            exact List.mem_map_of_mem (List.mem_filter.2 ⟨hp, by simpa using hkey⟩)
        rw [List.mem_append, own, ih hfound, List.exists_mem_cons_iff]

theorem mem_bodyEntries_iff (hf : g.Forest) {key : Option PropertyId}
    {sets : List (ClassId × String)} {ids : List ClassId} {entries : List BodyEntry}
    (h : bodyEntries g base key sets ids = .ok entries) {p : PropertyId} {set : String} :
    (∃ entry ∈ entries, entry.property = p ∧ set ∈ entry.sets) ↔
      ∃ id ∈ ids, set ∈ setsBelow g sets id ∧ StandsFor g base id p ∧ some p ≠ key := by
  constructor
  · rintro ⟨entry, hentry, rfl, hset⟩
    obtain ⟨id, hid, _, hstands, hkey, heq⟩ := (mem_bodyEntries hf h).1 hentry
    rw [heq] at hset
    exact ⟨id, hid, hset, hstands, hkey⟩
  · rintro ⟨id, hid, hset, hstands, hkey⟩
    refine ⟨⟨p, setsBelow g sets id, discriminatorOf g base id⟩, ?_, rfl, hset⟩
    exact (mem_bodyEntries hf h).2 ⟨id, hid, List.ne_nil_of_mem hset, hstands, hkey, rfl⟩

end Synthesis
end EdmCommands
