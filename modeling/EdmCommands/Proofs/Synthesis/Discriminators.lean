import EdmCommands.Proofs.Document.Construction
import EdmCommands.Proofs.Synthesis.FieldClasses

/-!
# EdmCommands.Proofs.Synthesis.Discriminators

The derived type that a parameter of a body is tied to, and the sets that it belongs to. A switch
belongs to the set of its type. A field is tied to the class that declares its property, and belongs
to the sets of all concrete classes below that one too; so the two agree when there is nothing
concrete below but classes of the same name.

* `TiedTo`: a parameter belongs to the set of a type and to no other.
* `declaring_of_resolve`: where a tied field comes from.
* `tiedTo_iff_of_resolve`: when the derived type and the sets of a parameter agree.
* `not_tiedTo_of_audiobooks`: the pages of a book are tied to books, and audiobooks have them too.
-/

namespace EdmCommands
namespace Synthesis

open Schema

/-- The parameter can be used in the set for a type, and in no other one. -/
def TiedTo (c : Command) (p : Parameter) (type : String) : Prop :=
  ∃ s ∈ c.sets, s.derivedType = some type ∧ ∀ s' ∈ c.sets, p.isIn s'.name = true ↔ s' = s

/-- The class declares a property of the given name that is sent. -/
def Declaring (g : Graph) (base : ClassId) (operation : OperationKind) (wire : String)
    (x : ClassId) : Prop :=
  ∃ q ∈ g.ownProperties x, g.nameOf q = wire ∧ Sent g base operation q

variable {g : Graph} {base d x : ClassId} {c c' : Command} {p : Parameter} {wire set type : String}

/-! ## Sets -/

theorem SetsDiffer.setFor_eq (h : SetsDiffer c) {s : ParameterSet} (hs : s ∈ c.sets)
    (htype : s.derivedType = some type) : setFor c type = some s.name := by
  have hfound : (c.sets.find? (·.derivedType == some type)).isSome = true :=
    List.find?_isSome.2 ⟨s, hs, by simp [htype]⟩
  obtain ⟨s', hs'⟩ := Option.isSome_iff_exists.1 hfound
  have htype' : s'.derivedType = some type := by simpa using List.find?_some hs'
  obtain rfl := List.inj_on_of_nodup_map h.types (List.mem_of_find?_eq_some hs') hs
    (htype'.trans htype.symm)
  rw [setFor, hs', Option.map_some]

/-- The set that a command has for a type is the only one of its name. -/
theorem SetsDiffer.setFor_eq_some_iff (h : SetsDiffer c) {s : ParameterSet} (hs : s ∈ c.sets) :
    setFor c type = some s.name ↔ s.derivedType = some type := by
  refine ⟨fun hset => ?_, h.setFor_eq hs⟩
  obtain ⟨s', hs', htype, hname⟩ := of_setFor hset
  obtain rfl := List.inj_on_of_nodup_map h.names hs' hs hname
  exact htype

theorem setsDiffer_of_resolve (hb : g.Built) (noSets : c.sets = [])
    (h : resolve g base c = (c', none)) : SetsDiffer c' := by
  obtain ⟨key, entries, merged, _, _, _, hmerged, rfl⟩ := stages_of_resolve hb h
  have hdiffer := (SetsDiffer.of_sets_nil noSets).declareTypes base
    ((g.concrete base).map (concreteType g))
  have hsets := (mergeEntries_merges hmerged).sets
  obtain ⟨_, hnames, htypes⟩ := chooseDefault_rest merged
    ((declareTypes base c ((g.concrete base).map (concreteType g))).2.map (·.2))
  constructor
  · rw [htypes, hsets]
    exact hdiffer.types
  · rw [hnames, Command.setNames, hsets]
    exact hdiffer.names

/-! ## Switches -/

/-- A switch that resolving adds belongs to the set of its type. -/
theorem tiedTo_of_switch (hb : g.Built) (noSets : c.sets = []) (h : resolve g base c = (c', none))
    (hp : p ∈ c'.parameters) (htype : p.discriminator = some type)
    (hswitch : p.location = .typeDiscriminator) (added : p ∉ c.parameters) : TiedTo c' p type := by
  have differ := setsDiffer_of_resolve hb noSets h
  obtain ⟨key, entries, merged, _, _, _, hmerged, rfl⟩ := stages_of_resolve hb h
  have hmerges := mergeEntries_merges hmerged
  rw [(chooseDefault_rest merged _).1] at hp
  have hmem : p ∈ merged.parameters.filter (isSwitchFor type) :=
    List.mem_filter.2 ⟨hp, by simp [isSwitchFor, hswitch, htype]⟩
  rw [hmerges.switches] at hmem
  rcases of_mem_declareTypes (List.mem_filter.1 hmem).1 with hold | ⟨name, set, other, rfl, hset⟩
  · exact absurd hold added
  obtain rfl := Option.some.inj htype
  rw [setFor, ← hmerges.sets, ← setFor, ← setFor_chooseDefault merged] at hset
  obtain ⟨s, hs, hstype, rfl⟩ := of_setFor hset
  refine ⟨s, hs, hstype, fun s' hs' => isIn_typeSwitch.trans ⟨fun hname => ?_, ?_⟩⟩
  · exact List.inj_on_of_nodup_map differ.names hs' hs hname
  · rintro rfl
    rfl

/-! ## Fields -/

theorem eq_of_wireNames_nodup (nodup : (wireNames c).Nodup) {q : Parameter}
    (hp : p ∈ c.parameters) (hq : q ∈ c.parameters) (hbody : p.location = .body)
    (hbody' : q.location = .body) (hwire : p.effectiveWireName = q.effectiveWireName) : p = q :=
  List.inj_on_of_nodup_map nodup (List.mem_filter.2 ⟨hp, by simp [hbody]⟩)
    (List.mem_filter.2 ⟨hq, by simp [hbody']⟩) hwire

theorem wireNames_of_noFields (noFields : ∀ p ∈ c.parameters, p.location ≠ .body) :
    wireNames c = [] := by
  rw [wireNames, List.map_eq_nil_iff, List.filter_eq_nil_iff]
  intro q hq
  simpa using noFields q hq

/-- The field of a property that is sent is tied to the type of the entry, or to none. -/
theorem discriminator_of_mergeEntries {entries : List BodyEntry}
    (nodup : (wireNames c').Nodup) (h : mergeEntries g c entries = (c', none))
    (hp : p ∈ c'.parameters) (hbody : p.location = .body) {entry : BodyEntry}
    (hentry : entry ∈ entries) (hsend : Sendable g c.operation entry.property)
    (hname : g.nameOf entry.property = p.effectiveWireName) :
    p.discriminator = entry.discriminator ∨ p.discriminator = none := by
  obtain ⟨q, hq, hcases⟩ := absorbs_of_mergeEntries h entry hentry
  obtain ⟨q', hq', hsendable⟩ := hsend
  obtain rfl := Except.ok.inj (hq'.symm.trans hq)
  have name : g.nameOf entry.property = q'.name :=
    Graph.nameOf_of_getElem? ((g.propertyAt_eq_ok_iff).1 hq)
  rcases hcases with hno | ⟨_, type, field, _, hfound, hwide⟩
  · rw [(mergeEntries_merges h).operation] at hno
    exact absurd ((isEligible_eq_ok hno).2 hsendable) Bool.false_ne_true
  · obtain ⟨hlocation, hwire⟩ := isBodyField_iff.1 (List.find?_some hfound)
    obtain rfl := eq_of_wireNames_nodup nodup hp (List.mem_of_find?_eq_some hfound) hbody hlocation
      (hname.symm.trans (name.trans hwire.symm))
    exact (widen_eq_self_iff.1 hwide).2.2

section Fields

variable (hb : g.Built) (noFields : ∀ p ∈ c.parameters, p.location ≠ .body)
  (h : resolve g base c = (c', none))

include hb noFields h

theorem wireNames_nodup_of_resolve : (wireNames c').Nodup := by
  obtain ⟨key, entries, merged, _, _, _, hmerged, rfl⟩ := stages_of_resolve hb h
  rw [wireNames, (chooseDefault_rest merged _).1]
  refine (mergeEntries_merges hmerged).wires ?_
  rw [wireNames_eq, (declareTypes_rest base c _).2, ← wireNames_eq, wireNames_of_noFields noFields]
  exact List.nodup_nil

/-- A set has the fields of the concrete classes that it is for, by the classes that declare
them. -/
theorem hasField_iff_declaring :
    HasField c' wire set ↔ ∃ d ∈ g.concrete base, classSet g c' d = some set ∧
      ∃ x, g.Within d x ∧ Declaring g base c.operation wire x := by
  have none_before : ¬ HasField c wire set := by
    rintro ⟨q, hq, hfield, _⟩
    exact noFields q hq (isBodyField_iff.1 hfield).1
  rw [hasField_iff_of_resolve hb h, or_iff_right none_before]
  refine exists_congr fun d => and_congr_right fun _ => and_congr_right fun _ => ?_
  constructor
  · rintro ⟨q, ⟨x, hx, hq⟩, hname, hsent⟩
    exact ⟨x, hx, q, hq, hname, hsent⟩
  · rintro ⟨x, hx, q, hq, hname, hsent⟩
    exact ⟨q, ⟨x, hx, hq⟩, hname, hsent⟩

variable (hp : p ∈ c'.parameters) (hbody : p.location = .body)

include hp hbody

theorem isIn_iff_hasField :
    p.isIn set = true ↔ HasField c' p.effectiveWireName set := by
  constructor
  · intro hset
    exact ⟨p, hp, isBodyField_iff.2 ⟨hbody, rfl⟩, hset⟩
  · rintro ⟨q, hq, hfield, hset⟩
    obtain ⟨hlocation, hwire⟩ := isBodyField_iff.1 hfield
    obtain rfl := eq_of_wireNames_nodup (wireNames_nodup_of_resolve hb noFields h) hp hq hbody
      hlocation hwire.symm
    exact hset

/-- Every field is one of some concrete class. -/
theorem exists_declaring_of_resolve :
    ∃ d ∈ g.concrete base, ∃ x, g.Within d x ∧
      Declaring g base c.operation p.effectiveWireName x := by
  have hfield : ∃ set, HasField c' p.effectiveWireName set := by
    obtain ⟨key, entries, merged, _, _, hentries, hmerged, rfl⟩ := stages_of_resolve hb h
    rw [(chooseDefault_rest merged _).1] at hp
    have hwire : p.effectiveWireName ∈ wireNames merged :=
      List.mem_map_of_mem (List.mem_filter.2 ⟨hp, by simp [hbody]⟩)
    rw [mem_wireNames_mergeEntries hmerged, wireNames_eq, (declareTypes_rest base c _).2,
      ← wireNames_eq, wireNames_of_noFields noFields] at hwire
    obtain ⟨entry, hentry, hsend, hname⟩ := hwire.resolve_left List.not_mem_nil
    obtain ⟨set, hset⟩ :=
      List.exists_mem_of_ne_nil _ (sets_of_mem_bodyEntries hentries entry hentry).1
    refine ⟨set, ?_⟩
    rw [HasField, (chooseDefault_rest merged _).1, ← HasField, (mergeEntries_merges hmerged).fields]
    exact .inr ⟨entry, hentry, hsend, hname, hset⟩
  obtain ⟨set, hset⟩ := hfield
  obtain ⟨d, hd, _, hdeclaring⟩ := (hasField_iff_declaring hb noFields h).1 hset
  exact ⟨d, hd, hdeclaring⟩

variable (htype : p.discriminator = some type)

include htype

/-- A class that stands for the property of a tied field is the one that the field is tied to. -/
theorem discriminatorOf_eq (hd : d ∈ g.concrete base) (hx : g.Within d x) (hbase : g.Within x base)
    {q : PropertyId} (hstands : StandsFor g base x q) (hname : g.nameOf q = p.effectiveWireName)
    (hsent : Sent g base c.operation q) : discriminatorOf g base x = some type := by
  have nodup := wireNames_nodup_of_resolve hb noFields h
  obtain ⟨set, hset⟩ := exists_classSet_of_resolve hb h hd
  obtain ⟨key, entries, merged, hkey, known, hentries, hmerged, rfl⟩ := stages_of_resolve hb h
  rw [classSet_chooseDefault, (mergeEntries_merges hmerged).classSet_eq] at hset
  rw [wireNames, (chooseDefault_rest merged _).1] at nodup
  rw [(chooseDefault_rest merged _).1] at hp
  have hmem := (Graph.mem_hierarchy_iff hb.forest).2 hbase
  have hclasses : ((declareTypes base c ((g.concrete base).map (concreteType g))).2.map
      (·.1)).Nodup := by
    rw [classes_declareTypes]
    exact Graph.nodup_concrete hb.forest
  have hbelow : set ∈ setsBelow g
      (declareTypes base c ((g.concrete base).map (concreteType g))).2 x :=
    (mem_setsBelow_iff hb.forest (isClass_of_mem_hierarchy hb.forest known x hmem) hclasses).2
      ⟨d, hx, mem_sets_declareTypes.2 ⟨hd, hset⟩⟩
  have hentry : ⟨q, _, discriminatorOf g base x⟩ ∈ entries := (mem_bodyEntries hb.forest hentries).2
    ⟨x, hmem, List.ne_nil_of_mem hbelow, hstands, fun heq => hsent.not_key (heq ▸ hkey), rfl⟩
  have hsend := hsent.sendable
  rw [← (declareTypes_rest base c ((g.concrete base).map (concreteType g))).1] at hsend
  rcases discriminator_of_mergeEntries nodup hmerged hp hbody hentry hsend hname with heq | heq
  · exact heq.symm.trans htype
  · rw [htype] at heq
    cases heq

/-- The property of a tied field is declared below the base, by classes of the name that the field
is tied to. -/
theorem declaring_of_resolve (hd : d ∈ g.concrete base) (hx : g.Within d x)
    (hdeclaring : Declaring g base c.operation p.effectiveWireName x) :
    x ∈ g.below base ∧ g.qualify (g.className x) = type := by
  obtain ⟨q, hq, hname, hsent⟩ := hdeclaring
  have hwithin := ((Graph.mem_concrete_iff hb.forest).1 hd).1
  rcases hwithin.linear hx with habove | hbelow
  · -- What the base has or inherits is tied to no type.
    have hbase := discriminatorOf_eq hb noFields h hp hbody htype hd hwithin (.inl rfl)
      ⟨x, hq, .inr ⟨rfl, habove⟩⟩ hname hsent
    rw [discriminatorOf, if_pos rfl] at hbase
    cases hbase
  · have hown := discriminatorOf_eq hb noFields h hp hbody htype hd hx hbelow
      ⟨x, hq, .inl rfl⟩ hname hsent
    unfold discriminatorOf at hown
    split at hown
    · cases hown
    · rename_i hne
      exact ⟨(Graph.mem_below_iff hb.forest).2 (hbelow.resolve_left hne), Option.some.inj hown⟩

theorem tiedTo_iff_of_body (noSets : c.sets = []) :
    TiedTo c' p type ↔ ∀ d ∈ g.concrete base, ∀ x, g.Within d x →
      Declaring g base c.operation p.effectiveWireName x → g.className d = g.className x := by
  have differ := setsDiffer_of_resolve hb noSets h
  have hisIn : ∀ s' ∈ c'.sets, p.isIn s'.name = true ↔ ∃ d ∈ g.concrete base,
      s'.derivedType = some (g.qualify (g.className d)) ∧
        ∃ x, g.Within d x ∧ Declaring g base c.operation p.effectiveWireName x := by
    intro s' hs'
    rw [isIn_iff_hasField hb noFields h hp hbody, hasField_iff_declaring hb noFields h]
    simp only [classSet, differ.setFor_eq_some_iff hs']
  have declared := fun d hd x hx hdeclaring =>
    (declaring_of_resolve hb noFields h hp hbody htype (d := d) (x := x) hd hx hdeclaring).2
  constructor
  · rintro ⟨s, hs, hstype, honly⟩ d hd x hx hdeclaring
    obtain ⟨set, hset⟩ := exists_classSet_of_resolve hb h hd
    obtain ⟨s', hs', htype', _⟩ := of_setFor hset
    obtain rfl := (honly s' hs').1 ((hisIn s' hs').2 ⟨d, hd, htype', x, hx, hdeclaring⟩)
    refine qualify_injective g (Option.some.inj (htype'.symm.trans ?_))
    rw [hstype, declared d hd x hx hdeclaring]
  · intro same
    obtain ⟨d, hd, x, hx, hdeclaring⟩ := exists_declaring_of_resolve hb noFields h hp hbody
    obtain ⟨set, hset⟩ := exists_classSet_of_resolve hb h hd
    obtain ⟨s, hs, hstype, _⟩ := of_setFor hset
    refine ⟨s, hs, ?_, fun s' hs' => ⟨fun hset' => ?_, ?_⟩⟩
    · rw [hstype, same d hd x hx hdeclaring, declared d hd x hx hdeclaring]
    · obtain ⟨e, he, hstype', y, hy, hdeclaring'⟩ := (hisIn s' hs').1 hset'
      refine List.inj_on_of_nodup_map differ.types hs' hs ?_
      rw [hstype', hstype, same d hd x hx hdeclaring, same e he y hy hdeclaring',
        declared d hd x hx hdeclaring, declared e he y hy hdeclaring']
    · rintro rfl
      exact (hisIn s' hs').2 ⟨d, hd, hstype, x, hx, hdeclaring⟩

end Fields

/-! ## Parameters -/

/-- A tied switch belongs to the set of its type. A tied field comes from classes below the base
that have the name it is tied to, and belongs to the set of its type and to no other just when every
concrete class that has the property is called as the one that declares it. -/
theorem tiedTo_iff_of_resolve (hb : g.Built) (noSets : c.sets = [])
    (noFields : ∀ p ∈ c.parameters, p.location ≠ .body) (h : resolve g base c = (c', none))
    (hp : p ∈ c'.parameters) (htype : p.discriminator = some type) :
    (p.location = .typeDiscriminator → p ∉ c.parameters → TiedTo c' p type) ∧
      (p.location = .body →
        (∃ d ∈ g.concrete base, ∃ x, g.Within d x ∧
          Declaring g base c.operation p.effectiveWireName x) ∧
        (∀ d ∈ g.concrete base, ∀ x, g.Within d x →
          Declaring g base c.operation p.effectiveWireName x →
            x ∈ g.below base ∧ g.qualify (g.className x) = type) ∧
        (TiedTo c' p type ↔ ∀ d ∈ g.concrete base, ∀ x, g.Within d x →
          Declaring g base c.operation p.effectiveWireName x → g.className d = g.className x)) :=
  ⟨tiedTo_of_switch hb noSets h hp htype, fun hbody =>
    ⟨exists_declaring_of_resolve hb noFields h hp hbody,
      fun _ hd _ => declaring_of_resolve hb noFields h hp hbody htype hd,
      tiedTo_iff_of_body hb noFields h hp hbody htype noSets⟩⟩

/-- Books have pages, and audiobooks, which are books, have a reader too. -/
def audiobooks : Document :=
  { namespaceName := "shop"
    container := { name := "Shop", properties := [{ name := "item", typeName := "Item" }] }
    classes := [
      { name := "Item", properties := [{ name := "title", typeName := "Edm.String" }] },
      { name := "Book", base := some "Item"
        properties := [{ name := "pages", typeName := "Edm.Int32" }] },
      { name := "AudioBook", base := some "Book"
        properties := [{ name := "reader", typeName := "Edm.String" }] }] }

def audiobooksGraph : Graph :=
  (Graph.ofDocument audiobooks).toOption.getD (Graph.empty "shop" "Shop")

theorem audiobooksGraph_built : audiobooksGraph.Built := by
  have drawn : Graph.ofDocument audiobooks = .ok audiobooksGraph := by decide +kernel
  exact Document.built_of_ofDocument drawn

theorem resolve_audiobooks : ∃ c', resolve audiobooksGraph ⟨0⟩ newItem = (c', none) ∧
    (∃ p ∈ c'.parameters, p.location = .body ∧ p.effectiveWireName = "reader" ∧
      p.discriminator = some "shop.AudioBook") ∧
    ∃ p ∈ c'.parameters, p.location = .body ∧ p.discriminator = some "shop.Book" ∧
      ¬ TiedTo c' p "shop.Book" := by
  refine ⟨_, Prod.ext rfl ?_, ?_, ?_⟩
  · decide +kernel
  · decide +kernel
  · unfold TiedTo
    decide +kernel

/-- The reader is tied to audiobooks, and no other item has one. -/
theorem tiedTo_of_audiobooks :
    ∃ c', resolve audiobooksGraph ⟨0⟩ newItem = (c', none) ∧
      ∃ p ∈ c'.parameters, p.location = .body ∧ p.effectiveWireName = "reader" ∧
        p.discriminator = some "shop.AudioBook" ∧ TiedTo c' p "shop.AudioBook" := by
  obtain ⟨c', h, ⟨p, hp, hbody, hwire, htype⟩, _⟩ := resolve_audiobooks
  refine ⟨c', h, p, hp, hbody, hwire, htype, ?_⟩
  have alone : ∀ x ∈ audiobooksGraph.below ⟨0⟩,
      audiobooksGraph.qualify (audiobooksGraph.className x) = "shop.AudioBook" →
        ∀ d ∈ x :: audiobooksGraph.below x,
          audiobooksGraph.className d = audiobooksGraph.className x := by decide +kernel
  obtain ⟨_, hdeclared, htied⟩ := (tiedTo_iff_of_resolve audiobooksGraph_built rfl
    (fun p hp => absurd hp List.not_mem_nil) h hp htype).2 hbody
  refine htied.2 fun d hd x hx hdeclaring => ?_
  obtain ⟨hbelow, hname⟩ := hdeclared d hd x hx hdeclaring
  exact alone x hbelow hname d ((Graph.mem_hierarchy_iff audiobooksGraph_built.forest).2 hx)

/-- The pages are tied to books, and yet they are in the set of audiobooks as well. -/
theorem not_tiedTo_of_audiobooks :
    ¬ ∀ (g : Graph) (base : ClassId) (c c' : Command) (p : Parameter) (type : String), g.Built →
      c.operation = .post ∨ c.operation = .patch → c.sets = [] → c.parameters = [] →
        resolve g base c = (c', none) → p ∈ c'.parameters →
        p.location = .body ∨ p.location = .typeDiscriminator → p.discriminator = some type →
        TiedTo c' p type := by
  intro tied
  obtain ⟨c', h, _, p, hp, hbody, htype, hpages⟩ := resolve_audiobooks
  exact hpages (tied audiobooksGraph ⟨0⟩ newItem c' p "shop.Book" audiobooksGraph_built (.inl rfl)
    rfl rfl h hp (.inl hbody) htype)

end Synthesis
end EdmCommands
