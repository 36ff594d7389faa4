import EdmCommands.Proofs.Document.Drawn

/-!
# EdmCommands.Proofs.Document.Inheritance

Inheritance in a graph beside inheritance in the document that it is drawn from, and what classes
inherit: names of properties and keys.

* `Drawn.below_of_derives`, `Drawn.derives_of_below`: a class is below another one here and there.
* `Drawn.exists_named_iff`: a class has or inherits a property of some name here and there.
* `Drawn.keyOf_iff`, `Drawn.checkKey_eq_ok_iff`: the key of a class, and when it is accepted.
-/

namespace EdmCommands
namespace Document

open Schema (ClassId Owner Property Graph PropertyId)

variable {doc : Document} {g : Graph} {linked : List ClassEntry}
  {members : List (Owner × PropertyEntry)} {operations : List (ClassId × MethodEntry)}
  {x y : ClassId} {c d b : ClassEntry} {above : List ClassId} {ids : List PropertyId} {key : String}

namespace Drawn

/-! ## Links -/

section Links

variable (h : doc.Drawn linked members operations g) (plain : ∀ c ∈ doc.classes, IsPlain c.name)
include h plain

theorem extends_of_baseOf (front : linked <+: doc.classes) (hbase : g.baseOf x = some y) :
    ∃ d b, doc.classes[x.index]? = some d ∧ doc.classes[y.index]? = some b ∧ doc.Extends d b := by
  rw [h.baseOf] at hbase
  obtain ⟨text, htext, hfound⟩ := Option.bind_eq_some_iff.1 hbase
  obtain ⟨d, hd, hdbase⟩ := Option.bind_eq_some_iff.1 htext
  obtain ⟨b, hb, hrefers⟩ := (h.findClass_eq_some_iff plain).1 hfound
  obtain ⟨rest, heq⟩ := front
  have hd' : doc.classes[x.index]? = some d := by
    rw [← heq, List.getElem?_append_left (List.getElem?_eq_some_iff.1 hd).1]
    exact hd
  exact ⟨d, b, hd', hb, List.mem_of_getElem? hd', List.mem_of_getElem? hb, text, hdbase, hrefers⟩

/-- A class of the graph that is below another one is below it in the document. -/
theorem below_of_derives (front : linked <+: doc.classes) (hd : g.Derives x y) :
    ∃ d b, doc.classes[x.index]? = some d ∧ doc.classes[y.index]? = some b ∧ doc.Below d b := by
  induction hd with
  | single hbase =>
    obtain ⟨d, b, hd, hb, hextends⟩ := h.extends_of_baseOf plain front hbase
    exact ⟨d, b, hd, hb, .single hextends⟩
  | tail _ hbase ih =>
    obtain ⟨d, b, hd, hb, hbelow⟩ := ih
    obtain ⟨b', a, hb', ha, hextends⟩ := h.extends_of_baseOf plain front hbase
    rw [hb] at hb'
    cases hb'
    exact ⟨d, a, hd, ha, .tail hbelow hextends⟩

end Links

section Linked

variable (h : doc.Drawn doc.classes members operations g)
  (plain : ∀ c ∈ doc.classes, IsPlain c.name)
include h plain

theorem baseOf_of_extends (hd : doc.classes[x.index]? = some d)
    (hb : doc.classes[y.index]? = some b) (hextends : doc.Extends d b) : g.baseOf x = some y := by
  obtain ⟨_, _, text, htext, hrefers⟩ := hextends
  rw [h.baseOf, hd, Option.bind_some, htext, Option.bind_some]
  exact (h.findClass_eq_some_iff plain).2 ⟨b, hb, hrefers⟩

theorem derives_of_below (hd : doc.classes[x.index]? = some d)
    (hb : doc.classes[y.index]? = some b) (hbelow : doc.Below d b) : g.Derives x y := by
  induction hbelow generalizing y with
  | single hextends => exact .single (h.baseOf_of_extends plain hd hb hextends)
  | @tail a b _ hextends ih =>
    obtain ⟨i, hi⟩ := List.mem_iff_getElem?.1 hextends.1
    exact .tail (ih (y := ⟨i⟩) hi) (h.baseOf_of_extends plain hi hb hextends)

end Linked

/-! ## Declarations of what is in the tables -/

theorem exists_declaration (h : doc.Drawn linked members operations g) {p : Property}
    (hp : p ∈ g.properties.toList) :
    ∃ x ∈ members, x.1 = p.owner ∧ x.2.name = p.name ∧ x.2.isReference = p.isReference := by
  obtain ⟨x, hx, type, _, rfl⟩ := Fallible.exists_of_mem_right h.properties hp
  exact ⟨x, hx, rfl, rfl, rfl⟩

theorem exists_declaration_of_own (h : doc.Drawn linked members operations g) {p : PropertyId}
    {q : Property} (hp : p ∈ g.ownProperties x) (hq : g.properties[p.index]? = some q) :
    ∃ e, (.structured x, e) ∈ members ∧ e.name = q.name := by
  obtain ⟨r, hr, howner⟩ := h.built.wellOwned.own_known hp
  rw [hq] at hr
  cases hr
  obtain ⟨⟨owner, e⟩, hx, hxowner, hxname, _⟩ :=
    h.exists_declaration (Array.mem_toList_iff.2 (Array.mem_of_getElem? hq))
  rw [howner] at hxowner
  cases hxowner
  exact ⟨e, hx, hxname⟩

/-! ## What a class has and inherits -/

section Keys

variable (h : doc.Drawn doc.classes doc.propertyDeclarations operations g)
include h

theorem exists_own_iff {name : String} : (∃ p ∈ g.ownProperties x, g.nameOf p = name) ↔
    ∃ c, doc.classes[x.index]? = some c ∧ ∃ e ∈ c.properties, e.name = name := by
  constructor
  · rintro ⟨p, hp, rfl⟩
    obtain ⟨q, hq, _⟩ := h.built.wellOwned.own_known hp
    obtain ⟨e, he, hname⟩ := h.exists_declaration_of_own hp hq
    obtain ⟨c, hc, he⟩ := mem_propertyDeclarations_iff.1 he
    exact ⟨c, hc, e, he, by rw [Graph.nameOf_of_getElem? hq, hname]⟩
  · rintro ⟨c, hc, e, he, rfl⟩
    obtain ⟨q, hq, type, _, rfl⟩ :=
      Fallible.exists_of_mem_left h.properties (mem_propertyDeclarations_iff.2 ⟨c, hc, he⟩)
    obtain ⟨i, hi⟩ := List.mem_iff_getElem?.1 hq
    rw [Array.getElem?_toList] at hi
    exact ⟨⟨i⟩, h.built.listed.mem_listedBy (p := ⟨i⟩) hi, Graph.nameOf_of_getElem? (p := ⟨i⟩) hi⟩

variable (plain : ∀ c ∈ doc.classes, IsPlain c.name) (hc : doc.classes[x.index]? = some c)
include plain hc

theorem exists_named_iff (hids : g.allProperties x = .ok ids) :
    (∃ p ∈ ids, g.nameOf p = key) ↔ doc.HasProperty c key := by
  have hf := h.built.forest
  constructor
  · rintro ⟨p, hp, hname⟩
    obtain ⟨y, hwithin, hown⟩ := (Graph.mem_allProperties_iff hf hids).1 hp
    obtain ⟨b, hb, he⟩ := h.exists_own_iff.1 ⟨p, hown, hname⟩
    refine ⟨b, ?_, he⟩
    rcases hwithin with rfl | hderives
    · rw [hc] at hb
      exact .inl (Option.some.inj hb).symm
    · obtain ⟨c', b', hc', hb', hbelow⟩ := h.below_of_derives plain List.prefix_rfl hderives
      rw [hc] at hc'
      rw [hb] at hb'
      cases hc'
      cases hb'
      exact .inr hbelow
  · rintro ⟨b, habove, he⟩
    obtain ⟨y, hb, hwithin⟩ : ∃ y : ClassId, doc.classes[y.index]? = some b ∧ g.Within x y := by
      rcases habove with rfl | hbelow
      · exact ⟨x, hc, .inl rfl⟩
      · obtain ⟨j, hj⟩ := List.mem_iff_getElem?.1 hbelow.mem.2
        exact ⟨⟨j⟩, hj, .inr (h.derives_of_below plain hc (y := ⟨j⟩) hj hbelow)⟩
    obtain ⟨p, hp, hname⟩ := h.exists_own_iff.2 ⟨b, hb, he⟩
    exact ⟨p, (Graph.mem_allProperties_iff hf hids).2 ⟨y, hwithin, hp⟩, hname⟩

omit plain in
theorem ownKey_eq : g.ownKey x = c.key := by
  have hhead := h.heads_getElem? (i := x.index)
  rw [hc, Graph.heads_getElem?] at hhead
  obtain ⟨t, ht, htype⟩ := Option.map_eq_some_iff.1 hhead
  rw [Graph.ownKey, ht, Option.bind_some]
  exact congrArg Schema.StructuredType.key htype

/-- The first key along the chain of bases is the key of the entry. -/
theorem keyOf_iff (hchain : g.BaseChain x above) :
    (x :: above).findSome? g.ownKey = some key ↔ doc.KeyOf c key := by
  induction hchain generalizing c with
  | @root x hbase =>
    rw [List.findSome?_cons, h.ownKey_eq hc]
    constructor
    · intro hkey
      cases hown : c.key with
      | none => simp [hown] at hkey
      | some own =>
        simp only [hown, Option.some.injEq] at hkey
        exact .own (hown.trans (congrArg some hkey))
    · intro hkey
      cases hkey with
      | own hown => simp [hown]
      | inherited _ hextends _ =>
        obtain ⟨j, hj⟩ := List.mem_iff_getElem?.1 hextends.2.1
        rw [h.baseOf_of_extends plain hc (y := ⟨j⟩) hj hextends] at hbase
        cases hbase
  | @link x base above hbase _ ih =>
    obtain ⟨c', b, hc', hb, hextends⟩ := h.extends_of_baseOf plain List.prefix_rfl hbase
    rw [hc] at hc'
    cases hc'
    rw [List.findSome?_cons, h.ownKey_eq hc]
    cases hown : c.key with
    | some own =>
      simp only [Option.some.injEq]
      constructor
      · rintro rfl
        exact .own hown
      · intro hkey
        cases hkey with
        | own hkey =>
          rw [hown] at hkey
          exact Option.some.inj hkey
        | inherited hnone => rw [hown] at hnone; cases hnone
    | none =>
      simp only [ih hb]
      constructor
      · exact .inherited hown hextends
      · intro hkey
        cases hkey with
        | own hkey => rw [hown] at hkey; cases hkey
        | @inherited _ b' _ _ hextends' hkey =>
          obtain ⟨j, hj⟩ := List.mem_iff_getElem?.1 hextends'.2.1
          rw [h.baseOf_of_extends plain hc (y := ⟨j⟩) hj hextends'] at hbase
          cases hbase
          rw [hb] at hj
          cases hj
          exact hkey

theorem keyProperty_of_keyOf (hkey : doc.KeyOf c key) (hprop : doc.HasProperty c key) :
    ∃ ids p, g.allProperties x = .ok ids ∧ p ∈ ids ∧ g.nameOf p = key ∧
      g.keyProperty x = .ok (some p) := by
  have hf := h.built.forest
  have known := h.isClass_iff.2 ⟨c, hc⟩
  obtain ⟨above, _, hchain⟩ := hf.exists_ancestors known
  have hids := Graph.allProperties_eq hf known hchain
  obtain ⟨p, hp, hname⟩ := (h.exists_named_iff plain hc hids).2 hprop
  cases hfind : List.find? (fun p => g.nameOf p == key)
      ((above.reverse ++ [x]).flatMap g.ownProperties) with
  | none => simpa [hname] using List.find?_eq_none.1 hfind p hp
  | some q =>
    refine ⟨_, q, hids, List.mem_of_find?_eq_some hfind, ?_, ?_⟩
    · simpa using List.find?_some hfind
    · exact ((Graph.keyProperty_eq hf h.built.wellOwned known hchain hids).1 q).2
        ⟨key, (h.keyOf_iff plain hc hchain).2 hkey, hfind⟩

theorem keyProperty_eq_ok_none_iff :
    g.keyProperty x = .ok none ↔ ∀ key, ¬ doc.KeyOf c key := by
  have hf := h.built.forest
  have known := h.isClass_iff.2 ⟨c, hc⟩
  obtain ⟨above, _, hchain⟩ := hf.exists_ancestors known
  rw [(Graph.keyProperty_eq hf h.built.wellOwned known hchain
    (Graph.allProperties_eq hf known hchain)).2, Option.eq_none_iff_forall_ne_some]
  exact forall_congr' fun key => not_congr (h.keyOf_iff plain hc hchain)

/-- The key that an entry declares is accepted when it names a property that the class has or
inherits. -/
theorem checkKey_eq_ok_iff :
    g.checkKey c = .ok () ↔ ∀ key, c.key = some key → doc.HasProperty c key := by
  have hf := h.built.forest
  have known := h.isClass_iff.2 ⟨c, hc⟩
  have hfound : g.findClass c.name = some x :=
    (h.findClass_eq_some_iff plain).2 ⟨c, hc, .inl rfl⟩
  unfold Graph.checkKey
  cases hown : c.key with
  | none => simp
  | some key =>
    simp only [hfound, Option.some.injEq, forall_eq', Fallible.map_eq_ok_iff, and_true]
    have hkey : doc.KeyOf c key := .own hown
    constructor
    · rintro ⟨found, hprop⟩
      cases found with
      | none => exact absurd hkey ((h.keyProperty_eq_ok_none_iff plain hc).1 hprop key)
      | some p =>
        obtain ⟨above, _, hchain⟩ := hf.exists_ancestors known
        have hids := Graph.allProperties_eq hf known hchain
        obtain ⟨key', hkey', hfind⟩ :=
          ((Graph.keyProperty_eq hf h.built.wellOwned known hchain hids).1 p).1 hprop
        rw [(h.keyOf_iff plain hc hchain).2 hkey] at hkey'
        cases hkey'
        refine (h.exists_named_iff plain hc hids).1 ⟨p, List.mem_of_find?_eq_some hfind, ?_⟩
        simpa using List.find?_some hfind
    · intro hprop
      obtain ⟨_, p, _, _, _, hp⟩ := h.keyProperty_of_keyOf plain hc hkey hprop
      exact ⟨some p, hp⟩

end Keys

end Drawn

end Document
end EdmCommands
