import EdmCommands.Proofs.Naming
import EdmCommands.Proofs.Route.Template
import EdmCommands.Proofs.Schema.Built

/-!
# EdmCommands.Proofs.Route.Rendered

What holds of the names of a route: of its placeholders always, and of how they look when the
names of the schema have no braces.

* `placeholderNames`: the names of the placeholders along the segments.
* `fresh_of_renderFrom`: the placeholders along a route differ from each other.
* `WellNamed`: the names of segments have no braces, and the placeholders are told apart.
* `wellNamed_of_ofNode`: the routes in the tree are such.
-/

namespace EdmCommands
namespace Route

open Schema Text Config

/-- The names of a schema have no braces. -/
structure NamesFree (g : Graph) : Prop where
  space : BraceFree g.namespaceName
  classes : ∀ c ∈ g.classes, BraceFree c.name
  properties : ∀ p ∈ g.properties, BraceFree p.name
  methods : ∀ m ∈ g.methods, BraceFree m.name

def Segment.placeholderNames (s : Segment) : List String :=
  (s.id.map (·.name)).toList ++ (s.typecast.map (·.name)).toList

def placeholderNames (segments : List Segment) : List String :=
  segments.flatMap (·.placeholderNames)

structure WellNamed (segments : List Segment) : Prop where
  names : ∀ s ∈ segments, BraceFree s.name
  placeholders : ∀ name ∈ placeholderNames segments, IsPlaceholderName name
  distinct : (placeholderNames segments).Nodup
  /-- Nothing follows the last segment in a derived class. -/
  uncast : ∀ s ∈ segments.getLast?, s.typecast = none

variable {g : Graph} {config : Config} {taken : List String} {s : Segment}
  {rest segments : List Segment}

theorem WellNamed.tail (h : WellNamed (s :: rest)) : WellNamed rest := by
  obtain ⟨hnames, hplaceholders, hdistinct, huncast⟩ := h
  rw [placeholderNames, List.flatMap_cons] at hplaceholders hdistinct
  rw [List.forall_mem_append] at hplaceholders
  refine ⟨fun s hs => hnames s (List.mem_cons_of_mem _ hs), hplaceholders.2,
    (List.nodup_append.1 hdistinct).2.1, ?_⟩
  cases rest with
  | nil => simp
  | cons next rest => simpa using huncast

/-! ## Routes of the tree -/

theorem stem_free {name : String} (h : BraceFree name) : BraceFree (stem name) :=
  pascalCase_free (singular_free h)

/-- A name that is chosen for a placeholder is known to end in letters and digits. -/
theorem isPlaceholderName_freshName {front suffix : String} (hfront : BraceFree front)
    (hsuffix : IsPlainName suffix) (taken : List String) :
    IsPlaceholderName (Naming.freshName (front ++ suffix) taken) := by
  obtain ⟨plain, hplain, heq⟩ := freshName_append front hsuffix taken
  exact ⟨front, plain, hfront, hplain, heq⟩

theorem idPlaceholder_name {property : PropertyId} {p : Property} {id : IdPlaceholder}
    (h : idPlaceholder g config taken property p = .ok id) :
    id.name = Naming.freshName (stem p.name ++ config.idSuffix) taken := by
  unfold idPlaceholder at h
  split at h
  · obtain ⟨key, _, h⟩ := Fallible.bind_eq_ok_iff.1 h
    split at h
    · obtain ⟨_, _, h⟩ := Fallible.bind_eq_ok_iff.1 h
      obtain ⟨_, _, h⟩ := Fallible.bind_eq_ok_iff.1 h
      cases h
      rfl
    · obtain ⟨_, _, h⟩ := Fallible.bind_eq_ok_iff.1 h
      cases h
  · obtain ⟨_, _, h⟩ := Fallible.bind_eq_ok_iff.1 h
    cases h

/-- What the typecast placeholder of a segment is named after. -/
def castStem (g : Graph) (segmentName : String) (cast : Cast) : String :=
  if cast.byType then Naming.pascalCase (g.className cast.target) else stem segmentName

theorem typecastPlaceholder_name {p : Property} {cast : Cast} {typecast : TypecastPlaceholder}
    (h : typecastPlaceholder g config taken p cast = .ok typecast) :
    typecast.name = Naming.freshName (castStem g p.name cast ++ config.typecastSuffix) taken := by
  unfold typecastPlaceholder at h
  obtain ⟨target, htarget, h⟩ := Fallible.bind_eq_ok_iff.1 h
  cases h
  rw [castStem, Graph.className_of_classAt htarget]

theorem castStem_free (hg : NamesFree g) {segmentName : String} (h : BraceFree segmentName)
    (cast : Cast) : BraceFree (castStem g segmentName cast) := by
  unfold castStem
  split
  · refine pascalCase_free ?_
    unfold Graph.className
    cases htarget : g.classes[cast.target.index]? with
    | none => simp [BraceFree]
    | some target => exact hg.classes target (Array.mem_of_getElem? htarget)
  · exact stem_free h

/-- A part that is computed under a condition only. -/
theorem conditional_eq_ok_iff {α β : Type} {x : Except Fault α} {condition : Prop}
    [Decidable condition] {f : Option α → Except Fault β} {b : β} :
    (if condition then x.map some >>= f else pure none >>= f) = .ok b ↔
      ∃ part, part.isSome = decide condition ∧ (∀ a ∈ part, x = .ok a) ∧ f part = .ok b := by
  split
  · rename_i hcondition
    constructor
    · intro h
      obtain ⟨part, hpart, h⟩ := Fallible.bind_eq_ok_iff.1 h
      obtain ⟨a, ha, rfl⟩ := Fallible.map_eq_ok_iff.1 hpart
      exact ⟨some a, by simp [hcondition], by simpa using ha, h⟩
    · rintro ⟨part, hsome, hpart, h⟩
      obtain ⟨a, rfl⟩ := Option.isSome_iff_exists.1 (hsome.trans (decide_eq_true hcondition))
      rw [hpart a rfl]
      exact h
  · rename_i hcondition
    constructor
    · exact fun h => ⟨none, by simp [hcondition], by simp, h⟩
    · rintro ⟨part, hnone, _, h⟩
      obtain rfl : part = none := by simpa [hcondition] using hnone
      exact h

theorem renderFrom_cons_eq_ok_iff {ids : List Nat} {index : Nat} {step : Step}
    {steps : List Step} :
    renderFrom g config ids index taken (step :: steps) = .ok segments ↔
      ∃ p id typecast others, g.propertyAt step.property = .ok p ∧
        id.isSome = ids.contains index ∧
        (∀ i ∈ id, idPlaceholder g config taken step.property p = .ok i) ∧
        typecast.isSome = (steps.head?.bind (·.cast)).isSome ∧
        (∀ c ∈ typecast, ∃ cast, steps.head?.bind (·.cast) = some cast ∧
          typecastPlaceholder g config (taken ++ (id.map (·.name)).toList) p cast = .ok c) ∧
        renderFrom g config ids (index + 1)
          (taken ++ (id.map (·.name)).toList ++ (typecast.map (·.name)).toList) steps =
            .ok others ∧
        segments = ⟨p.name, id, typecast⟩ :: others := by
  rw [renderFrom, Fallible.bind_eq_ok_iff]
  refine exists_congr fun p => ?_
  cases hcast : steps.head?.bind (·.cast) with
  | none =>
    simp only [conditional_eq_ok_iff]
    constructor
    · rintro ⟨hp, id, hsome, hid, h⟩
      rw [pure_bind] at h
      obtain ⟨others, hothers, h⟩ := Fallible.bind_eq_ok_iff.1 h
      cases h
      exact ⟨id, none, others, hp, by simpa using hsome, hid, rfl, by simp, hothers, rfl⟩
    · rintro ⟨id, typecast, others, hp, hsome, hid, hnone, _, hothers, rfl⟩
      obtain rfl : typecast = none := by simpa using hnone
      refine ⟨hp, id, by simpa using hsome, hid, ?_⟩
      rw [pure_bind]
      exact Fallible.bind_eq_ok_iff.2 ⟨others, hothers, rfl⟩
  | some cast =>
    simp only [conditional_eq_ok_iff]
    constructor
    · rintro ⟨hp, id, hsome, hid, h⟩
      obtain ⟨_, hmap, h⟩ := Fallible.bind_eq_ok_iff.1 h
      obtain ⟨typecast, htypecast, rfl⟩ := Fallible.map_eq_ok_iff.1 hmap
      obtain ⟨others, hothers, h⟩ := Fallible.bind_eq_ok_iff.1 h
      cases h
      refine ⟨id, some typecast, others, hp, by simpa using hsome, hid, rfl, fun c hc => ?_,
        hothers, rfl⟩
      cases hc
      exact ⟨cast, rfl, htypecast⟩
    · rintro ⟨id, typecast, others, hp, hsome, hid, hcasts, hplaceholder, hothers, rfl⟩
      obtain ⟨c, rfl⟩ := Option.isSome_iff_exists.1 hcasts
      obtain ⟨_, heq, hc⟩ := hplaceholder c rfl
      cases heq
      refine ⟨hp, id, by simpa using hsome, hid, ?_⟩
      exact Fallible.bind_eq_ok_iff.2 ⟨some c, Fallible.map_eq_ok_iff.2 ⟨c, hc, rfl⟩,
        Fallible.bind_eq_ok_iff.2 ⟨others, hothers, rfl⟩⟩

/-- A segment has a typecast only for the step behind it. -/
theorem last_uncast {ids : List Nat} {index : Nat} {steps : List Step}
    (h : renderFrom g config ids index taken steps = .ok segments) :
    ∀ s ∈ segments.getLast?, s.typecast = none := by
  induction steps generalizing index taken segments with
  | nil =>
    cases h
    simp
  | cons step steps ih =>
    obtain ⟨p, id, typecast, others, _, _, _, hsome, _, hothers, rfl⟩ :=
      renderFrom_cons_eq_ok_iff.1 h
    cases steps with
    | nil =>
      have hnone : typecast = none := by simpa using hsome
      cases hothers
      simpa using hnone
    | cons next steps =>
      have rest := ih hothers
      obtain ⟨_, _, _, _, _, _, _, _, _, _, rfl⟩ := renderFrom_cons_eq_ok_iff.1 hothers
      simpa using rest

/-- A name is chosen so that it differs from those before it, so the placeholders differ from each
other. -/
theorem fresh_of_renderFrom {ids : List Nat} {index : Nat} {steps : List Step}
    (h : renderFrom g config ids index taken steps = .ok segments) :
    (placeholderNames segments).Nodup ∧ ∀ name ∈ placeholderNames segments, name ∉ taken := by
  induction steps generalizing index taken segments with
  | nil =>
    cases h
    simp [placeholderNames]
  | cons step steps ih =>
    obtain ⟨p, id, typecast, others, _, _, hids, _, hcasts, hothers, rfl⟩ :=
      renderFrom_cons_eq_ok_iff.1 h
    obtain ⟨hdistinct, hfresh⟩ := ih hothers
    -- the names of this segment are free when they are chosen, and taken for those behind it
    have own : ∀ name ∈ (id.map (·.name)).toList, name ∉ taken := by
      intro name hn
      obtain ⟨i, hi, rfl⟩ := Option.map_eq_some_iff.1 (Option.mem_toList.1 hn)
      rw [idPlaceholder_name (hids i hi)]
      exact Naming.freshName_not_mem _ _
    have cast : ∀ name ∈ (typecast.map (·.name)).toList,
        name ∉ taken ++ (id.map (·.name)).toList := by
      intro name hn
      obtain ⟨c, hc, rfl⟩ := Option.map_eq_some_iff.1 (Option.mem_toList.1 hn)
      obtain ⟨_, _, hplaceholder⟩ := hcasts c hc
      rw [typecastPlaceholder_name hplaceholder]
      exact Naming.freshName_not_mem _ _
    have single : ∀ o : Option String, o.toList.Nodup := by
      intro o
      cases o <;> simp
    simp only [List.append_assoc, List.mem_append, not_or] at hfresh cast
    rw [placeholderNames, List.flatMap_cons, Segment.placeholderNames, List.forall_mem_append,
      List.forall_mem_append]
    refine ⟨List.nodup_append.2 ⟨List.nodup_append.2 ⟨single _, single _, ?_⟩, hdistinct, ?_⟩,
      ⟨own, fun name hn => (cast name hn).1⟩, fun name hn => (hfresh name hn).1⟩
    · rintro a ha b hb rfl
      exact (cast a hb).2 ha
    · rintro a ha b hb rfl
      exact (List.mem_append.1 ha).elim (hfresh a hb).2.1 (hfresh a hb).2.2

/-- A placeholder ends in the suffix of its kind, but for the numbers behind both. -/
theorem suffix_of_renderFrom {ids : List Nat} {index : Nat} {steps : List Step}
    (h : renderFrom g config ids index taken steps = .ok segments) :
    ∀ name ∈ placeholderNames segments, ∃ suffix ∈ [config.idSuffix, config.typecastSuffix],
      Naming.unnumbered suffix <:+ Naming.unnumbered name := by
  induction steps generalizing index taken segments with
  | nil =>
    cases h
    simp [placeholderNames]
  | cons step steps ih =>
    obtain ⟨p, id, typecast, others, _, _, hids, _, hcasts, hothers, rfl⟩ :=
      renderFrom_cons_eq_ok_iff.1 h
    rw [placeholderNames, List.flatMap_cons, Segment.placeholderNames, List.forall_mem_append,
      List.forall_mem_append]
    refine ⟨⟨fun name hn => ?_, fun name hn => ?_⟩, ih hothers⟩
    · obtain ⟨i, hi, rfl⟩ := Option.map_eq_some_iff.1 (Option.mem_toList.1 hn)
      rw [idPlaceholder_name (hids i hi)]
      exact ⟨config.idSuffix, by simp, Naming.unnumbered_suffix_freshName _ _ _⟩
    · obtain ⟨c, hc, rfl⟩ := Option.map_eq_some_iff.1 (Option.mem_toList.1 hn)
      obtain ⟨_, _, hplaceholder⟩ := hcasts c hc
      rw [typecastPlaceholder_name hplaceholder]
      exact ⟨config.typecastSuffix, by simp, Naming.unnumbered_suffix_freshName _ _ _⟩

theorem wellNamed_of_renderFrom (hg : NamesFree g) (hid : IsPlainName config.idSuffix)
    (htypecast : IsPlainName config.typecastSuffix) {ids : List Nat} {index : Nat}
    {steps : List Step} (h : renderFrom g config ids index taken steps = .ok segments) :
    WellNamed segments := by
  have huncast := last_uncast h
  have hfresh := (fresh_of_renderFrom h).1
  induction steps generalizing index taken segments with
  | nil =>
    cases h
    refine ⟨?_, ?_, hfresh, huncast⟩ <;> simp [placeholderNames]
  | cons step steps ih =>
    obtain ⟨p, id, typecast, others, hp, _, hids, _, hcasts, hothers, rfl⟩ :=
      renderFrom_cons_eq_ok_iff.1 h
    have hname : BraceFree p.name := by
      rw [g.propertyAt_eq_ok_iff] at hp
      exact hg.properties p (Array.mem_of_getElem? hp)
    obtain ⟨hnames, hplaceholders, _, _⟩ :=
      ih hothers (last_uncast hothers) (fresh_of_renderFrom hothers).1
    have own : ∀ name ∈ (id.map (·.name)).toList, IsPlaceholderName name := by
      intro name hn
      obtain ⟨i, hi, rfl⟩ := Option.map_eq_some_iff.1 (Option.mem_toList.1 hn)
      rw [idPlaceholder_name (hids i hi)]
      exact isPlaceholderName_freshName (stem_free hname) hid _
    have cast : ∀ name ∈ (typecast.map (·.name)).toList, IsPlaceholderName name := by
      intro name hn
      obtain ⟨c, hc, rfl⟩ := Option.map_eq_some_iff.1 (Option.mem_toList.1 hn)
      obtain ⟨cast, _, hplaceholder⟩ := hcasts c hc
      rw [typecastPlaceholder_name hplaceholder]
      exact isPlaceholderName_freshName (castStem_free hg hname cast) htypecast _
    refine ⟨?_, ?_, hfresh, huncast⟩
    · rw [List.forall_mem_cons]
      exact ⟨hname, hnames⟩
    · rw [placeholderNames, List.flatMap_cons, Segment.placeholderNames, List.forall_mem_append,
        List.forall_mem_append]
      exact ⟨⟨own, cast⟩, hplaceholders⟩

theorem wellNamed_of_ofNode {n : Node} {r : Rendered} (hg : NamesFree g)
    (valid : config.validate = .ok ()) (h : Rendered.ofNode g config n = .ok r) :
    WellNamed r.segments := by
  obtain ⟨hid, htypecast, _⟩ := Config.of_validate valid
  obtain ⟨segments, hsegments, rfl⟩ := Fallible.map_eq_ok_iff.1 h
  exact wellNamed_of_renderFrom hg hid htypecast hsegments

end Route
end EdmCommands
