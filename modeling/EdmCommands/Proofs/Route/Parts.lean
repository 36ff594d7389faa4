import EdmCommands.Proofs.Route.Candidates
import EdmCommands.Proofs.Route.Rendered

/-!
# EdmCommands.Proofs.Route.Parts

The text of a route, part by part, said of its steps alone. Names of properties stand between
slashes as they are and placeholders in braces, so a text can be read only one way.

* `parts`: the parts that the steps of a route give.
* `text_eq_of_ofNode`: the text of a route is its parts with slashes between them.
* `exists_renderFrom`: there is a text where what the placeholders are made of is there.
* `parts_eq_of_intercalate_eq`: parts can be told from their text.
* `exists_parts_append`: what a step adds to the parts of those before it.
* `rivals_of_parts_eq`: where routes with the same parts go different ways, they do so along
  properties of one name, by casts that look alike.
-/

namespace EdmCommands
namespace Schema
namespace Graph

def isEntitySet (g : Graph) (p : PropertyId) : Bool :=
  g.properties[p.index]?.any (·.isCollection) && g.isNavigation p

/-- What the types of properties refer to is there. -/
def TypesKnown (g : Graph) : Prop :=
  ∀ p ∈ g.properties, ∃ t, g.elementType p.type = .ok t

instance (g : Graph) : Decidable g.TypesKnown :=
  decidable_of_iff (∀ p ∈ g.properties, (g.elementType p.type).toOption.isSome = true)
    (forall₂_congr fun p _ => by cases g.elementType p.type <;> simp [Except.toOption])

/-- The names of a schema can be parts of an address. -/
structure NamesUnmarked (g : Graph) : Prop where
  classes : ∀ c ∈ g.classes, Text.Unmarked c.name
  properties : ∀ p ∈ g.properties, Text.Unmarked p.name

variable {g : Graph}

theorem NamesUnmarked.className (h : g.NamesUnmarked) (id : ClassId) :
    Text.Unmarked (g.className id) := by
  unfold Graph.className
  cases hc : g.classes[id.index]? with
  | none => exact Text.Unmarked.of_alphanum (by simp)
  | some c => exact h.classes c (Array.mem_of_getElem? hc)

theorem NamesUnmarked.nameOf (h : g.NamesUnmarked) (p : PropertyId) :
    Text.Unmarked (g.nameOf p) := by
  unfold Graph.nameOf
  cases hq : g.properties[p.index]? with
  | none => exact Text.Unmarked.of_alphanum (by simp)
  | some q => exact h.properties q (Array.mem_of_getElem? hq)

end Graph
end Schema

namespace Route

open Schema Text

/-- The name of the identifier placeholder behind a property, if it has one. -/
def idName (g : Graph) (config : Config) (taken : List String) (p : PropertyId) : Option String :=
  if g.isEntitySet p then some (Naming.freshName (stem (g.nameOf p) ++ config.idSuffix) taken)
  else none

/-- The name of the typecast placeholder behind a property, if it is cast. -/
def castName (g : Graph) (config : Config) (taken : List String) (p : PropertyId)
    (cast : Option Cast) : Option String :=
  cast.map fun cast =>
    Naming.freshName (castStem g (g.nameOf p) cast ++ config.typecastSuffix) taken

/-- The parts of the text of a route, where `taken` holds the placeholders before them. -/
def parts (g : Graph) (config : Config) : (taken : List String) → List Step → List String
  | _, [] => []
  | taken, step :: rest =>
    let id := idName g config taken step.property
    let cast := castName g config (taken ++ id.toList) step.property (rest.head?.bind (·.cast))
    g.nameOf step.property ::
      ((id.map Rendered.placeholder).toList ++ (cast.map Rendered.placeholder).toList ++
        parts g config (taken ++ id.toList ++ cast.toList) rest)

/-- The indices, counted from `index`, are those of the entity collections among the steps. -/
def Marks (g : Graph) (ids : List Nat) (index : Nat) (steps : List Step) : Prop :=
  ∀ i, ids.contains (index + i) = steps[i]?.any fun step => g.isEntitySet step.property

/-- What the placeholders of a step are made of is there. -/
structure Supplied (g : Graph) (step : Step) : Prop where
  property : ∃ p, g.propertyAt step.property = .ok p
  key : g.isEntitySet step.property = true →
    ∃ target key, g.typeClass step.property = some target ∧ g.keyProperty target = .ok (some key)
  cast : ∀ c ∈ step.cast, ∃ target, g.classAt c.target = .ok target

/-- Two ways on from one path, of one name, are casts to different classes, and the placeholders
are named after these. -/
def ToldApart (g : Graph) (front : List Step) (a b : Step) : Prop :=
  g.nameOf a.property = g.nameOf b.property → front ≠ [] ∧
    ∃ c d, c ≠ d ∧ a.cast = some ⟨c, true⟩ ∧ b.cast = some ⟨d, true⟩

/-- The PascalCase name of the class that a step is cast to. -/
def castTypeName (g : Graph) (step : Step) : Option String :=
  step.cast.map fun c => Naming.pascalCase (g.className c.target)

/-- Two steps of one name by casts to classes with the same PascalCase name. -/
structure Rivals (g : Graph) (a b : Step) : Prop where
  name : g.nameOf a.property = g.nameOf b.property
  isCast : (castTypeName g a).isSome = true
  typeName : castTypeName g a = castTypeName g b

instance (g : Graph) (a b : Step) : Decidable (Rivals g a b) :=
  decidable_of_iff
    (g.nameOf a.property = g.nameOf b.property ∧ (castTypeName g a).isSome = true ∧
      castTypeName g a = castTypeName g b)
    ⟨fun ⟨hname, hcast, htype⟩ => ⟨hname, hcast, htype⟩,
      fun h => ⟨h.name, h.isCast, h.typeName⟩⟩

variable {g : Graph} {config : Config} {taken : List String}

/-! ## The text of a route -/

theorem Marks.cons {ids : List Nat} {index : Nat} {step : Step} {rest : List Step}
    (h : Marks g ids index (step :: rest)) :
    ids.contains index = g.isEntitySet step.property ∧ Marks g ids (index + 1) rest := by
  refine ⟨by simpa using h 0, fun i => ?_⟩
  have := h (i + 1)
  rwa [← Nat.add_assoc, Nat.add_right_comm, List.getElem?_cons_succ] at this

/-- The last segment has an identifier where the last step is an entity collection. -/
theorem terminalId_of_renderFrom {ids : List Nat} {index : Nat} {before : List Step} {step : Step}
    {segments : List Segment} (marks : Marks g ids index (before ++ [step]))
    (h : renderFrom g config ids index taken (before ++ [step]) = .ok segments) :
    (segments.getLast?.bind (·.id)).isSome = g.isEntitySet step.property := by
  induction before generalizing index taken segments with
  | nil =>
    obtain ⟨_, id, _, others, _, hsome, _, _, _, hothers, rfl⟩ := renderFrom_cons_eq_ok_iff.1 h
    cases hothers
    rw [← marks.cons.1, ← hsome]
    rfl
  | cons top before ih =>
    rw [List.cons_append] at h marks
    obtain ⟨_, _, _, others, _, _, _, _, _, hothers, rfl⟩ := renderFrom_cons_eq_ok_iff.1 h
    rw [← ih marks.cons.2 hothers]
    obtain ⟨next, steps, hsteps⟩ := List.exists_cons_of_ne_nil
      (List.append_ne_nil_of_right_ne_nil before (List.cons_ne_nil step []))
    rw [hsteps] at hothers
    obtain ⟨_, _, _, _, _, _, _, _, _, _, rfl⟩ := renderFrom_cons_eq_ok_iff.1 hothers
    rw [List.getLast?_cons_cons]

theorem urlParts_eq {ids : List Nat} {index : Nat} {steps : List Step} {segments : List Segment}
    (marks : Marks g ids index steps)
    (h : renderFrom g config ids index taken steps = .ok segments) :
    Rendered.urlParts .mandatory segments = parts g config taken steps := by
  induction steps generalizing index taken segments with
  | nil =>
    cases h
    rfl
  | cons step rest ih =>
    obtain ⟨p, id, typecast, others, hp, hset, hid, hcast, hcasts, hothers, rfl⟩ :=
      renderFrom_cons_eq_ok_iff.1 h
    obtain ⟨hmark, hmarks⟩ := marks.cons
    have hname := Graph.nameOf_of_getElem? ((g.propertyAt_eq_ok_iff).1 hp)
    have ids_eq : id.map (·.name) = idName g config taken step.property := by
      rw [hmark] at hset
      cases id with
      | none => simp [idName, ← hset]
      | some i => simp [idName, ← hset, idPlaceholder_name (hid i rfl), hname]
    have casts_eq : typecast.map (·.name) =
        castName g config (taken ++ (id.map (·.name)).toList) step.property
          (rest.head?.bind (·.cast)) := by
      cases typecast with
      | none =>
        have hnone : rest.head?.bind (·.cast) = none := by simpa using hcast.symm
        rw [hnone]
        rfl
      | some c =>
        obtain ⟨cast, hsome, hplaceholder⟩ := hcasts c rfl
        rw [hsome, castName, Option.map_some, Option.map_some,
          typecastPlaceholder_name hplaceholder, hname]
    have hrest := ih hmarks hothers
    rw [ids_eq] at casts_eq hrest
    rw [casts_eq] at hrest
    have idToken_eq : (id.map (Rendered.idToken others.isEmpty .mandatory)).getD [] =
        ((id.map (·.name)).map Rendered.placeholder).toList := by
      cases id with
      | none => rfl
      | some i => cases hlast : others.isEmpty <;> simp [Rendered.idToken]
    have cast_eq : (typecast.map fun t => Rendered.placeholder t.name).toList =
        ((typecast.map (·.name)).map Rendered.placeholder).toList := by
      simp [Function.comp_def]
    rw [Rendered.urlParts, parts, hrest, idToken_eq, cast_eq, ids_eq, casts_eq, hname]

theorem text_eq_of_ofNode {n : Node} {r : Rendered} (marks : Marks g n.idSegments 0 n.steps)
    (h : Rendered.ofNode g config n = .ok r) :
    r.text = "/".intercalate (parts g config [] n.steps) := by
  obtain ⟨segments, hsegments, rfl⟩ := Fallible.map_eq_ok_iff.1 h
  rw [← urlParts_eq marks hsegments]
  rfl

/-! ## Rendering a path -/

theorem known_of_findNamed {name : String} {ids : List PropertyId} {id : PropertyId}
    (h : g.findNamed name ids = .ok (some id)) : ∃ p, g.propertyAt id = .ok p := by
  induction ids with
  | nil => cases h
  | cons first rest ih =>
    unfold Graph.findNamed at h
    split at h
    · cases h
    rename_i p hp
    split at h
    · cases h
      exact ⟨p, hp⟩
    · exact ih h

theorem known_of_keyProperty {target : ClassId} {key : PropertyId}
    (h : g.keyProperty target = .ok (some key)) : ∃ p, g.propertyAt key = .ok p := by
  unfold Graph.keyProperty at h
  split at h
  · cases h
  · cases h
  split at h
  · cases h
  split at h
  · cases h
  · rename_i hfound
    cases h
    exact known_of_findNamed hfound
  · split at h <;> cases h

theorem exists_idPlaceholder (types : g.TypesKnown)
    {step : Step} {p : Property} (hp : g.propertyAt step.property = .ok p)
    (supplied : Supplied g step) (hset : g.isEntitySet step.property = true)
    (taken : List String) :
    ∃ id, idPlaceholder g config taken step.property p = .ok id := by
  obtain ⟨target, key, hclass, hkey⟩ := supplied.key hset
  obtain ⟨q, hq⟩ := known_of_keyProperty hkey
  obtain ⟨type, htype⟩ := types q (Array.mem_of_getElem? ((g.propertyAt_eq_ok_iff).1 hq))
  have hstructured : p.type = .structured target := by
    rwa [typeClass_of_propertyAt hp, TypeRef.target_eq_some_iff] at hclass
  unfold idPlaceholder
  rw [hstructured]
  simp [hkey, hq, Graph.parameterType, htype, Except.map, bind, Except.bind, pure, Except.pure]

theorem typecastPlaceholder_eq (config : Config) {cast : Cast} {target : StructuredType}
    (h : g.classAt cast.target = .ok target) (p : Property) (taken : List String) :
    typecastPlaceholder g config taken p cast = .ok
      { name := Naming.freshName (castStem g p.name cast ++ config.typecastSuffix) taken
        castType := g.qualify target.name } := by
  unfold typecastPlaceholder
  rw [h, castStem, Graph.className_of_classAt h]
  rfl

theorem exists_bind {α β : Type} {x : Except Fault α} {f : α → Except Fault β} {a : α}
    (hx : x = .ok a) (hf : ∃ b, f a = .ok b) : ∃ b, (x >>= f) = .ok b := by
  rw [hx]
  exact hf

theorem exists_conditional {α β : Type} {x : Except Fault α} {condition : Prop}
    [Decidable condition] {f : Option α → Except Fault β} (hx : condition → ∃ a, x = .ok a)
    (hf : ∀ part, ∃ b, f part = .ok b) :
    ∃ b, (if condition then x.map some >>= f else pure none >>= f) = .ok b := by
  split
  · rename_i hcondition
    obtain ⟨a, ha⟩ := hx hcondition
    rw [ha]
    exact hf (some a)
  · exact hf none

theorem exists_renderFrom (types : g.TypesKnown)
    {ids : List Nat} {index : Nat} {taken : List String} {steps : List Step}
    (marks : Marks g ids index steps) (supplied : ∀ step ∈ steps, Supplied g step) :
    ∃ segments, renderFrom g config ids index taken steps = .ok segments := by
  induction steps generalizing index taken with
  | nil => exact ⟨[], rfl⟩
  | cons step rest ih =>
    rw [List.forall_mem_cons] at supplied
    obtain ⟨hmark, hmarks⟩ := marks.cons
    obtain ⟨p, hp⟩ := supplied.1.property
    have identified : ids.contains index = true →
        ∃ id, idPlaceholder g config taken step.property p = .ok id := by
      intro hset
      rw [hmark] at hset
      exact exists_idPlaceholder types hp supplied.1 hset taken
    unfold renderFrom
    refine exists_bind hp ?_
    cases hcast : rest.head?.bind (·.cast) with
    | none =>
      simp only
      refine exists_conditional identified fun id => ?_
      refine exists_bind (a := none) rfl ?_
      obtain ⟨others, hothers⟩ := ih hmarks supplied.2
      exact exists_bind hothers ⟨_, rfl⟩
    | some cast =>
      obtain ⟨next, hnext, hsome⟩ := Option.bind_eq_some_iff.1 hcast
      have hmem := List.mem_of_head? hnext
      obtain ⟨target, htarget⟩ := (supplied.2 next hmem).cast cast hsome
      simp only
      refine exists_conditional identified fun id => ?_
      have typecast := typecastPlaceholder_eq config htarget p
        (taken ++ (id.map (·.name)).toList)
      refine exists_bind (Fallible.map_eq_ok_iff.2 ⟨_, typecast, rfl⟩) ?_
      obtain ⟨others, hothers⟩ := ih hmarks supplied.2
      exact exists_bind hothers ⟨_, rfl⟩

/-! ## Reading a text -/

theorem splitOn_intercalate {xs : List String} (hxs : xs ≠ []) (hx : ∀ x ∈ xs, '/' ∉ x.toList) :
    ("/".intercalate xs).toList.splitOn '/' = xs.map String.toList := by
  rw [String.toList_intercalate]
  exact List.splitOn_intercalate '/' (by simpa using hx) (by simpa using hxs)

theorem parts_eq_of_intercalate_eq {xs ys : List String} (hxs : xs ≠ []) (hys : ys ≠ [])
    (hx : ∀ x ∈ xs, '/' ∉ x.toList) (hy : ∀ y ∈ ys, '/' ∉ y.toList)
    (h : "/".intercalate xs = "/".intercalate ys) : xs = ys := by
  have hmap : xs.map String.toList = ys.map String.toList := by
    rw [← splitOn_intercalate hxs hx, ← splitOn_intercalate hys hy, h]
  exact List.map_injective_iff.2 (fun _ _ => String.toList_inj.1) hmap

theorem unmarked_freshName {front suffix : String} (hfront : Unmarked front)
    (hsuffix : Config.IsPlainName suffix) (taken : List String) :
    Unmarked (Naming.freshName (front ++ suffix) taken) := by
  obtain ⟨plain, hplain, heq⟩ := freshName_append front hsuffix taken
  rw [heq]
  exact hfront.append (.of_alphanum hplain.2)

theorem slash_not_mem_placeholder {name : String} (h : Unmarked name) :
    '/' ∉ (Rendered.placeholder name).toList := by
  have := fun hmem => h '/' hmem (by decide)
  simpa [placeholder_toList] using this

theorem slash_not_mem_parts (hg : g.NamesUnmarked) (valid : config.validate = .ok ())
    {steps : List Step} : ∀ part ∈ parts g config taken steps, '/' ∉ part.toList := by
  obtain ⟨hid, htypecast, _⟩ := Config.of_validate valid
  induction steps generalizing taken with
  | nil => simp [parts]
  | cons step rest ih =>
    have hname := hg.nameOf step.property
    have stems : Unmarked (stem (g.nameOf step.property)) := hname.singular.pascalCase
    rw [parts, List.forall_mem_cons, List.forall_mem_append, List.forall_mem_append]
    refine ⟨fun hmem => hname '/' hmem (by decide), ⟨fun part hpart => ?_, fun part hpart => ?_⟩,
      ih⟩
    · obtain ⟨name, hn, rfl⟩ := Option.map_eq_some_iff.1 (Option.mem_toList.1 hpart)
      unfold idName at hn
      split at hn
      · cases hn
        exact slash_not_mem_placeholder (unmarked_freshName stems hid _)
      · cases hn
    · obtain ⟨name, hn, rfl⟩ := Option.map_eq_some_iff.1 (Option.mem_toList.1 hpart)
      obtain ⟨cast, _, rfl⟩ := Option.map_eq_some_iff.1 hn
      refine slash_not_mem_placeholder (unmarked_freshName ?_ htypecast _)
      unfold castStem
      split
      · exact (hg.className _).pascalCase
      · exact stems

theorem parts_eq_of_text_eq (hg : g.NamesUnmarked) (valid : config.validate = .ok ())
    {steps steps' : List Step} (hne : steps ≠ []) (hne' : steps' ≠ [])
    (h : "/".intercalate (parts g config [] steps) = "/".intercalate (parts g config [] steps')) :
    parts g config [] steps = parts g config [] steps' := by
  have nonempty : ∀ steps : List Step, steps ≠ [] → parts g config [] steps ≠ [] := by
    intro steps hne
    cases steps with
    | nil => exact absurd rfl hne
    | cons step rest => simp [parts]
  exact parts_eq_of_intercalate_eq (nonempty _ hne) (nonempty _ hne')
    (slash_not_mem_parts hg valid) (slash_not_mem_parts hg valid) h

/-! ## Where routes part -/

/-- What a step adds to the parts of those before it; `used` are the placeholders that it finds. -/
theorem exists_parts_append (g : Graph) (config : Config) (taken : List String)
    (front : List Step) (last : Step) :
    ∃ used, ∀ step rest,
      parts g config taken (front ++ [last] ++ step :: rest) =
        parts g config taken (front ++ [last]) ++
          (((castName g config used last.property step.cast).map Rendered.placeholder).toList ++
            parts g config (used ++ (castName g config used last.property step.cast).toList)
              (step :: rest)) := by
  induction front generalizing taken with
  | nil =>
    refine ⟨taken ++ (idName g config taken last.property).toList, fun step rest => ?_⟩
    simp [parts, castName]
  | cons first front ih =>
    obtain ⟨next, tail, hnext⟩ : ∃ next tail, front ++ [last] = next :: tail := by
      cases front with
      | nil => exact ⟨last, [], rfl⟩
      | cons next tail => exact ⟨next, tail ++ [last], rfl⟩
    let id := idName g config taken first.property
    let cast := castName g config (taken ++ id.toList) first.property next.cast
    obtain ⟨used, h⟩ := ih (taken ++ id.toList ++ cast.toList)
    refine ⟨used, fun step rest => ?_⟩
    have hstep := h step rest
    rw [hnext] at hstep
    rw [List.cons_append, hnext, List.cons_append, parts, parts]
    simp only [List.cons_append, List.head?_cons, Option.bind_some]
    simp only [List.cons_append] at hstep
    rw [hstep, List.append_assoc _ (parts g config _ _)]

/-- The parts of a route are fewer than those of one that continues it. -/
theorem parts_ne_of_continued {front : List Step} {a b : Step} {rest : List Step} :
    parts g config taken (front ++ [a]) ≠ parts g config taken (front ++ [a] ++ b :: rest) := by
  obtain ⟨used, h⟩ := exists_parts_append g config taken front a
  intro heq
  have := congrArg List.length heq
  rw [h, List.length_append, List.length_append, parts, List.length_cons] at this
  omega

theorem placeholder_injective {s t : String}
    (h : Rendered.placeholder s = Rendered.placeholder t) : s = t := by
  have := congrArg String.toList h
  rw [placeholder_toList, placeholder_toList] at this
  exact String.toList_inj.1 (List.append_cancel_right (List.cons.inj this).2)

theorem nameOf_ne_placeholder (hg : g.NamesUnmarked) (p : PropertyId) (name : String) :
    g.nameOf p ≠ Rendered.placeholder name := by
  intro heq
  refine hg.nameOf p '\x7b' ?_ (by decide)
  rw [heq, placeholder_toList]
  exact List.mem_cons_self

/-- A cast can be told from the name behind it. -/
theorem cast_eq_of_append_eq (hg : g.NamesUnmarked) {cast cast' : Option String}
    {p q : PropertyId} {rest rest' : List String}
    (h : (cast.map Rendered.placeholder).toList ++ g.nameOf p :: rest =
      (cast'.map Rendered.placeholder).toList ++ g.nameOf q :: rest') :
    cast = cast' ∧ g.nameOf p = g.nameOf q := by
  cases cast with
  | none =>
    cases cast' with
    | none => exact ⟨rfl, (List.cons.inj h).1⟩
    | some name => exact absurd (List.cons.inj h).1 (nameOf_ne_placeholder hg p name)
  | some name =>
    cases cast' with
    | none => exact absurd (List.cons.inj h).1.symm (nameOf_ne_placeholder hg q name)
    | some name' =>
      obtain ⟨hplaceholder, h⟩ := List.cons.inj h
      rw [placeholder_injective hplaceholder]
      exact ⟨rfl, (List.cons.inj h).1⟩

theorem rivals_of_parts_eq (hg : g.NamesUnmarked)
    (letter : ∃ c ∈ config.typecastSuffix.toList, c.isDigit = false) {front : List Step}
    {a b : Step} {rest rest' : List Step} (apart : ToldApart g front a b)
    (h : parts g config taken (front ++ a :: rest) = parts g config taken (front ++ b :: rest')) :
    Rivals g a b := by
  rcases List.eq_nil_or_concat front with rfl | ⟨front, last, rfl⟩
  · have hname : g.nameOf a.property = g.nameOf b.property := (List.cons.inj h).1
    exact absurd rfl (apart hname).1
  rw [List.concat_eq_append] at h apart
  obtain ⟨used, happend⟩ := exists_parts_append g config taken front last
  rw [happend, happend] at h
  have h := List.append_cancel_left h
  rw [parts, parts] at h
  obtain ⟨hcast, hname⟩ := cast_eq_of_append_eq hg h
  obtain ⟨_, c, d, _, ha, hb⟩ := apart hname
  simp only [castName, ha, hb, Option.map_some, Option.some.injEq] at hcast
  -- the numbers behind the names may differ, what stands in front of the suffix does not
  have hstem := Naming.eq_of_freshName_eq letter hcast
  refine ⟨hname, by simp [castTypeName, ha], ?_⟩
  simpa [castTypeName, ha, hb, castStem] using hstem

/-- Rivals that are told apart by their casts alone give the same parts. -/
theorem parts_eq_of_rivals {front : List Step} {a b : Step} (apart : ToldApart g front a b)
    (rivals : Rivals g a b) (kind : g.isEntitySet a.property = g.isEntitySet b.property) :
    parts g config taken (front ++ [a]) = parts g config taken (front ++ [b]) := by
  obtain ⟨hname, _, htype⟩ := rivals
  obtain ⟨hne, c, d, _, ha, hb⟩ := apart hname
  rcases List.eq_nil_or_concat front with rfl | ⟨front, last, rfl⟩
  · exact absurd rfl hne
  rw [List.concat_eq_append]
  obtain ⟨used, happend⟩ := exists_parts_append g config taken front last
  have hcast : castName g config used last.property a.cast =
      castName g config used last.property b.cast := by
    simp only [castTypeName, ha, hb, Option.map_some, Option.some.injEq] at htype
    simp [castName, ha, hb, castStem, htype]
  have alone : ∀ taken, parts g config taken [a] = parts g config taken [b] := by
    intro taken
    simp only [parts, idName, castName, hname, kind, List.head?_nil, Option.bind_none,
      Option.map_none]
  rw [happend, happend, hcast, alone]

end Route
end EdmCommands
