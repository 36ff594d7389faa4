import EdmCommands.Proofs.Route.Parents
import EdmCommands.Proofs.Route.Siblings

/-!
# EdmCommands.Proofs.Route.Typed

What a node of the tree records of its path, against the types of the properties: which segments
are entity collections, and which are cast to what class. With that in order every node has its
names, and the identifier of its last segment stands behind the address of the collection.

* `markedSegments`: the places of the entity collections on a path.
* `WellTyped`: the records of a node agree with the types of the properties.
* `Spells`: the segments of a route are those of a node, with the placeholders that it records.
* `Begins`: a path starts at an entry point and goes on along legs that can follow each other.
* `mem_typecastSegments_iff`: a segment is cast where the step behind it has a cast.
* `wellTyped_of_begins`: the records of a path of the schema agree with its types.
* `spells_of_begins`: the names of a node follow its records.
* `urlParts_eq_append`: what stands behind the address of a collection.
* `typed_of_build`: so for the tree of a schema.
-/

namespace EdmCommands
namespace Route

open Schema

/-- The places of the entity collections on a path, in ascending order. -/
def markedSegments (g : Graph) (path : List PropertyId) : List Nat :=
  (List.range path.length).filter fun i => path[i]?.any g.isEntitySet

/-- The records of a node agree with the types of the properties on its path. -/
structure WellTyped (g : Graph) (n : Node) : Prop where
  idSegments : n.idSegments = markedSegments g n.path
  /-- What is addressed by identifiers has a key. -/
  keys : ∀ i ∈ n.idSegments, ∃ p target key, n.path[i]? = some p ∧ g.typeClass p = some target ∧
    g.keyProperty target = .ok (some key)
  /-- A segment is cast to the class below its own that declares the property behind it. -/
  casts : ∀ i c, (∃ byType, (i, ⟨c, byType⟩) ∈ n.typecastSegments) ↔
    ∃ p q target, n.path[i]? = some p ∧ n.path[i + 1]? = some q ∧ g.typeClass p = some target ∧
      q ∈ g.ownProperties c ∧ g.Derives c target
  castOnce : (n.typecastSegments.map (·.1)).Nodup
  /-- Without a cast the property behind a segment is declared on its class or above it. -/
  uncast : ∀ i p q, n.path[i]? = some p → n.path[i + 1]? = some q →
    i ∉ n.typecastSegments.map (·.1) →
    ∃ target owner, g.typeClass p = some target ∧ g.Within target owner ∧
      q ∈ g.ownProperties owner
  last : n.depth - 1 ∉ n.typecastSegments.map (·.1)

/-- The segments of a route are named after the properties of a node, and have placeholders where
the node has records. -/
structure Spells (g : Graph) (n : Node) (r : Rendered) : Prop where
  names : List.Forall₂ (fun id s => ∃ p, g.propertyAt id = .ok p ∧ s.name = p.name) n.path
    r.segments
  ids : ∀ i s, r.segments[i]? = some s → (s.id.isSome ↔ i ∈ n.idSegments)
  typecasts : ∀ i s, r.segments[i]? = some s →
    (s.typecast.isSome ↔ i ∈ n.typecastSegments.map (·.1))
  terminal : r.terminalId.isSome ↔ n.depth - 1 ∈ n.idSegments

/-- A path that starts at an entry point and goes on along legs that can follow each other. -/
structure Begins (g : Graph) (legs : List Leg) : Prop where
  entry : ∃ p rest, legs = ⟨p, none⟩ :: rest ∧ p ∈ g.container.properties
  continues : legs.IsChain fun a b => Continues g a.property b

variable {g : Graph} {config : Config} {tree : Tree} {n : Node}

/-! ## Entity collections -/

theorem markedSegments_append (path : List PropertyId) (p : PropertyId) :
    markedSegments g (path ++ [p]) =
      markedSegments g path ++ if g.isEntitySet p then [path.length] else [] := by
  have before : (List.range path.length).filter (fun i => (path ++ [p])[i]?.any g.isEntitySet) =
      markedSegments g path := by
    refine List.filter_congr fun i hi => ?_
    rw [List.getElem?_append_left (List.mem_range.1 hi)]
  rw [markedSegments, List.length_append, List.length_singleton, List.range_succ,
    List.filter_append, before]
  congr 1
  simp only [List.filter_cons, List.getElem?_concat_length, Option.any_some, List.filter_nil]

theorem lt_of_mem_markedSegments {path : List PropertyId} {i : Nat}
    (h : i ∈ markedSegments g path) : i < path.length :=
  List.mem_range.1 (List.mem_filter.1 h).1

theorem idSegments_of_extends {path : List Step} {ids : List Nat} (h : n.Extends path ids)
    (hids : ids = markedSegments g (path.map (·.property)))
    (marks : Marks g n.idSegments 0 n.steps) : n.idSegments = markedSegments g n.path := by
  obtain ⟨hbefore, hself⟩ := h
  have hpath : n.path = path.map (·.property) ++ [n.step.property] := by
    simp [Node.path, Node.steps, hbefore]
  have fresh : path.length ∉ ids := by
    rw [hids]
    intro hmem
    have := lt_of_mem_markedSegments hmem
    simp at this
  have hlast : n.idSegments.contains path.length = g.isEntitySet n.step.property := by
    have := marks path.length
    simpa [Node.steps, hbefore] using this
  rw [hpath, markedSegments_append, ← hids, List.length_map, ← hlast]
  rcases hself with hself | hself <;> rw [hself] <;> simp [fresh]

theorem idSegments_of_build (built : g.Built) (h : Tree.build g config = .ok tree) {i : Nat}
    (hn : tree.nodes[i]? = some n) : n.idSegments = markedSegments g n.path := by
  induction i using Nat.strongRecOn generalizing n with
  | ind i ih =>
    have marks := (addressed_of_build built h n (List.mem_of_getElem? hn)).marks
    rcases parent_of_build h hn with ⟨_, hextends⟩ | ⟨j, m, hj, _, hm, hextends⟩
    · exact idSegments_of_extends hextends rfl marks
    · exact idSegments_of_extends hextends (ih j hj (node_eq_ok_iff.1 hm)) marks

/-! ## Casts -/

theorem begins_of_build (built : g.Built) (h : Tree.build g config = .ok tree)
    (hn : n ∈ tree.nodes) : Begins g n.legs := by
  obtain ⟨steps, hroots, hexplores⟩ := build_eq_ok_iff.1 h
  obtain ⟨leg, hleg, rest, hlegs, hleads⟩ :=
    (mem_legs_iff_leads built.forest hexplores).1 (List.mem_map_of_mem hn)
  rw [mem_legs_reverse_stackOrder, (roots_eq_ok hroots).1] at hleg
  obtain ⟨p, hp, rfl⟩ := List.mem_map.1 hleg
  rw [List.map_nil, List.nil_append] at hlegs
  rw [hlegs]
  exact ⟨⟨p, rest, rfl, hp⟩, ((leads_iff (by simp)).1 hleads).1⟩

/-- A leg is cast to a class just where this declares its property below the class that the leg
starts from. -/
theorem Offers.cast_eq_some_iff (hf : g.Forest) (hw : g.WellOwned) {target : ClassId} {leg : Leg}
    (h : Offers g target leg) {c : ClassId} :
    leg.cast = some c ↔ leg.property ∈ g.ownProperties c ∧ g.Derives c target := by
  obtain ⟨_, h⟩ := h
  cases hcast : leg.cast with
  | none =>
    rw [hcast] at h
    obtain ⟨owner, hwithin, howner⟩ := h
    refine ⟨nofun, fun ⟨hmem, hderives⟩ => ?_⟩
    obtain rfl := hw.owner_unique howner hmem
    exact absurd (hwithin.elim (fun heq => heq ▸ hderives) hderives.trans) hf.not_derives_self
  | some d =>
    rw [hcast] at h
    rw [Option.some.injEq]
    constructor
    · rintro rfl
      exact h.symm
    · exact fun ⟨hmem, _⟩ => hw.owner_unique h.2 hmem

theorem Begins.continues_steps (h : Begins g n.legs) {i : Nat} {a b : Step}
    (ha : n.steps[i]? = some a) (hb : n.steps[i + 1]? = some b) :
    Continues g a.property b.leg := by
  obtain ⟨hi, ha⟩ := List.getElem?_eq_some_iff.1 ha
  obtain ⟨hi', hb⟩ := List.getElem?_eq_some_iff.1 hb
  have := List.isChain_iff_getElem.1 h.continues i (by simpa [Node.legs] using hi')
  simpa [Node.legs, ha, hb, Step.leg] using this

theorem Begins.head_uncast (h : Begins g n.legs) {step : Step} (hstep : n.steps[0]? = some step) :
    step.cast = none := by
  obtain ⟨p, rest, hlegs, _⟩ := h.entry
  have := congrArg List.head? hlegs
  rw [Node.legs, List.head?_map, List.head?_eq_getElem?, hstep] at this
  simpa [Step.leg] using congrArg (Option.bind · Leg.cast) this

theorem Begins.mem_typecastSegments_iff (h : Begins g n.legs) {i : Nat} {cast : Cast} :
    (i, cast) ∈ n.typecastSegments ↔
      ∃ step, n.steps[i + 1]? = some step ∧ step.cast = some cast := by
  simp only [Node.typecastSegments, List.mem_filterMap, List.mem_zipIdx_iff_getElem?, Prod.exists,
    Option.map_eq_some_iff, Prod.mk.injEq]
  constructor
  · rintro ⟨step, j, hstep, _, hcast, hij, rfl⟩
    cases j with
    | zero => rw [h.head_uncast hstep] at hcast; cases hcast
    | succ j =>
      obtain rfl : j = i := hij
      exact ⟨step, hstep, hcast⟩
  · rintro ⟨step, hstep, hcast⟩
    exact ⟨step, i + 1, hstep, cast, hcast, rfl, rfl⟩

theorem Begins.nodup_typecastSegments (h : Begins g n.legs) :
    (n.typecastSegments.map (·.1)).Nodup := by
  have ascending : n.steps.zipIdx.Pairwise fun a b => a.2 < b.2 := by
    rw [← List.pairwise_map, List.zipIdx_map_snd]
    exact List.pairwise_lt_range'
  rw [List.Nodup, List.pairwise_map, Node.typecastSegments, List.pairwise_filterMap]
  refine ascending.imp_of_mem ?_
  rintro ⟨a, i⟩ ⟨b, j⟩ ha _ hij _ hacast _ hbcast
  obtain ⟨cast, hcast, rfl⟩ := Option.map_eq_some_iff.1 hacast
  obtain ⟨_, _, rfl⟩ := Option.map_eq_some_iff.1 hbcast
  -- the first step has no cast, so no two places fall together when one is taken off
  have hi : i ≠ 0 := by
    rintro rfl
    rw [h.head_uncast (List.mem_zipIdx_iff_getElem?.1 ha)] at hcast
    cases hcast
  simp only at hij ⊢
  omega

theorem getElem?_path {i : Nat} {p : PropertyId} :
    n.path[i]? = some p ↔ ∃ step, n.steps[i]? = some step ∧ step.property = p := by
  rw [Node.path, List.getElem?_map, Option.map_eq_some_iff]

theorem wellTyped_of_begins (hf : g.Forest) (hw : g.WellOwned) (h : Begins g n.legs)
    (addressed : Addressed g n.idSegments n.steps)
    (hids : n.idSegments = markedSegments g n.path) : WellTyped g n where
  idSegments := hids
  keys i hi := by
    have hmark := addressed.marks i
    rw [Nat.zero_add, List.contains_iff_mem.2 hi] at hmark
    obtain ⟨step, hstep, hset⟩ := (Option.any_eq_true _ _).1 hmark.symm
    obtain ⟨target, key, hclass, hkey⟩ :=
      (addressed.supplied step (List.mem_of_getElem? hstep)).key hset
    exact ⟨_, target, key, getElem?_path.2 ⟨step, hstep, rfl⟩, hclass, hkey⟩
  casts i c := by
    simp only [h.mem_typecastSegments_iff]
    constructor
    · rintro ⟨byType, b, hb, hcast⟩
      obtain ⟨a, ha⟩ : ∃ a, n.steps[i]? = some a := by
        have := (List.getElem?_eq_some_iff.1 hb).1
        exact ⟨_, List.getElem?_eq_getElem (by omega)⟩
      obtain ⟨target, hclass, hoffers⟩ := h.continues_steps ha hb
      have hleg : b.leg.cast = some c := by simp [Step.leg, hcast]
      obtain ⟨hmem, hderives⟩ := (hoffers.cast_eq_some_iff hf hw).1 hleg
      exact ⟨_, _, target, getElem?_path.2 ⟨a, ha, rfl⟩, getElem?_path.2 ⟨b, hb, rfl⟩, hclass,
        hmem, hderives⟩
    · rintro ⟨p, q, target, hp, hq, hclass, hmem, hderives⟩
      obtain ⟨a, ha, rfl⟩ := getElem?_path.1 hp
      obtain ⟨b, hb, rfl⟩ := getElem?_path.1 hq
      obtain ⟨target', hclass', hoffers⟩ := h.continues_steps ha hb
      rw [hclass] at hclass'
      cases hclass'
      have hleg : b.leg.cast = some c := (hoffers.cast_eq_some_iff hf hw).2 ⟨hmem, hderives⟩
      obtain ⟨cast, hcast, rfl⟩ := Option.map_eq_some_iff.1 hleg
      exact ⟨cast.byType, b, hb, hcast⟩
  castOnce := h.nodup_typecastSegments
  uncast i p q hp hq hnone := by
    obtain ⟨a, ha, rfl⟩ := getElem?_path.1 hp
    obtain ⟨b, hb, rfl⟩ := getElem?_path.1 hq
    obtain ⟨target, hclass, _, hoffers⟩ := h.continues_steps ha hb
    have hcast : b.cast = none := by
      rw [Option.eq_none_iff_forall_ne_some]
      exact fun cast hcast => hnone
        (List.mem_map.2 ⟨(i, cast), h.mem_typecastSegments_iff.2 ⟨b, hb, hcast⟩, rfl⟩)
    simp only [Step.leg, hcast, Option.map_none] at hoffers
    obtain ⟨owner, hwithin, howner⟩ := hoffers
    exact ⟨target, owner, hclass, hwithin, howner⟩
  last hmem := by
    obtain ⟨⟨i, cast⟩, hcast, rfl⟩ := List.mem_map.1 hmem
    obtain ⟨step, hstep, _⟩ := h.mem_typecastSegments_iff.1 hcast
    have := (List.getElem?_eq_some_iff.1 hstep).1
    simp [Node.steps, Node.depth] at this

/-! ## Names -/

theorem names_of_renderFrom {ids : List Nat} {index : Nat} {taken : List String}
    {steps : List Step} {segments : List Segment}
    (h : renderFrom g config ids index taken steps = .ok segments) :
    List.Forall₂ (fun id s => ∃ p, g.propertyAt id = .ok p ∧ s.name = p.name)
      (steps.map (·.property)) segments := by
  induction steps generalizing index taken segments with
  | nil =>
    cases h
    exact .nil
  | cons step steps ih =>
    obtain ⟨p, id, typecast, others, hp, _, _, _, _, hothers, rfl⟩ :=
      renderFrom_cons_eq_ok_iff.1 h
    exact .cons ⟨p, hp, rfl⟩ (ih hothers)

/-- The placeholders of a segment are those that its index and the step behind it ask for. -/
theorem placeholders_of_renderFrom {ids : List Nat} {index : Nat} {taken : List String}
    {steps : List Step} {segments : List Segment}
    (h : renderFrom g config ids index taken steps = .ok segments) {i : Nat} {s : Segment}
    (hs : segments[i]? = some s) :
    s.id.isSome = ids.contains (index + i) ∧
      s.typecast.isSome = (steps[i + 1]?.bind (·.cast)).isSome := by
  induction steps generalizing index taken segments i with
  | nil =>
    cases h
    simp at hs
  | cons step steps ih =>
    obtain ⟨p, id, typecast, others, _, hid, _, hcast, _, hothers, rfl⟩ :=
      renderFrom_cons_eq_ok_iff.1 h
    cases i with
    | zero =>
      cases hs
      rw [List.head?_eq_getElem?] at hcast
      exact ⟨hid, hcast⟩
    | succ i =>
      have := ih hothers hs
      rwa [Nat.add_assoc, Nat.add_comm 1 i] at this

theorem spells_of_begins (h : Begins g n.legs) {r : Rendered}
    (hr : Rendered.ofNode g config n = .ok r) : Spells g n r := by
  obtain ⟨segments, hsegments, rfl⟩ := Fallible.map_eq_ok_iff.1 hr
  have names := names_of_renderFrom hsegments
  have ids : ∀ i s, segments[i]? = some s → (s.id.isSome ↔ i ∈ n.idSegments) := by
    intro i s hs
    rw [(placeholders_of_renderFrom hsegments hs).1, Nat.zero_add, List.contains_iff_mem]
  refine ⟨names, ids, fun i s hs => ?_, ?_⟩
  · rw [(placeholders_of_renderFrom hsegments hs).2, Option.isSome_iff_exists]
    simp only [Option.bind_eq_some_iff, List.mem_map, Prod.exists, exists_and_right,
      exists_eq_right, h.mem_typecastSegments_iff]
  · have hlength : segments.length = n.depth := by
      rw [← names.length_eq, List.length_map, Node.depth]
    have hlast : n.depth - 1 < segments.length := by
      rw [hlength, Node.depth, Node.steps, List.length_append]
      exact Nat.sub_one_lt (by simp)
    rw [← ids _ _ (List.getElem?_eq_getElem hlast), Rendered.terminalId, Rendered.terminal,
      List.getLast?_eq_getElem?, hlength, List.getElem?_eq_getElem hlast]
    rfl

/-! ## Addresses -/

/-- What stands behind the address of a collection, when its identifier is written. -/
theorem urlParts_eq_append {segments : List Segment} {last : Segment} {id : IdPlaceholder}
    (hlast : segments.getLast? = some last) (hid : last.id = some id)
    (huncast : last.typecast = none) (terminal : TerminalId) :
    Rendered.urlParts terminal segments =
      Rendered.urlParts .omitted segments ++ Rendered.idToken true terminal id := by
  induction segments with
  | nil => cases hlast
  | cons s rest ih =>
    cases rest with
    | nil =>
      obtain rfl : s = last := by simpa using hlast
      simp [Rendered.urlParts, hid, huncast, Rendered.idToken]
    | cons next rest =>
      -- an identifier on the way is written whatever becomes of the last one
      have onWay : ∀ terminal, Rendered.urlParts terminal (s :: next :: rest) =
          s.name :: ((s.id.map fun i => [Rendered.placeholder i.name]).getD [] ++
            (s.typecast.map fun t => Rendered.placeholder t.name).toList ++
            Rendered.urlParts terminal (next :: rest)) := fun _ => rfl
      rw [onWay, onWay, ih (by simpa using hlast)]
      simp

theorem urlTemplate_eq_append {r : Rendered} {id : IdPlaceholder} {terminal : TerminalId}
    {token : String} (huncast : ∀ s ∈ r.segments.getLast?, s.typecast = none)
    (hid : r.terminalId = some id) (htoken : Rendered.idToken true terminal id = [token]) :
    r.urlTemplate terminal = r.urlTemplate .omitted ++ "/" ++ token := by
  obtain ⟨last, hlast, hid⟩ := Option.bind_eq_some_iff.1 hid
  have hne : Rendered.urlParts .omitted r.segments ≠ [] := by
    cases hsegments : r.segments with
    | nil => rw [Rendered.terminal, hsegments] at hlast; cases hlast
    | cons s rest => simp [Rendered.urlParts]
  rw [Rendered.urlTemplate, urlParts_eq_append hlast hid (huncast last hlast), htoken,
    intercalate_append hne (by simp), String.intercalate_singleton, Rendered.urlTemplate]

/-! ## The tree of a schema -/

/-- A node has the properties met along the links to its parents, which come before it, and its
records agree with their types. It has a text, where what the types of properties refer to is
there. That has the names of the properties and a placeholder for each record, and the address of
an entity of its last segment is that of the collection with the identifier behind it. -/
theorem typed_of_build (built : g.Built) (types : g.TypesKnown)
    (h : Tree.build g config = .ok tree) {i : Nat} (hn : tree.nodes[i]? = some n) :
    (∃ chain above, tree.ancestors ⟨i⟩ = .ok chain ∧ chain.mapM tree.node = .ok above ∧
      n.path = (n :: above).reverse.map (·.step.property)) ∧
    (∀ parent, n.parent = some parent → parent.index < i) ∧
    WellTyped g n ∧
    ∃ r, Rendered.ofNode g config n = .ok r ∧ Spells g n r ∧ ∀ id, r.terminalId = some id →
      r.urlTemplate .mandatory =
        r.urlTemplate .omitted ++ "/" ++ Rendered.placeholder id.name ∧
      r.urlTemplate .optional =
        r.urlTemplate .omitted ++ "/" ++ Rendered.optionalPlaceholder id.name := by
  have hmem := List.mem_of_getElem? hn
  have addressed := addressed_of_build built h n hmem
  have begins := begins_of_build built h hmem
  obtain ⟨segments, hsegments⟩ :
      ∃ segments, renderFrom g config n.idSegments 0 [] n.steps = .ok segments :=
    exists_renderFrom types addressed.marks addressed.supplied
  have hr : Rendered.ofNode g config n = .ok ⟨segments⟩ :=
    Fallible.map_eq_ok_iff.2 ⟨segments, hsegments, rfl⟩
  refine ⟨?_, fun parent hparent => ?_, ?_, ⟨segments⟩, hr, spells_of_begins begins hr,
    fun id hid => ⟨?_, ?_⟩⟩
  · obtain ⟨chain, above, hchain, habove, hsteps⟩ := ancestors_of_build h hn
    refine ⟨chain, above, hchain, habove, ?_⟩
    rw [Node.path, hsteps, List.map_map]
    rfl
  · rcases parent_of_build h hn with ⟨hnone, _⟩ | ⟨j, _, hj, hsome, _⟩
    · rw [hnone] at hparent; cases hparent
    · rw [hsome] at hparent; cases hparent; exact hj
  · exact wellTyped_of_begins built.forest built.wellOwned begins addressed
      (idSegments_of_build built h hn)
  · exact urlTemplate_eq_append (last_uncast hsegments) hid rfl
  · exact urlTemplate_eq_append (last_uncast hsegments) hid rfl

/-- The makers of a book, behind a cast of the items of the library, and one of them behind the
address of all. -/
theorem typed_of_library :
    Graph.library.Built ∧ Graph.library.TypesKnown ∧
      Tree.build Graph.library libraryLimits = .ok libraryTree ∧
      ∃ n, libraryTree.nodes[1]? = some n ∧ n.path = [⟨7⟩, ⟨2⟩] ∧ n.idSegments = [0, 1] ∧
        n.typecastSegments = [(0, ⟨⟨1⟩, true⟩)] ∧
        (∃ chain above, libraryTree.ancestors ⟨1⟩ = .ok chain ∧
          chain.mapM libraryTree.node = .ok above ∧
          n.path = (n :: above).reverse.map (·.step.property)) ∧
        (∀ parent, n.parent = some parent → parent.index < 1) ∧
        WellTyped Graph.library n ∧
        ∃ r id, Rendered.ofNode Graph.library libraryLimits n = .ok r ∧
          Spells Graph.library n r ∧ r.terminalId = some id ∧ id.name = "MakerId" ∧
          r.urlTemplate .omitted = "items/\x7bItemId\x7d/\x7bBookTypeCast\x7d/makers" ∧
          r.urlTemplate .mandatory =
            r.urlTemplate .omitted ++ "/" ++ Rendered.placeholder id.name ∧
          r.urlTemplate .optional =
            r.urlTemplate .omitted ++ "/" ++ Rendered.optionalPlaceholder id.name := by
  have types : Graph.library.TypesKnown := by decide +kernel
  have hn : libraryTree.nodes[1]? = some makersNode := by decide +kernel
  have shown : (Rendered.ofNode Graph.library libraryLimits makersNode).map (fun r =>
      (r.terminalId, r.urlTemplate .omitted)) =
      .ok (some ⟨"MakerId", "id", .primitive .string⟩,
        "items/\x7bItemId\x7d/\x7bBookTypeCast\x7d/makers") := by
    decide +kernel
  obtain ⟨chain, parents, typed, r, hr, spells, addresses⟩ :=
    typed_of_build Graph.library_built types build_library hn
  rw [hr] at shown
  obtain ⟨hid, homitted⟩ := Prod.mk.inj (Except.ok.inj shown)
  exact ⟨Graph.library_built, types, build_library, makersNode, hn, by decide, by decide, by decide,
    chain, parents, typed, r, _, hr, spells, hid, rfl, homitted, addresses _ hid⟩

end Route
end EdmCommands
