import EdmCommands.Proofs.Schema.Accepted

/-!
# EdmCommands.Proofs.Schema.Reordering

Links and properties in any order. Linking two classes checks the names that the new link brings
together, and adding a property checks the classes that are linked already; each looks at what is
there at that moment. Whatever part of the operations has been carried out, what is there is a part
of the graph in the end, so an operation that would be refused halfway could not have been accepted
in any order.

* `declared`: the properties of a class, whatever their places in the table.
* `Completes`: some operations are what a graph lacks of another one.
* `Completes.step`: the next of them is accepted, and the rest is what lacks then.
* `completes_of_run`: a run of links and properties leads to what it completes.
* `exists_run_of_perm`: so any other order leads there too.
-/

namespace EdmCommands
namespace Schema
namespace Graph

def declared (g : Graph) (id : ClassId) : List Property :=
  (g.ownProperties id).filterMap (g.properties[·.index]?)

namespace Operation

/-- The operation links two classes or adds a property to one. -/
def IsLinkOrProperty : Operation → Prop
  | setBase _ _ => True
  | addProperty _ _ => True
  | _ => False

/-- The class that an operation links under a base. -/
def linked? : Operation → Option ClassId
  | setBase derived _ => some derived
  | _ => none

/-- The property that an operation adds to a class. -/
def added? (id : ClassId) : Operation → Option Property
  | addProperty owner p => if owner = id then some { p with owner := .structured owner } else none
  | _ => none

end Operation

/-- The graphs agree in types, links and properties, up to the order of derived classes and of
properties and up to the places that the properties have. -/
structure SameMembers (g g' : Graph) : Prop where
  types : SameTypes g g'
  base : g'.baseOf = g.baseOf
  derived : ∀ id, (g'.derivedOf id).Perm (g.derivedOf id)
  declared : ∀ id, (g'.declared id).Perm (g.declared id)

/-- The graph `g'` has what `g` has and what the operation adds. -/
structure Adds (op : Operation) (g g' : Graph) : Prop where
  types : SameTypes g g'
  base : ∀ d b, g'.baseOf d = some b ↔ g.baseOf d = some b ∨ op = .setBase d b
  declared : ∀ id, g'.declared id = g.declared id ++ (op.added? id).toList

/-- The operations `rest` are what `g` lacks of the graph `goal`: every link and every property
of `goal` is there already or is added by one of them. -/
@[mk_iff]
structure Completes (rest : List Operation) (g goal : Graph) : Prop where
  types : SameTypes g goal
  kinds : ∀ op ∈ rest, op.IsLinkOrProperty
  base : ∀ d b, goal.baseOf d = some b ↔ g.baseOf d = some b ∨ .setBase d b ∈ rest
  unlinked : ∀ d ∈ rest.filterMap Operation.linked?, g.baseOf d = none
  once : (rest.filterMap Operation.linked?).Nodup
  declared : ∀ id, (goal.declared id).Perm (g.declared id ++ rest.filterMap (Operation.added? id))

variable {g g' goal : Graph} {op : Operation} {rest ops : List Operation}
  {id derived base owner : ClassId} {p : Property}

/-! ## What the two operations do -/

theorem filterMap_linked_cons : (op :: rest).filterMap Operation.linked? =
    op.linked?.toList ++ rest.filterMap Operation.linked? := by
  cases hop : op.linked? <;> simp [hop]

/-- The class that the first operation links has no base yet and is not linked again. -/
theorem linked_head (unlinked : ∀ d ∈ (op :: rest).filterMap Operation.linked?, g.baseOf d = none)
    (once : ((op :: rest).filterMap Operation.linked?).Nodup) {d : ClassId}
    (hd : op.linked? = some d) :
    g.baseOf d = none ∧ d ∉ rest.filterMap Operation.linked? := by
  rw [List.filterMap_cons_some hd] at unlinked once
  exact ⟨unlinked d List.mem_cons_self, (List.nodup_cons.1 once).1⟩

theorem addsFresh_of_kind (kind : op.IsLinkOrProperty) : op.AddsFresh := by
  cases op with
  | addClass _ => cases kind
  | _ => trivial

theorem SameTypes.congr_left (h : SameTypes g g') : SameTypes g goal ↔ SameTypes g' goal := by
  constructor
  · intro h'
    exact ⟨h'.namespaceName.trans h.namespaceName.symm, h'.containerName.trans h.containerName.symm,
      h'.enums.trans h.enums.symm, h'.heads.trans h.heads.symm⟩
  · intro h'
    exact ⟨h'.namespaceName.trans h.namespaceName, h'.containerName.trans h.containerName,
      h'.enums.trans h.enums, h'.heads.trans h.heads⟩

theorem adds_of_setBase (unlinked : g.baseOf derived = none)
    (h : g.setBase derived base = .ok g') : Adds (.setBase derived base) g g' := by
  have types := SameTypes.setBase h
  obtain ⟨_, _, _, _, known, _, _, _, _, _, _, _, rfl⟩ := setBase_eq_ok h
  refine ⟨types, ?_, ?_⟩
  · intro d b
    rw [baseOf_relink known, Operation.setBase.injEq]
    by_cases hd : d = derived
    · simp [hd, unlinked]
    · simp [hd, Ne.symm hd]
  · intro id
    rw [declared, declared, ownProperties_relink]
    exact (List.append_nil _).symm

theorem declared_addProperty (hw : g.WellOwned) {new : PropertyId}
    (h : g.addProperty owner p = .ok (g', new)) (id : ClassId) :
    g'.declared id = g.declared id ++ (Operation.added? id (.addProperty owner p)).toList := by
  have listed := listedBy_addProperty h (.structured id)
  obtain ⟨_, _, _, _, _, _, heq⟩ := addProperty_eq_ok h
  have properties : g'.properties = g.properties.push { p with owner := .structured owner } := by
    rw [heq]
  have kept : (g.ownProperties id).filterMap (g'.properties[·.index]?) = g.declared id := by
    refine List.filterMap_congr ?_
    intro q hq
    obtain ⟨r, hr, _⟩ := hw.own_known hq
    rw [hr]
    exact getElem?_kept properties hr
  simp only [listedBy, Owner.structured.injEq] at listed
  rw [declared, listed, List.filterMap_append, kept]
  by_cases howner : owner = id
  · simp [howner, Operation.added?, properties]
  · simp [howner, Operation.added?]

theorem adds_of_addProperty (hw : g.WellOwned) {new : PropertyId}
    (h : g.addProperty owner p = .ok (g', new)) : Adds (.addProperty owner p) g g' where
  types := .addProperty h
  base d b := by
    rw [baseOf_addProperty h]
    simp
  declared := declared_addProperty hw h

theorem adds_of_apply (hw : g.WellOwned) (kind : op.IsLinkOrProperty)
    (unlinked : ∀ d, op.linked? = some d → g.baseOf d = none) (h : op.apply g = .ok g') :
    Adds op g g' := by
  cases op with
  | setBase derived base => exact adds_of_setBase (unlinked derived rfl) h
  | addProperty owner p =>
    obtain ⟨⟨_, new⟩, hadd, rfl⟩ := Fallible.map_eq_ok_iff.1 h
    exact adds_of_addProperty hw hadd
  | addClass _ => cases kind
  | addEnum _ => cases kind
  | addContainerProperty _ => cases kind
  | addMethod _ _ => cases kind

/-- A class that is not linked by the operation has the base that it had. -/
theorem Adds.baseOf_eq (h : Adds op g g') (hne : op.linked? ≠ some id) :
    g'.baseOf id = g.baseOf id := by
  refine Option.ext fun b => ?_
  rw [h.base, or_iff_left]
  rintro rfl
  exact hne rfl

theorem mem_declared_of_own {x : PropertyId} (h : x ∈ g.ownProperties id)
    (hp : g.properties[x.index]? = some p) : p ∈ g.declared id :=
  List.mem_filterMap.2 ⟨x, h, hp⟩

theorem map_name_declared (hw : g.WellOwned) :
    (g.declared id).map (·.name) = (g.ownProperties id).map g.nameOf := by
  rw [declared, List.map_filterMap, ← List.filterMap_eq_map]
  refine List.filterMap_congr ?_
  intro x hx
  obtain ⟨q, hq, _⟩ := hw.own_known hx
  simp [hq, nameOf]

/-- No name is declared by two classes that are related, nor twice by one. -/
theorem WellOwned.declared_names (hw : g.WellOwned) :
    (∀ x, ((g.declared x).map (·.name)).Nodup) ∧
    ∀ {x y}, x ≠ y → g.Within y x → ∀ p ∈ g.declared x, ∀ q ∈ g.declared y, p.name ≠ q.name := by
  refine ⟨?_, ?_⟩
  · intro x
    rw [map_name_declared hw]
    exact hw.nodup_ownNames (.structured x)
  · intro x y hne hyx p hp q hq hname
    obtain ⟨i, hi, hip⟩ := List.mem_filterMap.1 hp
    obtain ⟨j, hj, hjq⟩ := List.mem_filterMap.1 hq
    have hsame : i = j := by
      refine hw.own_names hyx hi hj ?_
      rw [nameOf_of_getElem? hip, nameOf_of_getElem? hjq, hname]
    subst hsame
    exact hne (hw.owner_unique hi hj)

/-! ## One operation -/

namespace Completes

theorem size_eq (h : Completes rest g goal) : goal.classes.size = g.classes.size := by
  have := congrArg List.length h.types.heads
  simpa [heads] using this

theorem isClass_iff (h : Completes rest g goal) : g.IsClass id ↔ goal.IsClass id := by
  rw [IsClass, IsClass, h.size_eq]

theorem within (h : Completes rest g goal) {x y : ClassId} (hxy : g.Within x y) :
    goal.Within x y := by
  refine hxy.imp_right fun hderives => ?_
  exact Relation.TransGen.mono (fun d b hb => (h.base d b).2 (.inl hb)) _ _ hderives

theorem mem_declared (h : Completes rest g goal) (hp : p ∈ g.declared id) :
    p ∈ goal.declared id :=
  (h.declared id).mem_iff.2 (List.mem_append_left _ hp)

theorem perm (h : Completes ops g goal) (hperm : ops.Perm rest) : Completes rest g goal where
  types := h.types
  kinds op hop := h.kinds op (hperm.mem_iff.2 hop)
  base d b := by
    rw [h.base d b, hperm.mem_iff]
  unlinked d hd := h.unlinked d ((hperm.filterMap _).mem_iff.2 hd)
  once := (hperm.filterMap _).nodup_iff.1 h.once
  declared id := (h.declared id).trans ((hperm.filterMap _).append_left _)

/-- A link that is left can be made: it closes no cycle, because there is none in the end, and
brings no two names together, because they would be together in the end. -/
theorem exists_setBase (h : Completes (.setBase derived base :: rest) g goal) (built : g.Built)
    (hgoal : goal.Built) : ∃ g', g.setBase derived base = .ok g' := by
  have hlink : goal.baseOf derived = some base := (h.base derived base).2 (.inr List.mem_cons_self)
  have hderives : goal.Derives derived base := .single hlink
  have hknown := hgoal.forest.isClass_of_derives hderives
  have acyclic : ¬ goal.Within base derived := by
    rintro (rfl | hback)
    · exact hgoal.forest.not_derives_self hderives
    · exact hgoal.forest.not_derives_self (hback.trans hderives)
  refine exists_setBase_of_apart built.forest (h.isClass_iff.2 hknown.1) (h.isClass_iff.2 hknown.2)
    (fun hback => acyclic (h.within hback)) ?_
  intro x y hx hy p hp q hq p' q' hp' hq'
  have hyx : goal.Within y x :=
    ((h.within hy).trans (.inr hderives)).trans (h.within hx)
  have hne : x ≠ y := by
    rintro rfl
    exact acyclic ((h.within hx).trans (h.within hy))
  exact hgoal.wellOwned.declared_names.2 hne hyx p' (h.mem_declared (mem_declared_of_own hp hp'))
    q' (h.mem_declared (mem_declared_of_own hq hq'))

/-- A property that is left can be added: where its name is in use, it would be in the end. -/
theorem exists_addProperty (h : Completes (.addProperty owner p :: rest) g goal) (built : g.Built)
    (hgoal : goal.Built) : ∃ result, g.addProperty owner p = .ok result := by
  let added : Property := { p with owner := .structured owner }
  have hdeclared := h.declared owner
  rw [List.filterMap_cons_some (b := added) (by simp [Operation.added?, added])] at hdeclared
  have hadded : added ∈ goal.declared owner := hdeclared.mem_iff.2 (by simp)
  have known : goal.IsClass owner := by
    obtain ⟨i, hi, _⟩ := List.mem_filterMap.1 hadded
    by_contra hnone
    rw [ownProperties, Array.getElem?_eq_none (Nat.not_lt.1 hnone)] at hi
    cases hi
  refine Graph.exists_addProperty built.forest (h.isClass_iff.2 known) ?_
  intro x hx q hq r hr hname
  have hr' : r ∈ g.declared x := mem_declared_of_own hq hr
  obtain ⟨hnodup, hnames⟩ := hgoal.wellOwned.declared_names
  rcases eq_or_ne x owner with rfl | hne
  · -- the class declares the name twice in the end
    have := (hdeclared.map (·.name)).nodup_iff.1 (hnodup x)
    rw [List.map_append, List.nodup_append] at this
    exact this.2.2 r.name (List.mem_map.2 ⟨r, hr', rfl⟩) added.name (by simp) hname
  · rcases hx with hx | hx
    · exact hnames hne (h.within hx) r (h.mem_declared hr') added hadded hname
    · exact hnames hne.symm (h.within hx) added hadded r (h.mem_declared hr') hname.symm

/-- What is lacking before an operation is the operation and what is lacking behind it. -/
theorem cons_iff (kind : op.IsLinkOrProperty) (hadds : Adds op g g')
    (unlinked : ∀ d, op.linked? = some d → g.baseOf d = none)
    (fresh : ∀ d, op.linked? = some d → d ∉ rest.filterMap Operation.linked?) :
    Completes (op :: rest) g goal ↔ Completes rest g' goal := by
  have hadded : ∀ id, (op :: rest).filterMap (Operation.added? id) =
      (op.added? id).toList ++ rest.filterMap (Operation.added? id) := by
    intro id
    cases hop : op.added? id <;> simp [hop]
  have others : ∀ d ∈ rest.filterMap Operation.linked?, g'.baseOf d = g.baseOf d :=
    fun d hd => hadds.baseOf_eq fun hlinked => fresh d hlinked hd
  rw [completes_iff, completes_iff, filterMap_linked_cons]
  refine and_congr hadds.types.congr_left (and_congr ?_ (and_congr ?_ (and_congr ?_
    (and_congr ?_ ?_))))
  · simp [kind]
  · refine forall₂_congr fun d b => ?_
    rw [hadds.base, List.mem_cons, or_assoc, eq_comm (a := op)]
  · rw [List.forall_mem_append]
    constructor
    · intro h d hd
      rw [others d hd]
      exact h.2 d hd
    · intro h
      refine ⟨fun d hd => unlinked d (Option.mem_toList.1 hd), fun d hd => ?_⟩
      rw [← others d hd]
      exact h d hd
  · cases hop : op.linked? with
    | none => simp
    | some d =>
      rw [Option.toList_some, List.singleton_append, List.nodup_cons]
      exact and_iff_right (fresh d hop)
  · refine forall_congr' fun id => ?_
    rw [hadds.declared, hadded, List.append_assoc]

/-- The next operation is accepted, and the others are what is lacking then. -/
theorem step (h : Completes (op :: rest) g goal) (built : g.Built) (hgoal : goal.Built) :
    ∃ g', op.apply g = .ok g' ∧ Completes rest g' goal := by
  have kind := h.kinds op List.mem_cons_self
  have free : ∀ d, op.linked? = some d → g.baseOf d = none :=
    fun d hd => (linked_head h.unlinked h.once hd).1
  have fresh : ∀ d, op.linked? = some d → d ∉ rest.filterMap Operation.linked? :=
    fun d hd => (linked_head h.unlinked h.once hd).2
  have accepted : ∃ g', op.apply g = .ok g' := by
    cases op with
    | setBase derived base => exact h.exists_setBase built hgoal
    | addProperty owner p =>
      obtain ⟨result, hresult⟩ := h.exists_addProperty built hgoal
      exact ⟨result.1, Fallible.map_eq_ok_iff.2 ⟨result, hresult, rfl⟩⟩
    | addClass _ => cases kind
    | addEnum _ => cases kind
    | addContainerProperty _ => cases kind
    | addMethod _ _ => cases kind
  obtain ⟨g', hg'⟩ := accepted
  have hadds := adds_of_apply built.wellOwned kind free hg'
  exact ⟨g', hg', (cons_iff kind hadds free fresh).1 h⟩

/-! ## Runs -/

theorem exists_run (h : Completes rest g goal) (built : g.Built) (hgoal : goal.Built) :
    ∃ g', rest.foldlM Operation.apply g = .ok g' ∧ g'.Built ∧ Completes [] g' goal := by
  induction rest generalizing g with
  | nil => exact ⟨g, rfl, built, h⟩
  | cons op rest ih =>
    obtain ⟨g₁, hop, hrest⟩ := h.step built hgoal
    have fresh := addsFresh_of_kind (h.kinds op List.mem_cons_self)
    obtain ⟨g', hrun, hbuilt, hdone⟩ := ih hrest (built.apply fresh hop)
    refine ⟨g', ?_, hbuilt, hdone⟩
    rw [List.foldlM_cons, hop]
    exact hrun

/-- Where nothing is lacking, the graphs agree. -/
theorem sameMembers (h : Completes [] g goal) (built : g.Built) (hgoal : goal.Built) :
    SameMembers goal g := by
  have base : goal.baseOf = g.baseOf := by
    funext d
    refine Option.ext fun b => ?_
    simpa using h.base d b
  refine ⟨?_, base.symm, ?_, ?_⟩
  · exact ⟨h.types.namespaceName.symm, h.types.containerName.symm, h.types.enums.symm,
      h.types.heads.symm⟩
  · intro id
    refine (List.perm_ext_iff_of_nodup (built.forest.derived_nodup id)
      (hgoal.forest.derived_nodup id)).2 fun d => ?_
    rw [built.forest.mem_derivedOf_iff, hgoal.forest.mem_derivedOf_iff, base]
  · intro id
    simpa using (h.declared id).symm

end Completes

/-- A run of links and properties leads to a graph that has what was there and what they add. -/
theorem completes_of_run (built : g.Built) (kinds : ∀ op ∈ ops, op.IsLinkOrProperty)
    (unlinked : ∀ d ∈ ops.filterMap Operation.linked?, g.baseOf d = none)
    (once : (ops.filterMap Operation.linked?).Nodup)
    (h : ops.foldlM Operation.apply g = .ok goal) : Completes ops g goal ∧ goal.Built := by
  induction ops generalizing g with
  | nil =>
    cases h
    exact ⟨⟨⟨rfl, rfl, rfl, rfl⟩, kinds, by simp, unlinked, once, by simp⟩, built⟩
  | cons op rest ih =>
    rw [List.foldlM_cons] at h
    obtain ⟨g₁, hop, h⟩ := Fallible.bind_eq_ok_iff.1 h
    rw [List.forall_mem_cons] at kinds
    have free : ∀ d, op.linked? = some d → g.baseOf d = none :=
      fun d hd => (linked_head unlinked once hd).1
    have fresh : ∀ d, op.linked? = some d → d ∉ rest.filterMap Operation.linked? :=
      fun d hd => (linked_head unlinked once hd).2
    have hadds := adds_of_apply built.wellOwned kinds.1 free hop
    rw [filterMap_linked_cons, List.forall_mem_append] at unlinked
    rw [filterMap_linked_cons, List.nodup_append] at once
    have hrest : ∀ d ∈ rest.filterMap Operation.linked?, g₁.baseOf d = none := by
      intro d hd
      rw [hadds.baseOf_eq fun hlinked => fresh d hlinked hd]
      exact unlinked.2 d hd
    have hbuilt := built.apply (addsFresh_of_kind kinds.1) hop
    obtain ⟨hcompletes, hgoal⟩ := ih hbuilt kinds.2 hrest once.2.1 h
    exact ⟨(Completes.cons_iff kinds.1 hadds free fresh).2 hcompletes, hgoal⟩

/-- Links and properties can be added in any order, as long as no class is linked twice: when one
order of the operations is accepted, every other one is, and leads to the same graph up to the
order in which classes list what is derived from them and what they declare. -/
theorem exists_run_of_perm {ops' : List Operation} (built : g.Built)
    (kinds : ∀ op ∈ ops, op.IsLinkOrProperty)
    (unlinked : ∀ d ∈ ops.filterMap Operation.linked?, g.baseOf d = none)
    (once : (ops.filterMap Operation.linked?).Nodup) (perm : ops.Perm ops')
    (h : ops.foldlM Operation.apply g = .ok g') :
    ∃ g'', ops'.foldlM Operation.apply g = .ok g'' ∧ SameMembers g' g'' := by
  obtain ⟨hcompletes, hgoal⟩ := completes_of_run built kinds unlinked once h
  obtain ⟨g'', hrun, hbuilt, hdone⟩ := (hcompletes.perm perm).exists_run built hgoal
  exact ⟨g'', hrun, hdone.sameMembers hbuilt hgoal⟩

/-- Three classes without links and properties. -/
def shelf : Graph :=
  { namespaceName := "shop"
    container := { name := "Shop" }
    classes := #[
      { name := "Item", kind := .entity },
      { name := "Book", kind := .entity },
      { name := "Atlas", kind := .entity }] }

/-- An atlas is a book and a book is an item, said in between the properties that they have. -/
def shelfOperations : List Operation :=
  [.addProperty ⟨0⟩ { name := "id", type := .primitive .string },
    .setBase ⟨2⟩ ⟨1⟩,
    .addProperty ⟨2⟩ { name := "scale", type := .primitive .int32 },
    .addProperty ⟨1⟩ { name := "pages", type := .primitive .int32 },
    .setBase ⟨1⟩ ⟨0⟩,
    .addProperty ⟨0⟩ { name := "title", type := .primitive .string }]

def shelfFilled : Graph :=
  { shelf with
    classes := #[
      { name := "Item", kind := .entity, properties := [⟨0⟩, ⟨3⟩], derived := [⟨1⟩] },
      { name := "Book", kind := .entity, base := some ⟨0⟩, properties := [⟨2⟩]
        derived := [⟨2⟩] },
      { name := "Atlas", kind := .entity, base := some ⟨1⟩, properties := [⟨1⟩] }]
    properties := #[
      { name := "id", type := .primitive .string, owner := .structured ⟨0⟩ },
      { name := "scale", type := .primitive .int32, owner := .structured ⟨2⟩ },
      { name := "pages", type := .primitive .int32, owner := .structured ⟨1⟩ },
      { name := "title", type := .primitive .string, owner := .structured ⟨0⟩ }] }

theorem shelf_built : shelf.Built := by
  have added : ([.addClass { name := "Item", kind := .entity },
      .addClass { name := "Book", kind := .entity },
      .addClass { name := "Atlas", kind := .entity }] : List Operation).foldlM Operation.apply
      (Graph.empty "shop" "Shop") = .ok shelf := by decide +kernel
  refine (Built.empty "shop" "Shop").applyAll ?_ added
  simp only [List.forall_mem_cons, Operation.AddsFresh, List.not_mem_nil, false_imp_iff,
    implies_true, and_true]
  exact ⟨⟨rfl, rfl, rfl, rfl⟩, ⟨rfl, rfl, rfl, rfl⟩, ⟨rfl, rfl, rfl, rfl⟩⟩

theorem exists_run_of_reversed_shelf :
    (∀ op ∈ shelfOperations, op.IsLinkOrProperty) ∧
      shelfOperations.filterMap Operation.linked? = [⟨2⟩, ⟨1⟩] ∧
      shelf.baseOf ⟨1⟩ = none ∧ shelf.baseOf ⟨2⟩ = none ∧
      shelfOperations.foldlM Operation.apply shelf = .ok shelfFilled ∧
      ∃ g, shelfOperations.reverse.foldlM Operation.apply shelf = .ok g ∧
        SameMembers shelfFilled g := by
  have kinds : ∀ op ∈ shelfOperations, op.IsLinkOrProperty := by
    simp [shelfOperations, Operation.IsLinkOrProperty]
  have linked : shelfOperations.filterMap Operation.linked? = [⟨2⟩, ⟨1⟩] := rfl
  have unlinked : ∀ d ∈ shelfOperations.filterMap Operation.linked?, shelf.baseOf d = none := by
    rw [linked]
    decide
  have filled : shelfOperations.foldlM Operation.apply shelf = .ok shelfFilled := by
    decide +kernel
  exact ⟨kinds, linked, rfl, rfl, filled, exists_run_of_perm shelf_built kinds unlinked
    (by rw [linked]; decide) (List.reverse_perm _).symm filled⟩

end Graph
end Schema
end EdmCommands
