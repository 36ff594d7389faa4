import EdmCommands.Proofs.Schema.Runs

/-!
# EdmCommands.Proofs.Schema.Ownership

Who declares the properties of a graph. Two operations keep a name from being declared twice along
a chain of bases: one looks around the class that gets a property, the other one at the classes
that a new link brings together.

* `Listed`: an owner lists the places of its properties in the table, in order, and a class those
  of its methods.
* `Built.listed`: from one lemma for each operation that adds a member.
* `Owned`: the properties of a class and its bases have distinct names, and each property of the
  graph has one owner.
* `owned_of_attempts`: every run of operations leads to such owners.
-/

namespace EdmCommands
namespace Schema
namespace Graph

def listedBy (g : Graph) : Owner → List PropertyId
  | .container => g.container.properties
  | .structured id => g.ownProperties id

def ownMethods (g : Graph) (id : ClassId) : List MethodId :=
  (g.classes[id.index]?.map (·.methods)).getD []

structure Listed (g : Graph) : Prop where
  properties : ∀ owner,
    (g.listedBy owner).map (·.index) = g.properties.toList.findIdxs (·.owner = owner)
  methods : ∀ id, (g.ownMethods id).map (·.index) = g.methods.toList.findIdxs (·.declaring = id)

/-- No name is declared twice along a chain of bases, what a class has comes from the chain, and
each property stands once in the list of one owner and in no other list. -/
structure Owned (g : Graph) : Prop where
  members : ∀ id, g.IsClass id → ∃ above ids properties, g.ancestors id = .ok above ∧
    g.allProperties id = .ok ids ∧ ids.mapM g.propertyAt = .ok properties ∧
    (properties.map (·.name)).Nodup ∧
    ∀ p ∈ properties, ∃ owner ∈ id :: above, p.owner = .structured owner
  owners : ∀ p : PropertyId, p.index < g.properties.size → ∃ owner,
    (g.listedBy owner).count p = 1 ∧ ∀ other, other ≠ owner → p ∉ g.listedBy other

variable {g g' : Graph} {ops : List Operation} {id : ClassId} {c : StructuredType}
  {above : List ClassId}

/-! ## The places of members -/

theorem findIdxs_push {α : Type} (mine : α → Bool) (table : Array α) (added : α) :
    (table.push added).toList.findIdxs mine =
      table.toList.findIdxs mine ++ if mine added then [table.size] else [] := by
  rw [Array.toList_push, List.findIdxs_append, List.findIdxs_singleton, Nat.zero_add,
    Array.length_toList]

/-- Looking up the places of some rows in order gives these rows. -/
theorem mapM_of_places {ι τ : Type} {table : Array τ} {mine : τ → Bool} {place : ι → Nat}
    {look : ι → Except Fault τ} (hlook : ∀ i row, look i = .ok row ↔ table[place i]? = some row)
    {ids : List ι} (places : ids.map place = table.toList.findIdxs mine) :
    ids.mapM look = .ok (table.toList.filter mine) := by
  have hrows : (table.toList.findIdxs mine).map (table.toList[·]?) =
      (table.toList.filter mine).map some := by
    refine List.ext_getElem (by simp [List.countP_eq_length_filter]) fun i _ h => ?_
    have hi : i < (table.toList.filter mine).length := by simpa using h
    rw [List.getElem_map, List.getElem_map, List.getElem_filter_eq_getElem_getElem_findIdxs hi]
    exact List.getElem?_eq_getElem _
  rw [← places, List.map_map] at hrows
  have hforall : List.Forall₂ Eq (ids.map fun i => table.toList[place i]?)
      ((table.toList.filter mine).map some) := by
    rw [List.forall₂_eq_eq_eq]
    exact hrows
  rw [List.forall₂_map_left_iff, List.forall₂_map_right_iff] at hforall
  rw [Fallible.mapM_eq_ok_iff]
  refine hforall.imp ?_
  intro i row hrow
  rw [Array.getElem?_toList] at hrow
  exact (hlook i row).2 hrow

theorem listedBy_congr (own : g'.ownProperties = g.ownProperties)
    (container : g'.container = g.container) : g'.listedBy = g.listedBy := by
  funext owner
  cases owner with
  | container => rw [listedBy, listedBy, container]
  | structured id => rw [listedBy, listedBy, own]

theorem listedBy_addProperty {owner : ClassId} {p : Property} {new : PropertyId}
    (h : g.addProperty owner p = .ok (g', new)) (other : Owner) :
    g'.listedBy other = g.listedBy other ++
      if .structured owner = other then [⟨g.properties.size⟩] else [] := by
  obtain ⟨_, _, known, _, _, _, rfl⟩ := addProperty_eq_ok h
  cases other with
  | container => simp [listedBy]
  | structured x =>
    simp only [listedBy, ownProperties, Array.getElem?_modify]
    by_cases hx : owner = x
    · subst hx
      obtain ⟨c, hc⟩ := isClass_iff.1 known
      simp [(classAt_eq_ok_iff g).1 hc]
    · rw [if_neg fun heq => hx (id_eq_of_index_eq heq)]
      simp [hx]

theorem listedBy_addContainerProperty {p : Property} {new : PropertyId}
    (h : g.addContainerProperty p = .ok (g', new)) (other : Owner) :
    g'.listedBy other = g.listedBy other ++
      if .container = other then [⟨g.properties.size⟩] else [] := by
  obtain ⟨_, rfl⟩ := addContainerProperty_eq_ok h
  cases other with
  | container => simp [listedBy]
  | structured x =>
    simp only [listedBy, reduceCtorEq, if_false, List.append_nil]
    rfl

theorem ownMethods_addMethod {owner : ClassId} {m : Method} {new : MethodId}
    (h : g.addMethod owner m = .ok (g', new)) (x : ClassId) :
    g'.ownMethods x = g.ownMethods x ++ if owner = x then [⟨g.methods.size⟩] else [] := by
  have known : g.IsClass owner := by
    obtain ⟨c, hc, _⟩ := Fallible.bind_eq_ok_iff.1 h
    exact isClass_iff.2 ⟨c, hc⟩
  obtain rfl := addMethod_eq_ok h
  simp only [ownMethods, Array.getElem?_modify]
  by_cases hx : owner = x
  · subst hx
    obtain ⟨c, hc⟩ := isClass_iff.1 known
    simp [(classAt_eq_ok_iff g).1 hc]
  · rw [if_neg fun heq => hx (id_eq_of_index_eq heq)]
    simp [hx]

theorem ownMethods_push (fresh : c.IsFresh) :
    ({ g with classes := g.classes.push c } : Graph).ownMethods = g.ownMethods := by
  funext x
  simp only [ownMethods, Array.getElem?_push]
  split
  · rename_i h
    simp [h, fresh.methods]
  · rfl

theorem ownMethods_relink {derived base : ClassId} {previous : Option ClassId} :
    (g.relink derived base previous).ownMethods = g.ownMethods := by
  funext x
  unfold ownMethods
  rw [classes_relink]
  cases g.classes[x.index]? <;> rfl

theorem ownMethods_addProperty {owner : ClassId} {p : Property} {new : PropertyId}
    (h : g.addProperty owner p = .ok (g', new)) : g'.ownMethods = g.ownMethods := by
  obtain ⟨_, _, _, _, _, _, rfl⟩ := addProperty_eq_ok h
  funext x
  simp only [ownMethods, Array.getElem?_modify]
  split
  · cases g.classes[x.index]? <;> rfl
  · rfl

namespace Listed

theorem congr (h : g.Listed) (listedBy : g'.listedBy = g.listedBy)
    (methods : g'.ownMethods = g.ownMethods) (properties : g'.properties = g.properties)
    (table : g'.methods = g.methods) : g'.Listed where
  properties owner := by
    rw [listedBy, properties]
    exact h.properties owner
  methods id := by
    rw [methods, table]
    exact h.methods id

/-- A new property is listed by its owner behind the others. -/
theorem push (h : g.Listed) {added : Property}
    (properties : g'.properties = g.properties.push added)
    (listed : ∀ other, g'.listedBy other = g.listedBy other ++
      if added.owner = other then [⟨g.properties.size⟩] else [])
    (methods : g'.ownMethods = g.ownMethods) (table : g'.methods = g.methods) : g'.Listed where
  properties owner := by
    rw [properties, findIdxs_push, listed, List.map_append, h.properties owner]
    by_cases howner : added.owner = owner <;> simp [howner]
  methods id := by
    rw [methods, table]
    exact h.methods id

theorem addMethod (h : g.Listed) {owner : ClassId} {m : Method} {new : MethodId}
    (hadd : g.addMethod owner m = .ok (g', new)) : g'.Listed := by
  have listed := ownMethods_addMethod hadd
  have own : g'.ownProperties = g.ownProperties := by
    obtain rfl := addMethod_eq_ok hadd
    exact ownProperties_modify (i := owner.index)
      (f := fun c => { c with methods := c.methods ++ [⟨g.methods.size⟩] }) rfl fun _ => rfl
  obtain rfl := addMethod_eq_ok hadd
  refine ⟨?_, ?_⟩
  · rw [listedBy_congr own rfl]
    exact h.properties
  · intro id
    rw [findIdxs_push, listed, List.map_append, h.methods id]
    by_cases howner : owner = id <;> simp [howner]

end Listed

theorem Built.listed (h : g.Built) : g.Listed := by
  induction h with
  | empty =>
    refine ⟨?_, ?_⟩
    · intro owner
      cases owner <;> simp [listedBy, ownProperties, Graph.empty]
    · simp [ownMethods, Graph.empty]
  | addClass _ fresh hadd ih =>
    obtain rfl := addClass_eq_ok hadd
    exact ih.congr (listedBy_congr (ownProperties_push fresh) rfl) (ownMethods_push fresh) rfl rfl
  | addEnum _ hadd ih =>
    obtain rfl := addEnum_eq_ok hadd
    exact ih.congr (listedBy_congr rfl rfl) rfl rfl rfl
  | setBase _ hset ih =>
    obtain ⟨_, _, _, _, _, _, _, _, _, _, _, _, rfl⟩ := setBase_eq_ok hset
    exact ih.congr (listedBy_congr ownProperties_relink rfl) ownMethods_relink rfl rfl
  | addProperty _ hadd ih =>
    have listed := listedBy_addProperty hadd
    have methods := ownMethods_addProperty hadd
    obtain ⟨_, _, _, _, _, _, rfl⟩ := addProperty_eq_ok hadd
    exact ih.push rfl listed methods rfl
  | addContainerProperty _ hadd ih =>
    have listed := listedBy_addContainerProperty hadd
    obtain ⟨_, rfl⟩ := addContainerProperty_eq_ok hadd
    exact ih.push rfl listed rfl rfl
  | addMethod _ hadd ih => exact ih.addMethod hadd

theorem Listed.mapM_propertyAt (h : g.Listed) (owner : Owner) :
    (g.listedBy owner).mapM g.propertyAt = .ok (g.properties.toList.filter (·.owner = owner)) :=
  mapM_of_places (fun _ _ => propertyAt_eq_ok_iff g) (h.properties owner)

theorem Listed.mapM_methodAt (h : g.Listed) (id : ClassId) :
    (g.ownMethods id).mapM g.methodAt = .ok (g.methods.toList.filter (·.declaring = id)) :=
  mapM_of_places (fun _ _ => methodAt_eq_ok_iff g) (h.methods id)

/-- Every property is listed by the owner that it names. -/
theorem Listed.mem_listedBy (h : g.Listed) {p : PropertyId} {q : Property}
    (hq : g.properties[p.index]? = some q) : p ∈ g.listedBy q.owner := by
  obtain ⟨hlt, hget⟩ := Array.getElem?_eq_some_iff.1 hq
  have hplace : p.index ∈ (g.listedBy q.owner).map (·.index) := by
    rw [h.properties, List.mem_findIdxs_iff_pos_getElem hlt]
    simp [hget]
  obtain ⟨r, hr, hindex⟩ := List.mem_map.1 hplace
  have : r = p := by
    cases r
    cases p
    exact congrArg PropertyId.mk hindex
  rwa [← this]

theorem map_name_of_mapM {ids : List PropertyId} {properties : List Property}
    (h : ids.mapM g.propertyAt = .ok properties) :
    properties.map (·.name) = ids.map g.nameOf := by
  refine Fallible.map_eq_map_of_forall₂ (Fallible.mapM_eq_ok_iff.1 h) ?_
  intro p q hpq
  exact (nameOf_of_getElem? ((propertyAt_eq_ok_iff g).1 hpq)).symm

/-! ## One owner -/

theorem WellOwned.owner_eq (hw : g.WellOwned) {owner : Owner} {p : PropertyId}
    (h : p ∈ g.listedBy owner) : ∃ q, g.properties[p.index]? = some q ∧ q.owner = owner := by
  cases owner with
  | container => exact hw.entry_known h
  | structured id => exact hw.own_known h

theorem WellOwned.nodup_listedBy (hw : g.WellOwned) (owner : Owner) :
    (g.listedBy owner).Nodup := by
  cases owner with
  | container => exact hw.entry_nodup
  | structured id => exact hw.own_nodup id

/-- What an owner declares itself has distinct names. -/
theorem WellOwned.nodup_ownNames (hw : g.WellOwned) (owner : Owner) :
    ((g.listedBy owner).map g.nameOf).Nodup := by
  refine (hw.nodup_listedBy owner).map_on ?_
  cases owner with
  | container => exact fun p hp q hq hname => hw.entry_names hp hq hname
  | structured id => exact fun p hp q hq hname => hw.own_names (.inl rfl) hp hq hname

theorem WellOwned.exists_owner (hw : g.WellOwned) (listed : g.Listed) {p : PropertyId}
    (h : p.index < g.properties.size) : ∃ owner,
      (g.listedBy owner).count p = 1 ∧ ∀ other, other ≠ owner → p ∉ g.listedBy other := by
  have hq := Array.getElem?_eq_getElem h
  refine ⟨g.properties[p.index].owner, ?_, ?_⟩
  · exact List.count_eq_one_of_mem (hw.nodup_listedBy _) (listed.mem_listedBy hq)
  · intro other hne hother
    obtain ⟨r, hr, rfl⟩ := hw.owner_eq hother
    rw [hq] at hr
    cases hr
    exact hne rfl

/-! ## Members of a class -/

theorem WellOwned.nodup_members (hw : g.WellOwned) (hchain : BaseChain g id above) :
    ((above.reverse ++ [id]).flatMap g.ownProperties).Nodup := by
  have distinct : (above.reverse ++ [id]).Nodup := by
    rw [← List.reverse_cons, List.nodup_reverse]
    exact hchain.nodup
  refine List.nodup_flatMap.2 ⟨fun x _ => hw.own_nodup x, distinct.imp ?_⟩
  exact fun hne p hpx hpy => hne (hw.owner_unique hpx hpy)

/-- Two classes of a chain are related, so a name is declared by one of them only. -/
theorem WellOwned.names_nodup (hw : g.WellOwned) (hf : g.Forest) {ids : List PropertyId}
    (nodup : ids.Nodup) (hids : g.allProperties id = .ok ids) : (ids.map g.nameOf).Nodup := by
  refine nodup.map_on ?_
  intro p hp q hq hname
  obtain ⟨x, hx, hpx⟩ := (mem_allProperties_iff hf hids).1 hp
  obtain ⟨y, hy, hqy⟩ := (mem_allProperties_iff hf hids).1 hq
  rcases hx.linear hy with hxy | hyx
  · exact (hw.own_names hxy hqy hpx hname.symm).symm
  · exact hw.own_names hyx hpx hqy hname

theorem WellOwned.members (hw : g.WellOwned) (hf : g.Forest) (known : g.IsClass id) :
    ∃ above ids properties, g.ancestors id = .ok above ∧ g.allProperties id = .ok ids ∧
      ids.mapM g.propertyAt = .ok properties ∧ (properties.map (·.name)).Nodup ∧
      ∀ p ∈ properties, ∃ owner ∈ id :: above, p.owner = .structured owner := by
  obtain ⟨above, habove, hchain⟩ := hf.exists_ancestors known
  have hids := allProperties_eq hf known hchain
  have hnames := hw.names_nodup hf (hw.nodup_members hchain) hids
  generalize (above.reverse ++ [id]).flatMap g.ownProperties = ids at hids hnames
  have declared : ∀ p ∈ ids, ∃ q, g.propertyAt p = .ok q ∧
      ∃ owner ∈ id :: above, q.owner = .structured owner := by
    intro p hp
    obtain ⟨owner, hwithin, hown⟩ := (mem_allProperties_iff hf hids).1 hp
    obtain ⟨q, hq, howner⟩ := hw.own_known hown
    refine ⟨q, (propertyAt_eq_ok_iff g).2 hq, owner, ?_, howner⟩
    rcases hwithin with rfl | hderives
    · exact List.mem_cons_self
    · exact List.mem_cons_of_mem _ (hchain.mem_iff.2 hderives)
  obtain ⟨properties, hproperties⟩ := Fallible.exists_mapM_eq_ok fun p hp =>
    let ⟨q, hq, _⟩ := declared p hp
    ⟨q, hq⟩
  refine ⟨above, ids, properties, habove, hids, hproperties, ?_, ?_⟩
  · rw [map_name_of_mapM hproperties]
    exact hnames
  · intro q hq
    obtain ⟨p, hp, hpq⟩ := Fallible.forall_ok_of_mapM_eq_ok hproperties hq
    obtain ⟨q', hq', howner⟩ := declared p hp
    rw [hpq] at hq'
    cases hq'
    exact howner

/-- Whatever operations are tried, in whatever order and however many of them are refused, each
property has one owner and no name is declared twice along a chain of bases. -/
theorem owned_of_attempts (spaceName containerName : String) (fresh : ∀ op ∈ ops, op.AddsFresh) :
    (ops.foldl Operation.attempt (Graph.empty spaceName containerName)).Owned := by
  have built := built_of_attempts (.empty spaceName containerName) fresh
  refine ⟨?_, ?_⟩
  · intro id known
    exact built.wellOwned.members built.forest known
  · intro p hp
    exact built.wellOwned.exists_owner built.listed hp

/-- Names are tried on a class, below one that has them and above one that has them; a class is
linked to one with a property of the same name, and another one is hung from Item to Atlas. -/
def redeclaring : List Operation :=
  [.addClass { name := "Item", kind := .entity },
    .addClass { name := "Book", kind := .entity },
    .addClass { name := "Atlas", kind := .entity },
    .addClass { name := "Map", kind := .entity },
    .addProperty ⟨0⟩ { name := "id", type := .primitive .string },
    .addProperty ⟨1⟩ { name := "pages", type := .primitive .int32 },
    .addProperty ⟨2⟩ { name := "pages", type := .primitive .int32 },
    .setBase ⟨1⟩ ⟨0⟩,
    .addProperty ⟨1⟩ { name := "id", type := .primitive .guid },
    .addProperty ⟨0⟩ { name := "pages", type := .primitive .int64 },
    .setBase ⟨2⟩ ⟨1⟩,
    .setBase ⟨3⟩ ⟨0⟩,
    .setBase ⟨2⟩ ⟨0⟩,
    .setBase ⟨3⟩ ⟨2⟩,
    .addProperty ⟨3⟩ { name := "scale", type := .primitive .int32 },
    .addContainerProperty { name := "id", type := .structured ⟨0⟩ }]

theorem owned_of_redeclaring :
    (∀ op ∈ redeclaring, op.AddsFresh) ∧
      (redeclaring.foldl Operation.attempt (Graph.empty "shop" "Shop")).allProperties ⟨3⟩ =
        .ok [⟨0⟩, ⟨2⟩, ⟨3⟩] ∧
      (redeclaring.foldl Operation.attempt (Graph.empty "shop" "Shop")).Owned := by
  have fresh : ∀ op ∈ redeclaring, op.AddsFresh := by
    simp only [redeclaring, List.forall_mem_cons, Operation.AddsFresh, List.not_mem_nil,
      false_imp_iff, implies_true, and_true]
    exact ⟨⟨rfl, rfl, rfl, rfl⟩, ⟨rfl, rfl, rfl, rfl⟩, ⟨rfl, rfl, rfl, rfl⟩, ⟨rfl, rfl, rfl, rfl⟩⟩
  exact ⟨fresh, by decide +kernel, owned_of_attempts "shop" "Shop" fresh⟩

end Graph
end Schema
end EdmCommands
