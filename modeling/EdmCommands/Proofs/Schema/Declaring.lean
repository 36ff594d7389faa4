import EdmCommands.Proofs.Schema.Renumbering
import EdmCommands.Proofs.Schema.Reordering
import EdmCommands.Schema.OfDocument

/-!
# EdmCommands.Proofs.Schema.Declaring

Properties that are added one after the other, each to its owner.

* `declare`: a property goes to the end of the table and of what its owner lists.
* `eq_withProperties_of_run`: what the owners list depends on the owners of the properties only.
* `exists_run_of_perm_members`, `exists_run_of_entries`: properties of classes are accepted in any
  order, entry points as long as their names are distinct.
* `exists_runs_of_perm`: both in another order.
* `forClasses_declareMethods_withProperties`, `checkKey_relocate`: what is done behind that does
  not look at the table.
-/

namespace EdmCommands
namespace Schema
namespace Graph

def declare (g : Graph) (p : Property) : Except Fault Graph :=
  match p.owner with
  | .container => (g.addContainerProperty p).map (·.1)
  | .structured id => (g.addProperty id p).map (·.1)

def Operation.declaring (p : Property) : Operation :=
  match p.owner with
  | .container => addContainerProperty p
  | .structured id => addProperty id p

variable {g g' : Graph} {p p' : Property} {ps ps' : List Property} {table : Array Property}

theorem declare_eq_apply : g.declare p = (Operation.declaring p).apply g := by
  unfold declare Operation.declaring
  cases p.owner <;> rfl

theorem run_eq_apply :
    ps.foldlM declare g = (ps.map Operation.declaring).foldlM Operation.apply g := by
  rw [List.foldlM_map]
  congr 1
  funext g p
  exact declare_eq_apply

theorem Built.declare (built : g.Built) (h : g.declare p = .ok g') : g'.Built := by
  rw [declare_eq_apply] at h
  refine built.apply ?_ h
  unfold Operation.declaring
  cases p.owner <;> trivial

/-! ## The shape of the graph -/

theorem properties_declare (h : g.declare p = .ok g') :
    g'.properties = g.properties.push p := by
  unfold Graph.declare at h
  split at h <;> rename_i howner
  · obtain ⟨⟨_, _⟩, hadd, rfl⟩ := Fallible.map_eq_ok_iff.1 h
    obtain ⟨_, rfl⟩ := addContainerProperty_eq_ok hadd
    rw [← howner]
  · obtain ⟨⟨_, _⟩, hadd, rfl⟩ := Fallible.map_eq_ok_iff.1 h
    obtain ⟨_, _, _, _, _, _, rfl⟩ := addProperty_eq_ok hadd
    rw [← howner]

/-- What the owners list depends on the owner of the property and on its place. -/
theorem eq_withProperties_of_declare {d : Graph} (size : table.size = g.properties.size)
    (owner : p'.owner = p.owner) (h : g.declare p = .ok g')
    (h' : (g.withProperties table).declare p' = .ok d) :
    d = g'.withProperties (table.push p') := by
  have hpush := properties_declare h'
  unfold Graph.declare at h h'
  rw [owner] at h'
  split at h <;> rename_i howner <;> simp only [howner] at h'
  · obtain ⟨⟨_, _⟩, hadd, rfl⟩ := Fallible.map_eq_ok_iff.1 h
    obtain ⟨⟨_, _⟩, hadd', rfl⟩ := Fallible.map_eq_ok_iff.1 h'
    obtain ⟨_, rfl⟩ := addContainerProperty_eq_ok hadd
    obtain ⟨_, rfl⟩ := addContainerProperty_eq_ok hadd'
    simp only [withProperties, size] at hpush ⊢
    rw [hpush]
  · obtain ⟨⟨_, _⟩, hadd, rfl⟩ := Fallible.map_eq_ok_iff.1 h
    obtain ⟨⟨_, _⟩, hadd', rfl⟩ := Fallible.map_eq_ok_iff.1 h'
    obtain ⟨_, _, _, _, _, _, rfl⟩ := addProperty_eq_ok hadd
    obtain ⟨_, _, _, _, _, _, rfl⟩ := addProperty_eq_ok hadd'
    simp only [withProperties, size] at hpush ⊢
    rw [hpush]

theorem properties_of_run (h : ps.foldlM declare g = .ok g') :
    g'.properties.toList = g.properties.toList ++ ps := by
  induction ps generalizing g with
  | nil =>
    cases h
    rw [List.append_nil]
  | cons p rest ih =>
    rw [List.foldlM_cons] at h
    obtain ⟨g₁, hp, h⟩ := Fallible.bind_eq_ok_iff.1 h
    rw [ih h, properties_declare hp, Array.toList_push, List.append_assoc]
    rfl

/-- Two runs of properties with the same owners make graphs that differ in the table only. -/
theorem eq_withProperties_of_run {d : Graph} (size : table.size = g.properties.size)
    (owners : ps'.map (·.owner) = ps.map (·.owner)) (h : ps.foldlM declare g = .ok g')
    (h' : ps'.foldlM declare (g.withProperties table) = .ok d) :
    d = g'.withProperties d.properties := by
  induction ps generalizing g table ps' with
  | nil =>
    obtain rfl : ps' = [] := by simpa using owners
    cases h
    cases h'
    rfl
  | cons p rest ih =>
    obtain ⟨p', rest', rfl⟩ : ∃ p' rest', ps' = p' :: rest' := by
      cases ps' with
      | nil => cases owners
      | cons p' rest' => exact ⟨p', rest', rfl⟩
    rw [List.map_cons, List.map_cons, List.cons.injEq] at owners
    rw [List.foldlM_cons] at h h'
    obtain ⟨g₁, hp, h⟩ := Fallible.bind_eq_ok_iff.1 h
    obtain ⟨d₁, hp', h'⟩ := Fallible.bind_eq_ok_iff.1 h'
    rw [eq_withProperties_of_declare size owners.1 hp hp'] at h'
    refine ih ?_ owners.2 h h'
    rw [properties_declare hp, Array.size_push, Array.size_push, size]

theorem Built.run (built : g.Built) (h : ps.foldlM Graph.declare g = .ok g') : g'.Built := by
  induction ps generalizing g with
  | nil =>
    cases h
    exact built
  | cons p rest ih =>
    rw [List.foldlM_cons] at h
    obtain ⟨g₁, hp, h⟩ := Fallible.bind_eq_ok_iff.1 h
    exact ih (built.declare hp) h

/-- The properties of one owner have distinct names. -/
theorem Built.nodup_names (built : g.Built) (owner : Owner) :
    ((g.properties.toList.filter (·.owner = owner)).map (·.name)).Nodup := by
  have hlisted := Fallible.mapM_eq_ok_iff.1 (built.listed.mapM_propertyAt owner)
  have hnames : (g.properties.toList.filter (·.owner = owner)).map (·.name) =
      (g.listedBy owner).map g.nameOf := by
    refine Fallible.map_eq_map_of_forall₂ hlisted fun id q hq => ?_
    exact (nameOf_of_getElem? ((propertyAt_eq_ok_iff g).1 hq)).symm
  rw [hnames]
  exact built.wellOwned.nodup_ownNames owner

/-! ## Runs in another order -/

/-- The properties of classes can be added in any order. -/
theorem exists_run_of_perm_members (built : g.Built) (perm : ps.Perm ps')
    (members : ∀ p ∈ ps, p.owner ≠ .container) (h : ps.foldlM declare g = .ok g') :
    ∃ d, ps'.foldlM declare g = .ok d := by
  have kind : ∀ p ∈ ps, (Operation.declaring p).IsLinkOrProperty ∧
      (Operation.declaring p).linked? = none := by
    intro p hp
    have howner := members p hp
    unfold Operation.declaring
    split
    · contradiction
    · exact ⟨trivial, rfl⟩
  have unlinked : (ps.map Operation.declaring).filterMap Operation.linked? = [] := by
    rw [List.filterMap_map, List.filterMap_eq_nil_iff]
    exact fun p hp => (kind p hp).2
  rw [run_eq_apply] at h
  obtain ⟨hcompletes, hgoal⟩ := completes_of_run built
    (by rw [List.forall_mem_map]; exact fun p hp => (kind p hp).1) (by simp [unlinked])
    (by simp [unlinked]) h
  obtain ⟨d, hd, _⟩ :=
    (hcompletes.perm (perm.map Operation.declaring)).exists_run built hgoal
  exact ⟨d, run_eq_apply.trans hd⟩

/-- Entry points can be added as long as their names are distinct. -/
theorem exists_run_of_entries (built : g.Built) (entries : ∀ p ∈ ps, p.owner = .container)
    (distinct : (ps.map (·.name)).Nodup)
    (free : ∀ q ∈ g.properties.toList, q.owner = .container → q.name ∉ ps.map (·.name)) :
    ∃ d, ps.foldlM declare g = .ok d := by
  induction ps generalizing g with
  | nil => exact ⟨g, rfl⟩
  | cons p rest ih =>
    rw [List.forall_mem_cons] at entries
    obtain ⟨howner, hrest⟩ := entries
    rw [List.map_cons, List.nodup_cons] at distinct
    obtain ⟨⟨g₁, new⟩, hadd⟩ : ∃ result, g.addContainerProperty p = .ok result := by
      refine exists_addContainerProperty ?_
      intro q hq r hr hname
      obtain ⟨r', hr', hcontainer⟩ := built.wellOwned.entry_known hq
      rw [hr] at hr'
      cases hr'
      have hlisted := Array.mem_toList_iff.2 (Array.mem_of_getElem? hr)
      exact free r hlisted hcontainer (by simp [hname])
    have hp : g.declare p = .ok g₁ := by
      rw [Graph.declare, howner]
      exact Fallible.map_eq_ok_iff.2 ⟨_, hadd, rfl⟩
    have free' : ∀ q ∈ g₁.properties.toList, q.owner = .container →
        q.name ∉ rest.map (·.name) := by
      intro q hq hcontainer
      rw [properties_declare hp, Array.toList_push, List.mem_append, List.mem_singleton] at hq
      rcases hq with hq | rfl
      · exact fun hmem => free q hq hcontainer (List.mem_cons_of_mem _ hmem)
      · exact distinct.1
    obtain ⟨d, hd⟩ := ih (built.declare hp) hrest distinct.2 free'
    refine ⟨d, ?_⟩
    rw [List.foldlM_cons, hp]
    exact hd

theorem owners_eq_of_perm {owner : Owner} (perm : ps'.Perm ps) (same : ∀ p ∈ ps, p.owner = owner) :
    ps'.map (·.owner) = ps.map (·.owner) := by
  have hall : ∀ l : List Property, (∀ p ∈ l, p.owner = owner) →
      l.map (·.owner) = List.replicate l.length owner := by
    intro l hl
    rw [List.map_congr_left hl, List.map_const']
  rw [hall ps same, hall ps' fun p hp => same p (perm.mem_iff.1 hp), perm.length_eq]

/-- Properties of classes and entry points behind them can be added in another order to a graph
without properties. If properties with the same owners stand at each place, the graphs differ in
the table only. -/
theorem exists_runs_of_perm {qs qs' : List Property} {g₁ g₂ : Graph} (built : g.Built)
    (bare : g.properties.toList = []) (members : ∀ p ∈ ps, p.owner ≠ .container)
    (entries : ∀ q ∈ qs, q.owner = .container) (permP : ps'.Perm ps) (permQ : qs'.Perm qs)
    (owners : ps'.map (·.owner) = ps.map (·.owner)) (h : ps.foldlM declare g = .ok g₁)
    (h' : qs.foldlM declare g₁ = .ok g₂) :
    ∃ d₁ d₂, ps'.foldlM declare g = .ok d₁ ∧ qs'.foldlM declare d₁ = .ok d₂ ∧
      d₂ = g₂.withProperties d₂.properties ∧ d₂.properties.toList = ps' ++ qs' := by
  obtain ⟨d₁, hd₁⟩ := exists_run_of_perm_members built permP.symm members h
  have htable : g₁.properties.toList = ps := by
    rw [properties_of_run h, bare, List.nil_append]
  have htable' : d₁.properties.toList = ps' := by
    rw [properties_of_run hd₁, bare, List.nil_append]
  -- in the end the names of the entry points are distinct
  have distinct : (qs'.map (·.name)).Nodup := by
    have hnames := ((built.run h).run h').nodup_names .container
    have hnone : ps.filter (·.owner = .container) = [] :=
      List.filter_eq_nil_iff.2 fun p hp => by simpa using members p hp
    have hall : qs.filter (·.owner = .container) = qs :=
      List.filter_eq_self.2 fun q hq => by simpa using entries q hq
    rw [properties_of_run h', htable, List.filter_append, hnone, hall, List.nil_append] at hnames
    exact (permQ.map _).nodup_iff.2 hnames
  have free : ∀ q ∈ d₁.properties.toList, q.owner = .container → q.name ∉ qs'.map (·.name) := by
    intro q hq howner
    rw [htable', permP.mem_iff] at hq
    exact absurd howner (members q hq)
  obtain ⟨d₂, hd₂⟩ := exists_run_of_entries (built.run hd₁)
    (fun q hq => entries q (permQ.mem_iff.1 hq)) distinct free
  refine ⟨d₁, d₂, hd₁, hd₂, ?_, by rw [properties_of_run hd₂, htable']⟩
  have hd₁' : ps'.foldlM declare (g.withProperties g.properties) = .ok d₁ := hd₁
  have hframe := eq_withProperties_of_run rfl owners h hd₁'
  have size : d₁.properties.size = g₁.properties.size := by
    have hlength := permP.length_eq
    rwa [← htable, ← htable', Array.length_toList, Array.length_toList] at hlength
  rw [hframe] at hd₂
  exact eq_withProperties_of_run size (owners_eq_of_perm permQ entries) h' hd₂

/-! ## Methods and keys -/

section Kept

variable (g table)

theorem addMethod_withProperties (owner : ClassId) (m : Method) :
    (g.withProperties table).addMethod owner m =
      (g.addMethod owner m).map fun r => (r.1.withProperties table, r.2) := by
  unfold addMethod
  rw [classAt_withProperties]
  cases g.classAt owner with
  | error fault => rfl
  | ok c =>
    simp only [bind, Except.bind]
    split <;> rfl

theorem foldlM_withProperties {α : Type} {step : Graph → α → Except Fault Graph}
    (hstep : ∀ g a, step (g.withProperties table) a = (step g a).map (·.withProperties table))
    (l : List α) :
    l.foldlM step (g.withProperties table) = (l.foldlM step g).map (·.withProperties table) := by
  induction l generalizing g with
  | nil => rfl
  | cons a rest ih =>
    rw [List.foldlM_cons, List.foldlM_cons, hstep]
    cases step g a with
    | error fault => rfl
    | ok g₁ => exact ih g₁

theorem declareMethods_withProperties (entry : Document.ClassEntry) (id : ClassId) :
    (g.withProperties table).declareMethods entry id =
      (g.declareMethods entry id).map (·.withProperties table) := by
  refine foldlM_withProperties g table (fun g m => ?_) entry.methods
  have hresolve : (g.withProperties table).resolveMethod (entry.name ++ "." ++ m.name) m =
      g.resolveMethod (entry.name ++ "." ++ m.name) m := rfl
  rw [hresolve]
  cases g.resolveMethod (entry.name ++ "." ++ m.name) m with
  | error fault => rfl
  | ok method =>
    simp only [bind, Except.bind, addMethod_withProperties]
    cases g.addMethod id method <;> rfl

theorem forClasses_declareMethods_withProperties (entries : List Document.ClassEntry) :
    forClasses declareMethods entries (g.withProperties table) =
      (forClasses declareMethods entries g).map (·.withProperties table) :=
  foldlM_withProperties g table
    (fun g x => declareMethods_withProperties g table x.1 ⟨x.2⟩) entries.zipIdx

end Kept

theorem properties_of_declareMethods {entries : List Document.ClassEntry}
    (h : forClasses declareMethods entries g = .ok g') : g'.properties = g.properties := by
  have hsame := forClasses_declareMethods_withProperties g g.properties entries
  rw [show g.withProperties g.properties = g from rfl, h] at hsame
  have heq : g' = g'.withProperties g.properties := Except.ok.inj hsame
  rw [heq]
  rfl

theorem checkKey_relocate {place : PropertyId → PropertyId} (h : g.Renumbers table place)
    (built : g.Built) {entry : Document.ClassEntry} (hkey : g.checkKey entry = .ok ()) :
    (g.withProperties table).checkKey entry = .ok () := by
  have hfind : (g.withProperties table).findClass = g.findClass := rfl
  unfold checkKey at hkey ⊢
  rw [hfind]
  split at hkey
  · obtain ⟨key, hkey, _⟩ := Fallible.map_eq_ok_iff.1 hkey
    exact Fallible.map_eq_ok_iff.2
      ⟨_, h.keyProperty built.forest built.wellOwned hkey, rfl⟩
  · rfl

end Graph
end Schema
end EdmCommands
