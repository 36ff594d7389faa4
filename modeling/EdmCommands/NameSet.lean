/-!
# EdmCommands.NameSet

A finite set of names, kept as the ascending list of its members. The order is by code point, so
two sets are equal exactly when their lists are.

* `NameSet.ofList`, `NameSet.insert`, `NameSet.contains`.
* `NameSet.mem_insert`, `NameSet.mem_ofList`: what the operations do to the members.
* `NameSet.eq_of_mem_iff`: sets with the same members are one set.
-/

namespace EdmCommands

structure NameSet where
  names : List String
  ascending : names.Pairwise (· < ·) := by simp
deriving DecidableEq

namespace NameSet

/-- The ascending list with one more name. -/
def insertName (x : String) : List String → List String
  | [] => [x]
  | y :: rest =>
    if x < y then x :: y :: rest
    else if x = y then y :: rest
    else y :: insertName x rest

theorem mem_insertName {x z : String} {l : List String} :
    z ∈ insertName x l ↔ z = x ∨ z ∈ l := by
  induction l with
  | nil => simp [insertName]
  | cons y rest ih =>
    unfold insertName
    split
    · simp
    · split
      · rename_i h
        subst h
        simp
      · simp only [List.mem_cons, ih]
        constructor
        · rintro (h | h | h) <;> simp [h]
        · rintro (h | h | h) <;> simp [h]

theorem pairwise_insertName {x : String} {l : List String} (h : l.Pairwise (· < ·)) :
    (insertName x l).Pairwise (· < ·) := by
  induction l with
  | nil => simp [insertName]
  | cons y rest ih =>
    obtain ⟨hy, hrest⟩ := List.pairwise_cons.1 h
    unfold insertName
    split
    · rename_i hxy
      refine List.pairwise_cons.2 ⟨fun z hz => ?_, h⟩
      rcases List.mem_cons.1 hz with hz | hz
      · exact hz ▸ hxy
      · exact String.lt_trans hxy (hy z hz)
    · rename_i hxy
      split
      · exact h
      · rename_i hne
        refine List.pairwise_cons.2 ⟨fun z hz => ?_, ih hrest⟩
        rcases mem_insertName.1 hz with hz | hz
        · exact hz ▸ Std.lt_of_le_of_ne (String.not_lt.1 hxy) (Ne.symm hne)
        · exact hy z hz

def empty : NameSet where
  names := []

def insert (s : NameSet) (x : String) : NameSet where
  names := insertName x s.names
  ascending := pairwise_insertName s.ascending

def ofList (xs : List String) : NameSet :=
  xs.foldl insert empty

def contains (s : NameSet) (x : String) : Bool :=
  s.names.contains x

def isEmpty (s : NameSet) : Bool :=
  s.names.isEmpty

instance : Membership String NameSet where
  mem s x := x ∈ s.names

@[simp] theorem mem_names {s : NameSet} {x : String} : x ∈ s.names ↔ x ∈ s := Iff.rfl

@[simp] theorem contains_iff {s : NameSet} {x : String} : s.contains x = true ↔ x ∈ s := by
  unfold contains
  rw [List.contains_iff_mem]
  exact Iff.rfl

@[simp] theorem mem_insert {s : NameSet} {x z : String} : z ∈ s.insert x ↔ z = x ∨ z ∈ s :=
  mem_insertName

theorem mem_foldl_insert {xs : List String} {s : NameSet} {z : String} :
    z ∈ xs.foldl insert s ↔ z ∈ xs ∨ z ∈ s := by
  induction xs generalizing s with
  | nil => simp
  | cons x rest ih =>
    rw [List.foldl_cons, ih, mem_insert, List.mem_cons]
    constructor
    · rintro (h | h | h) <;> simp [h]
    · rintro ((h | h) | h) <;> simp [h]

@[simp] theorem mem_ofList {xs : List String} {z : String} : z ∈ ofList xs ↔ z ∈ xs := by
  unfold ofList
  rw [mem_foldl_insert]
  constructor
  · rintro (h | h)
    · exact h
    · cases h
  · exact Or.inl

theorem ext {s t : NameSet} (h : s.names = t.names) : s = t := by
  cases s
  cases t
  cases h
  rfl

theorem eq_of_pairwise_of_mem {l m : List String} (hl : l.Pairwise (· < ·))
    (hm : m.Pairwise (· < ·)) (h : ∀ x, x ∈ l ↔ x ∈ m) : l = m := by
  induction l generalizing m with
  | nil =>
    cases m with
    | nil => rfl
    | cons y ys => exact absurd ((h y).2 List.mem_cons_self) List.not_mem_nil
  | cons x xs ih =>
    cases m with
    | nil => exact absurd ((h x).1 List.mem_cons_self) List.not_mem_nil
    | cons y ys =>
      obtain ⟨hx, hxs⟩ := List.pairwise_cons.1 hl
      obtain ⟨hy, hys⟩ := List.pairwise_cons.1 hm
      have head : x = y := by
        rcases List.mem_cons.1 ((h x).1 List.mem_cons_self) with hxy | hxy
        · exact hxy
        · rcases List.mem_cons.1 ((h y).2 List.mem_cons_self) with hyx | hyx
          · exact hyx.symm
          · exact absurd (hx y hyx) (String.lt_asymm (hy x hxy))
      subst head
      rw [ih hxs hys]
      intro z
      constructor
      · intro hz
        rcases List.mem_cons.1 ((h z).1 (List.mem_cons_of_mem _ hz)) with e | e
        · exact absurd (e ▸ hx z hz) (String.lt_irrefl _)
        · exact e
      · intro hz
        rcases List.mem_cons.1 ((h z).2 (List.mem_cons_of_mem _ hz)) with e | e
        · exact absurd (e ▸ hy z hz) (String.lt_irrefl _)
        · exact e

theorem eq_of_mem_iff {s t : NameSet} (h : ∀ x, x ∈ s ↔ x ∈ t) : s = t :=
  ext (eq_of_pairwise_of_mem s.ascending t.ascending h)

end NameSet
end EdmCommands
