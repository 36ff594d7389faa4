import EdmCommands.Selection
import Mathlib.Data.List.Infix
import Mathlib.Data.Prod.Lex

/-!
# EdmCommands.Proofs.Selection

The default is one of the candidates, and there is one unless there are no candidates.

* `Candidate.weight`: what the candidates are compared by.
* `selectDefault_eq_some`, `selectDefault_map`: the default is the first one of least weight.
* `FirstLeast`: that there is one such candidate at most, and so the default is determined.
* `selects_firstLeast`: the default at every stage of the selection, and what one more candidate
  changes.
-/

namespace EdmCommands
namespace Selection

variable {candidates : List Candidate} {best : Option Candidate}

theorem offer_isSome {c : Candidate} : (offer best c).isSome = true := by
  unfold offer
  split
  · split <;> rfl
  · rfl

theorem mem_of_offer {c found : Candidate} (h : offer best c = some found) :
    found = c ∨ best = some found := by
  unfold offer at h
  split at h
  · split at h
    · exact .inl (Option.some.inj h).symm
    · exact .inr h
  · exact .inl (Option.some.inj h).symm

theorem mem_of_foldl_offer {found : Candidate} (h : candidates.foldl offer best = some found) :
    found ∈ candidates ∨ best = some found := by
  induction candidates generalizing best with
  | nil => exact .inr h
  | cons c rest ih =>
    rcases ih h with h | h
    · exact .inl (List.mem_cons_of_mem _ h)
    · rcases mem_of_offer h with rfl | h
      · exact .inl List.mem_cons_self
      · exact .inr h

theorem mem_of_selectDefault {found : Candidate} (h : selectDefault candidates = some found) :
    found ∈ candidates := by
  rcases mem_of_foldl_offer h with h | h
  · exact h
  · cases h

theorem foldl_offer_isSome (h : best.isSome = true ∨ candidates ≠ []) :
    (candidates.foldl offer best).isSome = true := by
  induction candidates generalizing best with
  | nil => exact h.resolve_right fun hne => hne rfl
  | cons c rest ih => exact ih (.inl offer_isSome)

theorem exists_selectDefault (h : candidates ≠ []) :
    ∃ found, selectDefault candidates = some found :=
  Option.isSome_iff_exists.1 (foldl_offer_isSome (.inr h))

/-! ## The best candidate -/

/-- What candidates are compared by: first the mandatory parameters, then all of them. -/
def Candidate.weight (c : Candidate) : ℕ ×ₗ ℕ :=
  toLex (c.mandatory, c.total)

theorem Candidate.beats_iff {a b : Candidate} : a.beats b = true ↔ a.weight < b.weight := by
  unfold beats weight
  rw [Prod.Lex.toLex_lt_toLex]
  simp

theorem Candidate.weight_lt_iff {a b : Candidate} (h : a.mandatory = b.mandatory) :
    a.weight < b.weight ↔ a.total < b.total := by
  rw [weight, weight, Prod.Lex.toLex_lt_toLex]
  simp [h]

theorem Candidate.weight_le_iff {a b : Candidate} (h : a.mandatory = b.mandatory) :
    a.weight ≤ b.weight ↔ a.total ≤ b.total := by
  rw [← not_lt, weight_lt_iff h.symm, not_lt]

theorem Candidate.weight_lt_of_mandatory_lt {a b : Candidate} (h : a.mandatory < b.mandatory) :
    a.weight < b.weight := by
  rw [weight, weight, Prod.Lex.toLex_lt_toLex]
  exact .inl h

/-- The best so far is kept in front of candidates that do not beat it, and else gives way to the
first of least weight. -/
theorem foldl_offer_eq_some {b found : Candidate}
    (h : candidates.foldl offer (some b) = some found) :
    (found = b ∧ ∀ a ∈ candidates, b.weight ≤ a.weight) ∨
      found.weight < b.weight ∧ ∃ front back, candidates = front ++ found :: back ∧
        (∀ a ∈ front, found.weight < a.weight) ∧ ∀ a ∈ back, found.weight ≤ a.weight := by
  induction candidates generalizing b with
  | nil =>
    cases h
    exact .inl ⟨rfl, by simp⟩
  | cons c rest ih =>
    rw [List.foldl_cons] at h
    by_cases hbeats : c.weight < b.weight
    · have hoffer : offer (some b) c = some c := by
        rw [offer, if_pos (Candidate.beats_iff.2 hbeats)]
      rw [hoffer] at h
      rcases ih h with ⟨rfl, hleast⟩ | ⟨hlt, front, back, rfl, hfront, hback⟩
      · exact .inr ⟨hbeats, [], rest, rfl, by simp, hleast⟩
      · refine .inr ⟨hlt.trans hbeats, c :: front, back, rfl, ?_, hback⟩
        exact List.forall_mem_cons.2 ⟨hlt, hfront⟩
    · have hoffer : offer (some b) c = some b := by
        rw [offer, if_neg fun h => hbeats (Candidate.beats_iff.1 h)]
      have hle : b.weight ≤ c.weight := not_lt.1 hbeats
      rw [hoffer] at h
      rcases ih h with ⟨rfl, hleast⟩ | ⟨hlt, front, back, rfl, hfront, hback⟩
      · exact .inl ⟨rfl, List.forall_mem_cons.2 ⟨hle, hleast⟩⟩
      · refine .inr ⟨hlt, c :: front, back, rfl, ?_, hback⟩
        exact List.forall_mem_cons.2 ⟨hlt.trans_le hle, hfront⟩

/-- The default is the first of the candidates of least weight. -/
theorem selectDefault_eq_some {found : Candidate} (h : selectDefault candidates = some found) :
    ∃ front back, candidates = front ++ found :: back ∧
      (∀ a ∈ front, found.weight < a.weight) ∧ ∀ a ∈ back, found.weight ≤ a.weight := by
  unfold selectDefault at h
  cases candidates with
  | nil => cases h
  | cons c rest =>
    rw [List.foldl_cons] at h
    have hoffer : offer none c = some c := rfl
    rw [hoffer] at h
    rcases foldl_offer_eq_some h with ⟨rfl, hleast⟩ | ⟨hlt, front, back, rfl, hfront, hback⟩
    · exact ⟨[], rest, rfl, by simp, hleast⟩
    · exact ⟨c :: front, back, rfl, List.forall_mem_cons.2 ⟨hlt, hfront⟩, hback⟩

/-- The default among the candidates for some elements, by these elements. -/
theorem selectDefault_map {α : Type} {candidate : α → Candidate} {items : List α}
    {found : Candidate} (h : selectDefault (items.map candidate) = some found) :
    ∃ front item back, items = front ++ item :: back ∧ candidate item = found ∧
      (∀ a ∈ front, (candidate item).weight < (candidate a).weight) ∧
      ∀ a ∈ back, (candidate item).weight ≤ (candidate a).weight := by
  obtain ⟨_, _, heq, hfront, hback⟩ := selectDefault_eq_some h
  obtain ⟨front, rest, rfl, rfl, hrest⟩ := List.map_eq_append_iff.1 heq
  obtain ⟨item, back, rfl, rfl, rfl⟩ := List.map_eq_cons_iff.1 hrest
  exact ⟨front, item, back, rfl, rfl, fun a ha => hfront _ (List.mem_map_of_mem ha),
    fun a ha => hback _ (List.mem_map_of_mem ha)⟩

/-! ## Every stage of the selection -/

/-- The first of the candidates of least weight. -/
def FirstLeast (found : Candidate) (candidates : List Candidate) : Prop :=
  ∃ front back, candidates = front ++ found :: back ∧
    (∀ a ∈ front, found.weight < a.weight) ∧ ∀ a ∈ back, found.weight ≤ a.weight

theorem FirstLeast.weight_le {found : Candidate} (h : FirstLeast found candidates) :
    ∀ a ∈ candidates, found.weight ≤ a.weight := by
  obtain ⟨front, back, rfl, hfront, hback⟩ := h
  rw [List.forall_mem_append, List.forall_mem_cons]
  exact ⟨fun a ha => (hfront a ha).le, le_rfl, hback⟩

theorem FirstLeast.unique {a b : Candidate} (ha : FirstLeast a candidates)
    (hb : FirstLeast b candidates) : a = b := by
  have leastA := ha.weight_le
  have leastB := hb.weight_le
  obtain ⟨frontA, backA, rfl, hfrontA, -⟩ := ha
  obtain ⟨frontB, backB, heq, hfrontB, -⟩ := hb
  have hab : a.weight ≤ b.weight := leastA b (by simp [heq])
  have hba : b.weight ≤ a.weight := leastB a (by simp)
  rcases List.append_eq_append_iff.1 heq with ⟨between, rfl, hrest⟩ | ⟨between, rfl, hrest⟩
  -- the one that stands behind the other would have to be lighter
  · cases between with
    | nil => exact (List.cons.inj hrest).1
    | cons x rest =>
      obtain ⟨rfl, -⟩ := List.cons.inj hrest
      exact absurd (hfrontB a (by simp)) hab.not_gt
  · cases between with
    | nil => exact (List.cons.inj hrest).1.symm
    | cons x rest =>
      obtain ⟨rfl, -⟩ := List.cons.inj hrest
      exact absurd (hfrontA b (by simp)) hba.not_gt

theorem selectDefault_eq_none_iff : selectDefault candidates = none ↔ candidates = [] := by
  constructor
  · intro h
    by_contra hne
    obtain ⟨found, hfound⟩ := exists_selectDefault hne
    rw [h] at hfound
    cases hfound
  · rintro rfl
    rfl

theorem selectDefault_eq_some_iff {found : Candidate} :
    selectDefault candidates = some found ↔ FirstLeast found candidates := by
  refine ⟨selectDefault_eq_some, fun h => ?_⟩
  have hne : candidates ≠ [] := by
    obtain ⟨front, back, rfl, -⟩ := h
    simp
  obtain ⟨other, hother⟩ := exists_selectDefault hne
  rw [hother, h.unique (selectDefault_eq_some hother)]

theorem selectDefault_append (c : Candidate) :
    selectDefault (candidates ++ [c]) = offer (selectDefault candidates) c := by
  rw [selectDefault, List.foldl_append]
  rfl

/-- Before and after each offer, the best so far is the default among those offered. -/
theorem selections_eq (front : List Candidate) : selections (selectDefault front) candidates =
    candidates.inits.map fun offered => selectDefault (front ++ offered) := by
  induction candidates generalizing front with
  | nil => simp [selections]
  | cons c rest ih =>
    rw [selections, ← selectDefault_append, ih, List.inits_cons, List.map_cons, List.map_map,
      List.append_nil]
    congr 1
    refine List.map_congr_left fun offered _ => ?_
    rw [Function.comp_apply, List.append_assoc, List.singleton_append]

theorem selectDefault_append_of_lt {c : Candidate} (h : ∀ a ∈ candidates, c.weight < a.weight) :
    selectDefault (candidates ++ [c]) = some c :=
  selectDefault_eq_some_iff.2 ⟨candidates, [], rfl, h, by simp⟩

theorem selectDefault_append_of_ne {c : Candidate}
    (h : selectDefault (candidates ++ [c]) ≠ selectDefault candidates) :
    ∀ a ∈ candidates, c.weight < a.weight := by
  cases hbest : selectDefault candidates with
  | none =>
    rw [selectDefault_eq_none_iff.1 hbest]
    simp
  | some best =>
    rw [selectDefault_append, hbest, offer] at h
    have hbeats : c.beats best = true := by
      by_contra hnot
      rw [if_neg hnot] at h
      exact h rfl
    have hlt : c.weight < best.weight := Candidate.beats_iff.1 hbeats
    intro a ha
    exact hlt.trans_le ((selectDefault_eq_some_iff.1 hbest).weight_le a ha)

/-- There is a default unless there are no candidates, and it is the first one of least weight. At
each stage of the selection the best so far is the default among the candidates offered. One more
candidate becomes the default if it is strictly lighter than all the others, and changes nothing
otherwise. -/
theorem selects_firstLeast (candidates : List Candidate) :
    (selectDefault candidates = none ↔ candidates = []) ∧
    (∀ found, selectDefault candidates = some found ↔ FirstLeast found candidates) ∧
    selections none candidates = candidates.inits.map selectDefault ∧
    ∀ c : Candidate,
      ((∀ a ∈ candidates, c.weight < a.weight) → selectDefault (candidates ++ [c]) = some c) ∧
      (selectDefault (candidates ++ [c]) ≠ selectDefault candidates →
        ∀ a ∈ candidates, c.weight < a.weight) := by
  have stages : selections none candidates = candidates.inits.map selectDefault :=
    selections_eq []
  exact ⟨selectDefault_eq_none_iff, fun _ => selectDefault_eq_some_iff, stages, fun _ =>
    ⟨selectDefault_append_of_lt, selectDefault_append_of_ne⟩⟩

/-- A tie in both numbers goes to the candidate that was offered first. -/
example : (selectDefault [⟨"Short", 1, 1⟩, ⟨"Long", 0, 3⟩, ⟨"Late", 0, 3⟩]).map (·.name) =
    some "Long" := by decide

end Selection
end EdmCommands
