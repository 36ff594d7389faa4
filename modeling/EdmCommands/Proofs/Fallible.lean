import Mathlib.Data.List.Forall2

/-!
# EdmCommands.Proofs.Fallible

Computations that may stop with a fault, taken apart: when a sequence of them succeeds, each part
does.
-/

namespace EdmCommands
namespace Fallible

variable {ε α β : Type}

theorem bind_eq_ok_iff {x : Except ε α} {f : α → Except ε β} {b : β} :
    (x >>= f) = .ok b ↔ ∃ a, x = .ok a ∧ f a = .ok b := by
  cases x with
  | error e => simp [bind, Except.bind]
  | ok a => simp [bind, Except.bind]

theorem map_eq_ok_iff {x : Except ε α} {f : α → β} {b : β} :
    x.map f = .ok b ↔ ∃ a, x = .ok a ∧ f a = b := by
  cases x with
  | error e => simp [Except.map]
  | ok a => simp [Except.map]

@[grind =]
theorem bind_eq_error_iff {x : Except ε α} {f : α → Except ε β} {e : ε} :
    (x >>= f) = .error e ↔ x = .error e ∨ ∃ a, x = .ok a ∧ f a = .error e := by
  cases x with
  | error e' => simp [bind, Except.bind]
  | ok a => simp [bind, Except.bind]

@[grind =]
theorem map_eq_error_iff {x : Except ε α} {f : α → β} {e : ε} :
    x.map f = .error e ↔ x = .error e := by
  cases x with
  | error e' => simp [Except.map]
  | ok a => simp [Except.map]

@[grind =]
theorem pure_eq_error_iff {a : α} {e : ε} : (pure a : Except ε α) = .error e ↔ False := by
  simp [pure, Except.pure]

@[grind =]
theorem throw_eq_error_iff {e e' : ε} : (throw e : Except ε α) = .error e' ↔ e = e' := by
  simp [throw, throwThe, MonadExceptOf.throw]

theorem mapError_eq_ok_iff {δ : Type} {x : Except ε α} {f : ε → δ} {a : α} :
    x.mapError f = .ok a ↔ x = .ok a := by
  cases x with
  | error e => constructor <;> intro h <;> cases h
  | ok b => constructor <;> intro h <;> cases h <;> rfl

theorem mapError_eq_error_iff {δ : Type} {x : Except ε α} {f : ε → δ} {d : δ} :
    x.mapError f = .error d ↔ ∃ e, x = .error e ∧ f e = d := by
  cases x with
  | error e => simp [Except.mapError]
  | ok a => simp [Except.mapError]

/-- Where each element has the result that `g` says, all of them have. -/
theorem mapM_eq_ok_map {f : α → Except ε β} {g : α → β} {l : List α}
    (h : ∀ a ∈ l, f a = .ok (g a)) : l.mapM f = .ok (l.map g) := by
  induction l with
  | nil => rfl
  | cons a rest ih =>
    rw [List.mapM_cons, h a List.mem_cons_self, ih fun b hb => h b (List.mem_cons_of_mem a hb)]
    rfl

/-- Where no element fails, the list does not. -/
theorem forM_eq_ok {f : α → Except ε PUnit} {l : List α} (h : ∀ a ∈ l, f a = .ok ⟨⟩) :
    l.forM f = .ok ⟨⟩ := by
  induction l with
  | nil => rfl
  | cons a rest ih =>
    rw [List.forall_mem_cons] at h
    change (f a >>= fun _ => rest.forM f) = _
    rw [h.1]
    exact ih h.2

theorem forall_of_forM_eq_ok {f : α → Except ε Unit} {l : List α} (h : l.forM f = .ok ⟨⟩) :
    ∀ a ∈ l, f a = .ok ⟨⟩ := by
  induction l with
  | nil => simp
  | cons a rest ih =>
    change (f a >>= fun _ => rest.forM f) = _ at h
    obtain ⟨_, ha, hrest⟩ := bind_eq_ok_iff.1 h
    exact List.forall_mem_cons.2 ⟨ha, ih hrest⟩

/-- Where no element has another result than `g` says, there are no others. -/
theorem eq_map_of_mapM_eq_ok {f : α → Except ε β} {g : α → β} {l : List α} {r : List β}
    (h : ∀ a ∈ l, ∀ b, f a = .ok b → b = g a) (hr : l.mapM f = .ok r) : r = l.map g := by
  induction l generalizing r with
  | nil => cases hr; rfl
  | cons a rest ih =>
    rw [List.mapM_cons] at hr
    obtain ⟨b, hb, hr⟩ := bind_eq_ok_iff.1 hr
    obtain ⟨bs, hbs, hr⟩ := bind_eq_ok_iff.1 hr
    cases hr
    rw [h a List.mem_cons_self b hb, ih (fun x hx => h x (List.mem_cons_of_mem a hx)) hbs]
    rfl

/-- What each result tells of its element, the results tell of the elements. -/
theorem map_eq_map_of_forall₂ {γ : Type} {R : α → β → Prop} {told : β → γ} {known : α → γ}
    {l : List α} {r : List β} (hr : List.Forall₂ R l r) (h : ∀ a b, R a b → told b = known a) :
    r.map told = l.map known := by
  induction hr with
  | nil => rfl
  | cons hab _ ih => rw [List.map_cons, List.map_cons, h _ _ hab, ih]

theorem exists_forall₂ {R : α → β → Prop} {l : List α} (h : ∀ a ∈ l, ∃ b, R a b) :
    ∃ r, List.Forall₂ R l r := by
  induction l with
  | nil => exact ⟨[], .nil⟩
  | cons a rest ih =>
    rw [List.forall_mem_cons] at h
    obtain ⟨⟨b, hb⟩, hrest⟩ := h
    obtain ⟨bs, hbs⟩ := ih hrest
    exact ⟨b :: bs, .cons hb hbs⟩

theorem exists_of_mem_right {R : α → β → Prop} {l : List α} {r : List β} (h : List.Forall₂ R l r)
    {b : β} (hb : b ∈ r) : ∃ a ∈ l, R a b := by
  induction h with
  | nil => cases hb
  | cons hab _ ih =>
    rcases List.mem_cons.1 hb with rfl | hb
    · exact ⟨_, List.mem_cons_self, hab⟩
    · obtain ⟨a, ha, hab⟩ := ih hb
      exact ⟨a, List.mem_cons_of_mem _ ha, hab⟩

theorem exists_of_mem_left {R : α → β → Prop} {l : List α} {r : List β} (h : List.Forall₂ R l r)
    {a : α} (ha : a ∈ l) : ∃ b ∈ r, R a b := by
  have hflip : List.Forall₂ (flip R) r l := List.Forall₂.flip h
  exact exists_of_mem_right hflip ha

/-- The results stand in the order of the elements. -/
theorem forall₂_of_mapM_eq_ok {f : α → Except ε β} {l : List α} {r : List β}
    (hr : l.mapM f = .ok r) : List.Forall₂ (fun a b => f a = .ok b) l r := by
  induction l generalizing r with
  | nil =>
    cases hr
    exact .nil
  | cons a rest ih =>
    rw [List.mapM_cons] at hr
    obtain ⟨b, hb, hr⟩ := bind_eq_ok_iff.1 hr
    obtain ⟨bs, hbs, hr⟩ := bind_eq_ok_iff.1 hr
    cases hr
    exact .cons hb (ih hbs)

theorem mapM_eq_ok_iff {f : α → Except ε β} {l : List α} {r : List β} :
    l.mapM f = .ok r ↔ List.Forall₂ (fun a b => f a = .ok b) l r := by
  refine ⟨forall₂_of_mapM_eq_ok, ?_⟩
  intro h
  induction h with
  | nil => rfl
  | cons ha _ ih =>
    rw [List.mapM_cons, ha, ih]
    rfl

/-- Where each element has a result, all of them have. -/
theorem exists_mapM_eq_ok {f : α → Except ε β} {l : List α} (h : ∀ a ∈ l, ∃ b, f a = .ok b) :
    ∃ r, l.mapM f = .ok r := by
  obtain ⟨r, hr⟩ := exists_forall₂ h
  exact ⟨r, mapM_eq_ok_iff.2 hr⟩

theorem optionMapM_eq_ok_iff {f : α → Except ε β} {o : Option α} {r : Option β} :
    o.mapM f = .ok r ↔ Option.Rel (fun a b => f a = .ok b) o r := by
  cases o with
  | none =>
    constructor
    · intro h
      cases h
      exact .none
    · intro h
      cases h
      rfl
  | some a =>
    change (some <$> f a) = _ ↔ _
    constructor
    · intro h
      obtain ⟨b, hb, rfl⟩ := map_eq_ok_iff.1 h
      exact .some hb
    · intro h
      cases h with
      | some hb => exact map_eq_ok_iff.2 ⟨_, hb, rfl⟩

theorem forall_ok_of_mapM_eq_ok {f : α → Except ε β} {l : List α} {r : List β}
    (hr : l.mapM f = .ok r) {b : β} (hb : b ∈ r) : ∃ a ∈ l, f a = .ok b := by
  induction l generalizing r with
  | nil => cases hr; cases hb
  | cons a rest ih =>
    rw [List.mapM_cons] at hr
    obtain ⟨c, hc, hr⟩ := bind_eq_ok_iff.1 hr
    obtain ⟨cs, hcs, hr⟩ := bind_eq_ok_iff.1 hr
    cases hr
    rcases List.mem_cons.1 hb with rfl | hb
    · exact ⟨a, List.mem_cons_self, hc⟩
    · obtain ⟨x, hx, hxb⟩ := ih hcs hb
      exact ⟨x, List.mem_cons_of_mem a hx, hxb⟩

/-- A list stops with the fault of one of its elements. -/
theorem exists_error_of_mapM_eq_error {f : α → Except ε β} {l : List α} {e : ε}
    (h : l.mapM f = .error e) : ∃ a ∈ l, f a = .error e := by
  induction l with
  | nil => cases h
  | cons a rest ih =>
    rw [List.mapM_cons] at h
    rcases bind_eq_error_iff.1 h with h | ⟨b, _, h⟩
    · exact ⟨a, List.mem_cons_self, h⟩
    rcases bind_eq_error_iff.1 h with h | ⟨bs, _, h⟩
    · obtain ⟨x, hx, hxe⟩ := ih h
      exact ⟨x, List.mem_cons_of_mem a hx, hxe⟩
    · cases h

theorem exists_error_of_forM_eq_error {f : α → Except ε Unit} {l : List α} {e : ε}
    (h : l.forM f = .error e) : ∃ a ∈ l, f a = .error e := by
  induction l with
  | nil => cases h
  | cons a rest ih =>
    change (f a >>= fun _ => rest.forM f) = _ at h
    rcases bind_eq_error_iff.1 h with h | ⟨_, _, h⟩
    · exact ⟨a, List.mem_cons_self, h⟩
    · obtain ⟨x, hx, hxe⟩ := ih h
      exact ⟨x, List.mem_cons_of_mem a hx, hxe⟩

/-- Whatever the computation results in satisfies `Q`, and where `P` holds it has a result. -/
structure Yields (P : Prop) (x : Except ε α) (Q : α → Prop) : Prop where
  sound : ∀ a, x = .ok a → Q a
  total : P → ∃ a, x = .ok a

namespace Yields

variable {P : Prop} {Q : α → Prop}

theorem ok {a : α} (h : Q a) : Yields P (.ok a : Except ε α) Q where
  sound b hb := by
    cases hb
    exact h
  total _ := ⟨a, rfl⟩

theorem bind {R : β → Prop} {x : Except ε α} {f : α → Except ε β} (hx : Yields P x Q)
    (hf : ∀ a, Q a → Yields P (f a) R) : Yields P (x >>= f) R where
  sound b hb := by
    obtain ⟨a, ha, hb⟩ := bind_eq_ok_iff.1 hb
    exact (hf a (hx.sound a ha)).sound b hb
  total hP := by
    obtain ⟨a, ha⟩ := hx.total hP
    obtain ⟨b, hb⟩ := (hf a (hx.sound a ha)).total hP
    exact ⟨b, bind_eq_ok_iff.2 ⟨a, ha, hb⟩⟩

theorem map {R : β → Prop} {x : Except ε α} {f : α → β} (hx : Yields P x Q)
    (hf : ∀ a, Q a → R (f a)) : Yields P (x.map f) R where
  sound b hb := by
    obtain ⟨a, ha, rfl⟩ := map_eq_ok_iff.1 hb
    exact hf a (hx.sound a ha)
  total hP := by
    obtain ⟨a, ha⟩ := hx.total hP
    exact ⟨f a, map_eq_ok_iff.2 ⟨a, ha, rfl⟩⟩

/-- The invariant speaks of the part of the list that the fold has passed. -/
theorem foldlM {I : List α → β → Prop} {f : β → α → Except ε β} {l : List α} {b : β}
    (step : ∀ done a b, done ++ [a] <+: l → I done b → Yields P (f b a) (I (done ++ [a])))
    (h : I [] b) : Yields P (l.foldlM f b) (I l) := by
  suffices rest : ∀ todo done b, done ++ todo = l → I done b → Yields P (todo.foldlM f b) (I l) from
    rest l [] b rfl h
  intro todo
  induction todo with
  | nil =>
    intro done b hall h
    rw [List.append_nil] at hall
    subst hall
    exact .ok h
  | cons a todo ih =>
    intro done b hall h
    have hall' : (done ++ [a]) ++ todo = l := by rw [List.append_assoc]; exact hall
    rw [List.foldlM_cons]
    exact (step done a b ⟨todo, hall'⟩ h).bind fun b' h' => ih _ b' hall' h'

theorem forM {f : α → Except ε Unit} {l : List α} (step : P → ∀ a ∈ l, f a = .ok ⟨⟩) :
    Yields P (l.forM f) fun _ => ∀ a ∈ l, f a = .ok ⟨⟩ where
  sound _ h := forall_of_forM_eq_ok h
  total hP := ⟨⟨⟩, forM_eq_ok (step hP)⟩

end Yields

/-- Whatever the computation results in satisfies `Q`, and whatever it stops with satisfies `E`. -/
structure Ends (x : Except ε α) (Q : α → Prop) (E : ε → Prop) : Prop where
  result : ∀ a, x = .ok a → Q a
  fault : ∀ e, x = .error e → E e

namespace Ends

variable {Q : α → Prop} {E : ε → Prop}

theorem ok {a : α} (h : Q a) : Ends (.ok a : Except ε α) Q E where
  result b hb := by
    cases hb
    exact h
  fault _ he := nomatch he

theorem error {e : ε} (h : E e) : Ends (.error e : Except ε α) Q E where
  result _ hb := nomatch hb
  fault e' he := by
    cases he
    exact h

theorem of_fault {x : Except ε α} (h : ∀ e, x = .error e → E e) : Ends x (x = .ok ·) E :=
  ⟨fun _ => id, h⟩

theorem bind {R : β → Prop} {x : Except ε α} {f : α → Except ε β} (hx : Ends x Q E)
    (hf : ∀ a, Q a → Ends (f a) R E) : Ends (x >>= f) R E where
  result b hb := by
    obtain ⟨a, ha, hb⟩ := bind_eq_ok_iff.1 hb
    exact (hf a (hx.result a ha)).result b hb
  fault e he := by
    rcases bind_eq_error_iff.1 he with he | ⟨a, ha, he⟩
    · exact hx.fault e he
    · exact (hf a (hx.result a ha)).fault e he

theorem map {R : β → Prop} {x : Except ε α} {f : α → β} (hx : Ends x Q E)
    (hf : ∀ a, Q a → R (f a)) : Ends (x.map f) R E where
  result b hb := by
    obtain ⟨a, ha, rfl⟩ := map_eq_ok_iff.1 hb
    exact hf a (hx.result a ha)
  fault e he := hx.fault e (map_eq_error_iff.1 he)

end Ends

end Fallible
end EdmCommands
