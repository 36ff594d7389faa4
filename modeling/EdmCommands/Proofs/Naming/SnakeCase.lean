import EdmCommands.Proofs.Text.Spelling

/-!
# EdmCommands.Proofs.Naming.SnakeCase

The form of the lower case words that pages are named by.

* `IsSnakeCase`: neither breaks nor capitals, and underscores only one at a time and inside.
* `Passes`, `passes_iff`: doubled underscores are replaced as long as there are any, and this ends
  with each run made one.
* `isSnakeCase_snakeCase`: every text is brought into the form.
* `snakeCase_eq_self`, `isAscii_snakeCase`: an ASCII text stays ASCII, and stays as it is in the
  form.
* `settled_snakeCase`: so the form is normal for ASCII texts.
-/

namespace EdmCommands
namespace Naming

open Text

/-! ## Doubled underscores -/

/-- Two underscores stand side by side. -/
def Doubled (cs : List Char) : Prop :=
  ['_', '_'] <:+: cs

theorem not_doubled_nil : ¬ Doubled [] := by
  simp [Doubled]

theorem doubled_cons_iff {c : Char} {cs : List Char} :
    Doubled (c :: cs) ↔ (c = '_' ∧ cs.head? = some '_') ∨ Doubled cs := by
  unfold Doubled
  rw [List.infix_cons_iff, List.cons_prefix_cons]
  cases cs with
  | nil => simp
  | cons d rest => simp [List.cons_prefix_cons, eq_comm (a := '_')]

theorem collapseUnderscores_cons (c : Char) (cs : List Char) :
    collapseUnderscores (c :: cs) =
      if c == '_' && (collapseUnderscores cs).head? == some '_' then collapseUnderscores cs
      else c :: collapseUnderscores cs :=
  rfl

theorem head?_collapseUnderscores (cs : List Char) :
    (collapseUnderscores cs).head? = cs.head? := by
  cases cs with
  | nil => rfl
  | cons c rest =>
    rw [collapseUnderscores_cons]
    split
    · rename_i h
      simp only [Bool.and_eq_true, beq_iff_eq] at h
      rw [h.2, h.1, List.head?_cons]
    · rfl

theorem collapseUnderscores_skip {c : Char} {cs : List Char}
    (h : c = '_' ∧ cs.head? = some '_') :
    collapseUnderscores (c :: cs) = collapseUnderscores cs := by
  rw [collapseUnderscores_cons, head?_collapseUnderscores, if_pos (by simpa using h)]

theorem collapseUnderscores_keep {c : Char} {cs : List Char}
    (h : ¬ (c = '_' ∧ cs.head? = some '_')) :
    collapseUnderscores (c :: cs) = c :: collapseUnderscores cs := by
  rw [collapseUnderscores_cons, head?_collapseUnderscores, if_neg (by simpa using h)]

theorem not_doubled_collapseUnderscores (cs : List Char) : ¬ Doubled (collapseUnderscores cs) := by
  induction cs with
  | nil => exact not_doubled_nil
  | cons c rest ih =>
    by_cases h : c = '_' ∧ rest.head? = some '_'
    · rw [collapseUnderscores_skip h]
      exact ih
    · rw [collapseUnderscores_keep h, doubled_cons_iff, head?_collapseUnderscores]
      exact not_or.2 ⟨h, ih⟩

theorem collapseUnderscores_eq_self {cs : List Char} (h : ¬ Doubled cs) :
    collapseUnderscores cs = cs := by
  induction cs with
  | nil => rfl
  | cons c rest ih =>
    rw [doubled_cons_iff, not_or] at h
    rw [collapseUnderscores_keep h.1, ih h.2]

/-- One pass over a text, which makes one underscore of every two that it comes to side by side. -/
def halveUnderscores : List Char → List Char
  | [] => []
  | '_' :: '_' :: rest => '_' :: halveUnderscores rest
  | c :: rest => c :: halveUnderscores rest

/-- Passes over a text as long as they find two underscores side by side; `out` is what they leave
in the end. -/
inductive Passes : List Char → List Char → Prop where
  | done {cs : List Char} : ¬ Doubled cs → Passes cs cs
  | pass {cs out : List Char} : Doubled cs → Passes (halveUnderscores cs) out → Passes cs out

theorem collapseUnderscores_halveUnderscores (cs : List Char) :
    collapseUnderscores (halveUnderscores cs) = collapseUnderscores cs := by
  fun_induction halveUnderscores cs with
  | case1 => rfl
  | case2 rest ih =>
    have hskip : collapseUnderscores ('_' :: '_' :: rest) = collapseUnderscores ('_' :: rest) :=
      collapseUnderscores_skip ⟨rfl, rfl⟩
    rw [hskip, collapseUnderscores_cons, ih, ← collapseUnderscores_cons]
  | case3 c rest _ ih => rw [collapseUnderscores_cons, ih, ← collapseUnderscores_cons]

theorem length_halveUnderscores_le (cs : List Char) :
    (halveUnderscores cs).length ≤ cs.length := by
  fun_induction halveUnderscores cs with
  | case1 => exact le_rfl
  | case2 rest ih =>
    simp only [List.length_cons]
    omega
  | case3 c rest _ ih =>
    simp only [List.length_cons]
    omega

/-- A pass that finds something makes the text shorter, so that the passes come to an end. -/
theorem length_halveUnderscores_lt {cs : List Char} (h : Doubled cs) :
    (halveUnderscores cs).length < cs.length := by
  fun_induction halveUnderscores cs with
  | case1 => exact absurd h not_doubled_nil
  | case2 rest _ =>
    have := length_halveUnderscores_le rest
    simp only [List.length_cons]
    omega
  | case3 c rest hsingle ih =>
    have hrest : Doubled rest := by
      refine (doubled_cons_iff.1 h).resolve_left ?_
      rintro ⟨hc, hhead⟩
      obtain ⟨rest', hrest'⟩ := List.head?_eq_some_iff.1 hhead
      exact hsingle rest' hc hrest'
    have := ih hrest
    simp only [List.length_cons]
    omega

theorem passes_collapseUnderscores (cs : List Char) : Passes cs (collapseUnderscores cs) := by
  induction hn : cs.length using Nat.strongRecOn generalizing cs with
  | ind n ih =>
    by_cases h : Doubled cs
    · have hshorter : (halveUnderscores cs).length < n := hn ▸ length_halveUnderscores_lt h
      have hrest := ih _ hshorter (halveUnderscores cs) rfl
      rw [collapseUnderscores_halveUnderscores] at hrest
      exact .pass h hrest
    · rw [collapseUnderscores_eq_self h]
      exact .done h

theorem passes_iff {cs out : List Char} : Passes cs out ↔ out = collapseUnderscores cs := by
  constructor
  · intro h
    induction h with
    | done h => exact (collapseUnderscores_eq_self h).symm
    | pass _ _ ih => rw [ih, collapseUnderscores_halveUnderscores]
  · rintro rfl
    exact passes_collapseUnderscores cs

/-! ## The form -/

/-- Words without breaks and capitals, with one underscore between them and none at the ends. -/
structure IsSnakeCase (s : String) : Prop where
  unbroken : ∀ c ∈ s.toList, c ∉ ['-', ' ', '.', '/']
  lower : ∀ c ∈ s.toList, c.isUpper = false
  single : ¬ Doubled s.toList
  head : s.toList.head? ≠ some '_'
  last : s.toList.getLast? ≠ some '_'

def IsAscii (s : String) : Prop :=
  ∀ c ∈ s.toList, c.toNat < 128

/-! ## Case among the first 128 characters

The tables start with the letters from A to Z and go on beyond the first 128 characters. -/

theorem isUpper_iff {c : Char} : c.isUpper = true ↔ 0x41 ≤ c.toNat ∧ c.toNat ≤ 0x5A := by
  have hval : c.isUpper = true ↔ 0x41 ≤ c.val ∧ c.val ≤ 0x5A := decide_eq_true_iff
  rw [hval, UInt32.le_iff_toNat_le, UInt32.le_iff_toNat_le]
  exact Iff.rfl

theorem uppercase_ascii : ∀ span ∈ CaseTable.uppercase,
    span = ⟨0x41, 0x5A, 1⟩ ∨ 0x80 ≤ span.first := by
  decide +kernel

theorem toLowerSeveral_ascii : ∀ entry ∈ CaseTable.toLowerSeveral, 0x80 ≤ entry.code := by
  decide +kernel

theorem toLower_ascii : ∀ entry ∈ CaseTable.toLower,
    entry = ⟨⟨0x41, 0x5A, 1⟩, 32⟩ ∨ 0x80 ≤ entry.first := by
  decide +kernel

theorem isUppercase_ascii {c : Char} (h : c.toNat < 128) : isUppercase c = c.isUpper := by
  rw [Bool.eq_iff_iff, isUpper_iff, isUppercase, List.any_eq_true]
  constructor
  · rintro ⟨span, hspan, hcovers⟩
    simp only [CaseTable.Span.covers, Bool.and_eq_true, decide_eq_true_eq] at hcovers
    rcases uppercase_ascii span hspan with rfl | hbeyond
    · exact hcovers.1
    · omega
  · intro hcode
    refine ⟨⟨0x41, 0x5A, 1⟩, List.mem_cons_self, ?_⟩
    simp [CaseTable.Span.covers, hcode, Nat.mod_one]

theorem lowerChars_ascii {c d : Char} (h : c.toNat < 128) (hd : d ∈ lowerChars c) :
    d.toNat < 128 ∧ d.isUpper = false := by
  rw [← Bool.not_eq_true, isUpper_iff]
  rcases caseImage_cases CaseTable.toLowerSeveral CaseTable.toLower c with
    ⟨entry, hentry, hcode, -⟩ | ⟨entry, hentry, hcovers, himage⟩ | ⟨hnone, himage⟩
  · have hbeyond := toLowerSeveral_ascii entry hentry
    omega
  · rcases toLower_ascii entry hentry with rfl | hbeyond
    · dsimp only at hcovers himage
      rw [lowerChars, himage, List.mem_singleton] at hd
      subst hd
      rcases Nat.eq_zero_or_pos (Char.ofNat ((c.toNat : Int) + 32).toNat).toNat with hzero | hpos
      · omega
      · have hsame := toNat_ofNat hpos
        omega
    · omega
  · rw [lowerChars, himage, List.mem_singleton] at hd
    subst hd
    refine ⟨h, fun hcode => ?_⟩
    have hcovers := hnone ⟨⟨0x41, 0x5A, 1⟩, 32⟩ List.mem_cons_self
    simp [CaseTable.Span.covers, hcode, Nat.mod_one] at hcovers

/-- What is mapped into the first 128 characters is mapped to no capital either. -/
theorem isUpper_lowerChars {c d : Char} (hd : d ∈ lowerChars c) : d.isUpper = false := by
  by_cases hascii : c.toNat < 128
  · exact (lowerChars_ascii hascii hd).2
  · by_contra hnot
    have hcode := isUpper_iff.1 (Bool.of_not_eq_false hnot)
    have hne : c ≠ d := by
      rintro rfl
      omega
    exact lowerChars_ne (by omega) hne hd rfl

/-! ## Every text comes into the form -/

theorem isUpper_snakeCase (s : String) : ∀ c ∈ (snakeCase s).toList, c.isUpper = false := by
  refine forall_mem_snakeCase (Q := fun _ => True) (by decide) ?_ ?_ fun _ _ => trivial
  · intro c _ _ d hd
    exact isUpper_lowerChars hd
  · intro c _ hlower _
    by_contra hnot
    have hupper := Bool.of_not_eq_false hnot
    have hcode := isUpper_iff.1 hupper
    rw [isUppercase_ascii (by omega), hupper] at hlower
    cases hlower

theorem not_doubled_snakeCase (s : String) : ¬ Doubled (snakeCase s).toList := by
  intro hdoubled
  have hinfix := hdoubled.trans (isInfix_trimWhile _ _)
  rw [String.toList_ofList] at hinfix
  exact not_doubled_collapseUnderscores _ hinfix

theorem isSnakeCase_snakeCase (s : String) : IsSnakeCase (snakeCase s) where
  unbroken := fun c hc hbreak => break_not_mem_snakeCase s c hbreak hc
  lower := isUpper_snakeCase s
  single := not_doubled_snakeCase s
  head := head?_trimWhile_ne rfl
  last := getLast?_trimWhile_ne rfl

/-! ## Texts in the form -/

theorem snakeChars_eq_self {cs : List Char}
    (h : ∀ c ∈ cs, isUppercase c = false ∧ isSnakeBreak c = false) (before last : Option Char) :
    snakeChars before last cs = cs := by
  induction cs generalizing before last with
  | nil => rfl
  | cons c rest ih =>
    rw [List.forall_mem_cons] at h
    rw [snakeChars, if_neg (by simp [h.1.1]), if_neg (by simp [h.1.2]), ih h.2]

theorem snakeCase_eq_self {s : String} (hascii : IsAscii s) (h : IsSnakeCase s) :
    snakeCase s = s := by
  have hplain : ∀ c ∈ s.toList, isUppercase c = false ∧ isSnakeBreak c = false := by
    intro c hc
    refine ⟨(isUppercase_ascii (hascii c hc)).trans (h.lower c hc), ?_⟩
    have := h.unbroken c hc
    simpa [isSnakeBreak, and_assoc] using this
  rw [snakeCase, snakeChars_eq_self hplain, collapseUnderscores_eq_self h.single,
    String.ofList_toList]
  apply trimWhile_eq_self
  · rintro c hc
    have := h.head
    rw [hc] at this
    simpa using this
  · rintro c hc
    have := h.last
    rw [hc] at this
    simpa using this

theorem isAscii_snakeCase {s : String} (h : IsAscii s) : IsAscii (snakeCase s) :=
  forall_mem_snakeCase (Q := fun c => c.toNat < 128) (by decide)
    (fun _ hc _ d hd => (lowerChars_ascii hc hd).1) (fun _ hc _ _ => hc) h

/-- The passes over the words of a text end, in one way, and what they leave is trimmed to words in
the form. An ASCII text that is in the form already stays as it is, and so no ASCII text is changed
a second time. -/
theorem settled_snakeCase (s : String) :
    (∃ left, (∀ out, Passes (snakeChars none none s.toList) out ↔ out = left) ∧
      snakeCase s = trimWhile (· == '_') (String.ofList left)) ∧
    IsSnakeCase (snakeCase s) ∧
    (IsAscii s → (IsSnakeCase s → snakeCase s = s) ∧ snakeCase (snakeCase s) = snakeCase s) := by
  refine ⟨⟨_, fun _ => passes_iff, rfl⟩, isSnakeCase_snakeCase s, fun hascii => ⟨?_, ?_⟩⟩
  · exact snakeCase_eq_self hascii
  · exact snakeCase_eq_self (isAscii_snakeCase hascii) (isSnakeCase_snakeCase s)

end Naming
end EdmCommands
