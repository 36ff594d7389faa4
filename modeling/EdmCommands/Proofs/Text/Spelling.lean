import EdmCommands.Naming
import EdmCommands.Proofs.Text.Trim
import Mathlib.Tactic.Common

/-!
# EdmCommands.Proofs.Text.Spelling

What the spellings of a name do to its characters.

* `caseImage_cases`: what a character can become in another case.
* `upperChars_ne`, `lowerChars_ne`: no character but a mark of an address has that mark in its upper
  case, and none but itself has what stands before the letters in its lower case.
* `forall_mem_pascalChars`, `forall_mem_singular`, `forall_mem_snakeCase`: so what keeps a mark out
  of a name keeps it out of its spellings.
* `break_not_mem_snakeCase`: the words of a name in lower case never have a slash or another break.
* `Unmarked`: a name that can be a part of an address.
-/

namespace EdmCommands
namespace Text

/-- The characters that tell the parts of an address apart. -/
def IsMark (c : Char) : Prop :=
  c = '/' ∨ c = '{' ∨ c = '}'

instance (c : Char) : Decidable (IsMark c) :=
  inferInstanceAs (Decidable (c = '/' ∨ c = '{' ∨ c = '}'))

def Unmarked (s : String) : Prop :=
  ∀ c ∈ s.toList, ¬ IsMark c

instance (s : String) : Decidable (Unmarked s) :=
  List.decidableBAll (fun c => ¬ IsMark c) s.toList

/-- Letters, digits and underscores, a letter first. -/
def IsIdentifier (s : String) : Prop :=
  s.toList.head?.any Char.isAlpha = true ∧ ∀ c ∈ s.toList, c.isAlphanum = true ∨ c = '_'

instance (s : String) : Decidable (IsIdentifier s) :=
  have := List.decidableBAll (fun c : Char => c.isAlphanum = true ∨ c = '_') s.toList
  inferInstanceAs (Decidable (_ ∧ _))

/-- A code that is none of a character stands for the first one. -/
theorem toNat_ofNat {code : Nat} (h : 0 < (Char.ofNat code).toNat) :
    (Char.ofNat code).toNat = code := by
  by_cases hvalid : code.isValidChar
  · rw [Char.ofNat, dif_pos hvalid]
    rfl
  · have hzero : Char.ofNat code = Char.ofNat 0 := dif_neg hvalid
    rw [hzero] at h
    exact absurd h (by decide)

theorem ofNat_ne {code : Nat} {x : Char} (hx : 0 < x.toNat) (h : code ≠ x.toNat) :
    Char.ofNat code ≠ x := by
  rintro rfl
  exact h (toNat_ofNat hx).symm

/-! ## Case -/

/-- The image of a character is an entry of the first table, or shifted by one of the second, or the
character itself, which the second table does not have then. -/
theorem caseImage_cases (several : List CaseTable.Several) (single : List CaseTable.Shift)
    (c : Char) :
    (∃ entry ∈ several, entry.code = c.toNat ∧
      caseImage several single c = entry.image.map Char.ofNat) ∨
    (∃ entry ∈ single, (entry.first ≤ c.toNat ∧ c.toNat ≤ entry.last) ∧
      caseImage several single c = [Char.ofNat (c.toNat + entry.shift).toNat]) ∨
    (∀ entry ∈ single, entry.toSpan.covers c.toNat = false) ∧ caseImage several single c = [c] := by
  unfold caseImage
  split
  · rename_i entry hentry
    have hcode := List.find?_some hentry
    exact .inl ⟨entry, List.mem_of_find?_eq_some hentry, by simpa using hcode, rfl⟩
  split
  · rename_i entry hentry
    have hcovers := List.find?_some hentry
    simp only [CaseTable.Span.covers, Bool.and_eq_true, decide_eq_true_eq] at hcovers
    exact .inr (.inl ⟨entry, List.mem_of_find?_eq_some hentry, hcovers.1, rfl⟩)
  · rename_i hnone
    refine .inr (.inr ⟨fun entry hentry => ?_, rfl⟩)
    simpa using List.find?_eq_none.1 hnone entry hentry

/-- A character is not in the image of another one where it is in neither table of images. -/
theorem caseImage_ne {several : List CaseTable.Several} {single : List CaseTable.Shift}
    {c d x : Char} (hx : 0 < x.toNat)
    (hseveral : ∀ entry ∈ several, ∀ code ∈ entry.image, code ≠ x.toNat)
    (hsingle : ∀ entry ∈ single, (entry.last : Int) + entry.shift < x.toNat ∨
      (x.toNat : Int) < entry.first + entry.shift)
    (h : c ≠ x) (hd : d ∈ caseImage several single c) : d ≠ x := by
  rcases caseImage_cases several single c with
    ⟨entry, hentry, -, himage⟩ | ⟨entry, hentry, hcovers, himage⟩ | ⟨-, himage⟩
  · rw [himage] at hd
    obtain ⟨code, hmem, rfl⟩ := List.mem_map.1 hd
    exact ofNat_ne hx (hseveral entry hentry code hmem)
  · rw [himage] at hd
    rw [List.mem_singleton.1 hd]
    have hapart := hsingle entry hentry
    exact ofNat_ne hx (by omega)
  · rw [himage] at hd
    rw [List.mem_singleton.1 hd]
    exact h

theorem toUpperSeveral_unmarked :
    ∀ entry ∈ CaseTable.toUpperSeveral, ∀ code ∈ entry.image,
      code ≠ 0x2F ∧ code ≠ 0x7B ∧ code ≠ 0x7D := by
  decide +kernel

/-- The shifts lead from one alphabet to another, and the marks are in none. -/
theorem toUpper_unmarked :
    ∀ entry ∈ CaseTable.toUpper,
      (0x2F < (entry.first : Int) + entry.shift ∧ (entry.last : Int) + entry.shift < 0x7B) ∨
        0x7D < (entry.first : Int) + entry.shift := by
  decide +kernel

theorem upperChars_ne {c d x : Char} (hx : IsMark x) (h : c ≠ x) (hd : d ∈ upperChars c) :
    d ≠ x := by
  have hcode : x.toNat = 0x2F ∨ x.toNat = 0x7B ∨ x.toNat = 0x7D := by
    rcases hx with rfl | rfl | rfl <;> decide
  refine caseImage_ne (by omega) (fun entry hentry code hmem => ?_) (fun entry hentry => ?_) h hd
  · have := toUpperSeveral_unmarked entry hentry code hmem
    omega
  · have := toUpper_unmarked entry hentry
    omega

theorem toLowerSeveral_letters :
    ∀ entry ∈ CaseTable.toLowerSeveral, ∀ code ∈ entry.image, 0x61 ≤ code := by
  decide +kernel

theorem toLower_letters :
    ∀ entry ∈ CaseTable.toLower, 0x61 ≤ (entry.first : Int) + entry.shift := by
  decide +kernel

/-- What stands before the letters in the code is not the lower case of anything else. -/
theorem lowerChars_ne {c d x : Char} (hx : 0 < x.toNat ∧ x.toNat < 0x61) (h : c ≠ x)
    (hd : d ∈ lowerChars c) : d ≠ x := by
  refine caseImage_ne hx.1 (fun entry hentry code hmem => ?_) (fun entry hentry => ?_) h hd
  · have := toLowerSeveral_letters entry hentry code hmem
    omega
  · have := toLower_letters entry hentry
    omega

/-! ## Spellings -/

section Spellings

variable {P : Char → Prop} {s : String}

/-- What upper case keeps, PascalCase keeps. -/
theorem forall_mem_pascalChars (upper : ∀ c, P c → ∀ d ∈ upperChars c, P d) {cs : List Char}
    (h : ∀ c ∈ cs, P c) (starting : Bool) : ∀ c ∈ Naming.pascalChars starting cs, P c := by
  induction cs generalizing starting with
  | nil => simp [Naming.pascalChars]
  | cons c rest ih =>
    rw [List.forall_mem_cons] at h
    unfold Naming.pascalChars
    split
    · exact ih h.2 true
    split
    · rw [List.forall_mem_append]
      exact ⟨upper c h.1, ih h.2 false⟩
    · rw [List.forall_mem_cons]
      exact ⟨h.1, ih h.2 false⟩

/-- The singular has no new characters, but for a final y. -/
theorem forall_mem_singular (final : P 'y') (h : ∀ c ∈ s.toList, P c) :
    ∀ c ∈ (Naming.singular s).toList, P c := by
  have front : ∀ n, ∀ c ∈ dropEnd n s.toList, P c :=
    fun n c hc => h c (List.mem_of_mem_take hc)
  unfold Naming.singular
  dsimp only
  split
  · rw [String.toList_ofList, List.forall_mem_append]
    exact ⟨front 3, by simpa using final⟩
  split
  · rw [String.toList_ofList]
    exact front 2
  split
  · rw [String.toList_ofList]
    exact front 1
  · exact h

theorem mem_of_mem_collapseUnderscores {cs : List Char} {c : Char}
    (h : c ∈ Naming.collapseUnderscores cs) : c ∈ cs := by
  induction cs with
  | nil => exact h
  | cons a rest ih =>
    unfold Naming.collapseUnderscores at h ih
    rw [List.foldr_cons] at h
    split at h
    · exact List.mem_cons_of_mem _ (ih h)
    · rw [List.mem_cons] at h ⊢
      exact h.imp_right ih

theorem mem_of_mem_trimWhile {p : Char → Bool} {c : Char} (h : c ∈ (trimWhile p s).toList) :
    c ∈ s.toList :=
  (isInfix_trimWhile p s).subset h

/-- The characters of the words in lower case, where `Q` holds of those of the name. -/
theorem forall_mem_snakeChars {Q : Char → Prop} (underscore : P '_')
    (upper : ∀ c, Q c → isUppercase c = true → ∀ d ∈ lowerChars c, P d)
    (kept : ∀ c, Q c → isUppercase c = false → Naming.isSnakeBreak c = false → P c)
    {cs : List Char} (h : ∀ c ∈ cs, Q c) (before last : Option Char) :
    ∀ c ∈ Naming.snakeChars before last cs, P c := by
  induction cs generalizing before last with
  | nil => simp [Naming.snakeChars]
  | cons c rest ih =>
    rw [List.forall_mem_cons] at h
    unfold Naming.snakeChars
    split
    · rename_i hupper
      rw [List.forall_mem_append]
      refine ⟨?_, ih h.2 _ _⟩
      split
      · rw [List.forall_mem_cons]
        exact ⟨underscore, upper c h.1 hupper⟩
      · exact upper c h.1 hupper
    rename_i hupper
    split
    · split
      · rw [List.forall_mem_cons]
        exact ⟨underscore, ih h.2 _ _⟩
      · exact ih h.2 _ _
    · rename_i hbreak
      rw [List.forall_mem_cons]
      exact ⟨kept c h.1 (by simpa using hupper) (by simpa using hbreak), ih h.2 _ _⟩

theorem forall_mem_snakeCase {Q : Char → Prop} (underscore : P '_')
    (upper : ∀ c, Q c → isUppercase c = true → ∀ d ∈ lowerChars c, P d)
    (kept : ∀ c, Q c → isUppercase c = false → Naming.isSnakeBreak c = false → P c)
    (h : ∀ c ∈ s.toList, Q c) : ∀ c ∈ (Naming.snakeCase s).toList, P c := by
  intro c hc
  have hc := mem_of_mem_trimWhile hc
  rw [String.toList_ofList] at hc
  exact forall_mem_snakeChars underscore upper kept h none none c
    (mem_of_mem_collapseUnderscores hc)

theorem snakeBreaks_caseless : ∀ x ∈ ['-', ' ', '.', '/'],
    (0 < x.toNat ∧ x.toNat < 0x61) ∧ isUppercase x = false ∧ Naming.isSnakeBreak x = true := by
  simp only [List.mem_cons, List.not_mem_nil, or_false, forall_eq_or_imp, forall_eq]
  decide +kernel

/-- Words in lower case have none of the breaks that the name has between its words. -/
theorem break_not_mem_snakeCase (s : String) :
    ∀ x ∈ ['-', ' ', '.', '/'], x ∉ (Naming.snakeCase s).toList := by
  intro x hx hmem
  obtain ⟨hcode, hcaseless, hbreak⟩ := snakeBreaks_caseless x hx
  have hunderscore : '_' ≠ x := by
    rintro rfl
    revert hx
    decide
  refine forall_mem_snakeCase (P := fun c => c ≠ x) (Q := fun _ => True) hunderscore ?_ ?_
    (fun _ _ => trivial) x hmem rfl
  · intro c _ hupper d hd
    refine lowerChars_ne hcode ?_ hd
    rintro rfl
    rw [hupper] at hcaseless
    cases hcaseless
  · rintro c _ _ hkept rfl
    rw [hbreak] at hkept
    cases hkept

theorem slash_not_mem_snakeCase (s : String) : '/' ∉ (Naming.snakeCase s).toList :=
  break_not_mem_snakeCase s '/' (by decide)

/-- Words in lower case have no character from before the letters that the name does not have, but
for underscores. -/
theorem not_mem_snakeCase {x : Char} (hx : 0 < x.toNat ∧ x.toNat < 0x61) (hunderscore : x ≠ '_')
    (h : x ∉ s.toList) : x ∉ (Naming.snakeCase s).toList := by
  intro hmem
  refine forall_mem_snakeCase (P := fun c => c ≠ x) (Q := fun c => c ≠ x) hunderscore.symm ?_ ?_
    ?_ x hmem rfl
  · intro c hc _ d hd
    exact lowerChars_ne hx hc hd
  · intro c hc _ _
    exact hc
  · rintro c hc rfl
    exact h hc

end Spellings

namespace Unmarked

variable {s t : String}

theorem append (hs : Unmarked s) (ht : Unmarked t) : Unmarked (s ++ t) := by
  intro c hc
  rw [String.toList_append, List.mem_append] at hc
  exact hc.elim (hs c) (ht c)

theorem of_isIdentifier (h : IsIdentifier s) : Unmarked s := by
  intro c hc hmark
  rcases h.2 c hc with halphanum | rfl
  · rcases hmark with rfl | rfl | rfl <;> revert halphanum <;> decide
  · revert hmark
    decide

theorem of_alphanum (h : ∀ c ∈ s.toList, c.isAlphanum = true) : Unmarked s := by
  intro c hc hmark
  have halphanum := h c hc
  rcases hmark with rfl | rfl | rfl <;> revert halphanum <;> decide

theorem pascalCase (h : Unmarked s) : Unmarked (Naming.pascalCase s) := by
  unfold Unmarked Naming.pascalCase
  rw [String.toList_ofList]
  refine forall_mem_pascalChars (fun c hc d hd hmark => ?_) h true
  have hne : c ≠ d := by
    rintro rfl
    exact hc hmark
  exact upperChars_ne hmark hne hd rfl

theorem singular (h : Unmarked s) : Unmarked (Naming.singular s) :=
  forall_mem_singular (by decide) h

end Unmarked
end Text
end EdmCommands
