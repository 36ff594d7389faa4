import EdmCommands.Proofs.Text.Spelling
import Mathlib.Data.List.Induction

/-!
# EdmCommands.Proofs.Naming.Singular

The ending of a plural is found in the lower case of a name and cut off the name itself. The two
may differ in length, but not in the letters of the endings, which are one byte each.

* `LowerCase`: a text in lower case, with either form that a sigma can have.
* `LowerCase.suffix_iff`: an ending of the lower case is an ending of the text, in other letters.
* `pluralCut`, `singularBytes?`: the singular as a cut at an offset in bytes.
* `exists_of_pluralCut`: the offset lies between two characters.
* `singular_betweenCharacters`: the cut never fails, and what it leaves of the name.
-/

namespace EdmCommands
namespace Naming

open Text

/-! ## Lower case -/

/-- What a character can become in a text in lower case: a capital sigma has a form of its own at
the end of a word. -/
inductive LowersTo : Char → List Char → Prop where
  | mapped (c : Char) : LowersTo c (lowerChars c)
  | finalSigma : LowersTo 'Σ' ['ς']

/-- The second text is the first one in lower case, character by character. -/
inductive LowerCase : List Char → List Char → Prop where
  | nil : LowerCase [] []
  | concat {cs lower part : List Char} {c : Char} : LowerCase cs lower → LowersTo c part →
      LowerCase (cs ++ [c]) (lower ++ part)

/-- The letters of the endings that tell a plural, or that it is none. -/
def endingLetters : List Char :=
  ['c', 'e', 'h', 'i', 's', 'u', 'x']

theorem code_of_endingLetter : ∀ a ∈ endingLetters, 0 < a.toNat ∧ a.toNat < 0x80 := by
  simp only [endingLetters, List.mem_cons, List.not_mem_nil, or_false, forall_eq_or_imp, forall_eq]
  decide

theorem toLowerSeveral_last : ∀ entry ∈ CaseTable.toLowerSeveral,
    ∃ code ∈ entry.image.getLast?, 0x80 ≤ code := by
  decide +kernel

/-- A Kelvin sign becomes a k, but nothing beyond the first 128 characters becomes a letter of the
endings. -/
theorem toLower_apart : ∀ entry ∈ CaseTable.toLower, entry.last < 0x80 ∨
    ∀ code ∈ endingLetters.map Char.toNat, (entry.last : Int) + entry.shift < code ∨
      (code : Int) < entry.first + entry.shift := by
  decide +kernel

theorem exists_of_lowerChars (c : Char) : ∃ front a, lowerChars c = front ++ [a] ∧
    (a ∈ endingLetters → front = [] ∧ c.toNat < 0x80) := by
  rcases caseImage_cases CaseTable.toLowerSeveral CaseTable.toLower c with
    ⟨entry, hentry, -, himage⟩ | ⟨entry, hentry, hcovers, himage⟩ | ⟨-, himage⟩
  -- the dotted I, which ends in the mark for its dot
  · obtain ⟨code, hlast, hcode⟩ := toLowerSeveral_last entry hentry
    obtain ⟨front, hfront⟩ := List.getLast?_eq_some_iff.1 hlast
    refine ⟨front.map Char.ofNat, Char.ofNat code, himage.trans (by simp [hfront]), fun ha => ?_⟩
    obtain ⟨hpos, hlt⟩ := code_of_endingLetter _ ha
    have hsame := toNat_ofNat hpos
    omega
  · refine ⟨[], _, himage, fun ha => ⟨rfl, ?_⟩⟩
    rcases toLower_apart entry hentry with hlast | hapart
    · omega
    · have hpos := (code_of_endingLetter _ ha).1
      have hsame := toNat_ofNat hpos
      have hletter := hapart _ (List.mem_map_of_mem ha)
      omega
  · exact ⟨[], c, himage, fun ha => ⟨rfl, (code_of_endingLetter c ha).2⟩⟩

theorem LowersTo.exists_last {c : Char} {part : List Char} (h : LowersTo c part) :
    ∃ front a, part = front ++ [a] ∧
      (a ∈ endingLetters → front = [] ∧ lowerChars c = [a] ∧ c.toNat < 0x80) := by
  cases h with
  | mapped =>
    obtain ⟨front, a, hpart, hletter⟩ := exists_of_lowerChars c
    refine ⟨front, a, hpart, fun ha => ?_⟩
    obtain ⟨rfl, hascii⟩ := hletter ha
    exact ⟨rfl, hpart, hascii⟩
  | finalSigma => exact ⟨[], 'ς', rfl, fun ha => absurd ha (by decide)⟩

/-- The text ends in characters of the first 128 that are `tail` in lower case, one for one. -/
def EndsIn (cs tail : List Char) : Prop :=
  ∃ front back, cs = front ++ back ∧ back.flatMap lowerChars = tail ∧
    back.length = tail.length ∧ ∀ c ∈ back, c.toNat < 0x80

namespace LowerCase

variable {cs lower tail front back : List Char}

theorem append (h : LowerCase cs lower) (back : List Char) :
    LowerCase (cs ++ back) (lower ++ back.flatMap lowerChars) := by
  induction back using List.reverseRecOn with
  | nil => simpa using h
  | append_singleton back c ih =>
    have hc := ih.concat (.mapped c)
    simpa using hc

theorem flatMap (cs : List Char) : LowerCase cs (cs.flatMap lowerChars) :=
  LowerCase.nil.append cs

theorem of_concat {a : Char} (h : LowerCase cs (lower ++ [a])) (ha : a ∈ endingLetters) :
    ∃ front c, cs = front ++ [c] ∧ LowerCase front lower ∧ lowerChars c = [a] ∧
      c.toNat < 0x80 := by
  generalize hall : lower ++ [a] = all at h
  cases h with
  | nil => simp at hall
  | @concat front before part c hfront hpart =>
    obtain ⟨start, b, rfl, hletter⟩ := hpart.exists_last
    rw [← List.append_assoc] at hall
    obtain ⟨hbefore, hb⟩ := List.append_inj' hall rfl
    obtain rfl : a = b := List.singleton_inj.1 hb
    obtain ⟨rfl, hlower, hascii⟩ := hletter ha
    rw [List.append_nil] at hbefore
    exact ⟨front, c, rfl, hbefore ▸ hfront, hlower, hascii⟩

theorem endsIn (h : LowerCase cs (lower ++ tail)) (htail : tail ⊆ endingLetters) :
    EndsIn cs tail := by
  induction tail using List.reverseRecOn generalizing cs with
  | nil => exact ⟨cs, [], by simp⟩
  | append_singleton tail a ih =>
    obtain ⟨htail, ha⟩ := List.append_subset.1 htail
    rw [← List.append_assoc] at h
    obtain ⟨rest, c, rfl, hrest, hlower, hascii⟩ := h.of_concat (ha List.mem_cons_self)
    obtain ⟨front, back, rfl, hback, hlength, hbytes⟩ := ih hrest htail
    refine ⟨front, back ++ [c], List.append_assoc .., ?_, ?_, ?_⟩
    · simp [hback, hlower]
    · simp [hlength]
    · rw [List.forall_mem_append, List.forall_mem_singleton]
      exact ⟨hbytes, hascii⟩

/-- Characters of the first 128 have one lower case only. -/
theorem suffix_of_ascii (h : LowerCase (front ++ back) lower)
    (hback : ∀ c ∈ back, c.toNat < 0x80) : back.flatMap lowerChars <:+ lower := by
  induction back using List.reverseRecOn generalizing lower with
  | nil => exact List.nil_suffix
  | append_singleton back c ih =>
    rw [List.forall_mem_append, List.forall_mem_singleton] at hback
    generalize hall : front ++ (back ++ [c]) = all at h
    cases h with
    | nil => simp at hall
    | @concat cs before part d hfront hpart =>
      rw [← List.append_assoc] at hall
      obtain ⟨rfl, hd⟩ := List.append_inj' hall rfl
      obtain rfl : c = d := List.singleton_inj.1 hd
      have hlower : part = lowerChars c := by
        cases hpart with
        | mapped => rfl
        | finalSigma => exact absurd hback.2 (by decide)
      rw [hlower, List.flatMap_append, List.flatMap_singleton, List.suffix_append_self_iff]
      exact ih hfront hback.1

theorem suffix_iff (h : LowerCase cs lower) (htail : tail ⊆ endingLetters) :
    tail <:+ lower ↔ EndsIn cs tail := by
  constructor
  · rintro ⟨start, rfl⟩
    exact h.endsIn htail
  · rintro ⟨front, back, rfl, rfl, -, hbytes⟩
    exact h.suffix_of_ascii hbytes

end LowerCase

/-! ## Cuts -/

/-- How many bytes go from the end of a plural, and what is put there. -/
structure Cut where
  bytes : Nat
  instead : String
deriving DecidableEq

/-- The cut for a name of `size` bytes that is `lower` in lower case. -/
def pluralCut (lower : List Char) (size : Nat) : Option Cut :=
  let ends := fun (tail : String) => tail.toList.isSuffixOf lower
  if ends "ies" && size > 3 then some ⟨3, "y"⟩
  else if (ends "sses" || ends "xes" || ends "ches") && size > 3 then some ⟨2, ""⟩
  else if ends "s" && !ends "ss" && !ends "us" && size > 1 then some ⟨1, ""⟩
  else none

/-- What the cut makes of a text. There is nothing where it would go through a character. -/
def Cut.result? (cut : Cut) (s : String) : Option String :=
  let offset : String.Pos.Raw := ⟨s.utf8ByteSize - cut.bytes⟩
  if h : offset.IsValid s then some ((s.sliceTo (s.pos offset h)).copy ++ cut.instead) else none

/-- The singular of a name that is `lower` in lower case, by offsets in bytes. -/
def singularBytes? (lower : List Char) (s : String) : Option String :=
  match pluralCut lower s.utf8ByteSize with
  | none => some s
  | some cut => cut.result? s

/-- What a singular leaves of a name: all of it, all but one or two characters, or a y in place of
the last three. -/
inductive Shortened : String → String → Prop where
  | whole (s : String) : Shortened s s
  | without (front back : String) : back.length = 1 ∨ back.length = 2 →
      Shortened (front ++ back) front
  | withY (front back : String) : back.length = 3 → Shortened (front ++ back) (front ++ "y")

theorem singular_eq (s : String) :
    singular s = match pluralCut (s.toList.flatMap lowerChars) s.utf8ByteSize with
      | none => s
      | some cut => String.ofList (dropEnd cut.bytes s.toList) ++ cut.instead := by
  unfold singular pluralCut
  dsimp only
  split
  · exact String.ofList_append
  split
  · exact String.append_empty.symm
  split
  · exact String.append_empty.symm
  · rfl

theorem pluralCut_congr {cs lower lower' : List Char} (h : LowerCase cs lower)
    (h' : LowerCase cs lower') (size : Nat) : pluralCut lower size = pluralCut lower' size := by
  have hends : ∀ tail : String, tail.toList ⊆ endingLetters →
      tail.toList.isSuffixOf lower = tail.toList.isSuffixOf lower' := by
    intro tail htail
    rw [Bool.eq_iff_iff, List.isSuffixOf_iff_suffix, List.isSuffixOf_iff_suffix,
      h.suffix_iff htail, h'.suffix_iff htail]
  simp only [pluralCut, hends "ies" (by decide), hends "sses" (by decide),
    hends "xes" (by decide), hends "ches" (by decide), hends "s" (by decide),
    hends "ss" (by decide), hends "us" (by decide)]

/-- What a cut takes off is an ending of the lower case, and never the whole name. -/
theorem of_pluralCut {lower : List Char} {size : Nat} {cut : Cut}
    (h : pluralCut lower size = some cut) :
    cut.bytes < size ∧ (cut = ⟨3, "y"⟩ ∨ cut = ⟨2, ""⟩ ∨ cut = ⟨1, ""⟩) ∧
      ∃ tail, tail <:+ lower ∧ tail.length = cut.bytes ∧ tail ⊆ endingLetters := by
  unfold pluralCut at h
  simp only [gt_iff_lt, Bool.and_eq_true, Bool.or_eq_true, decide_eq_true_eq,
    List.isSuffixOf_iff_suffix] at h
  split at h
  · rename_i hends
    cases h
    exact ⟨hends.2, .inl rfl, "ies".toList, hends.1, by decide, by decide⟩
  split at h
  · rename_i hends
    cases h
    have htail : ['e', 's'] <:+ lower := by
      rcases hends.1 with (hsses | hxes) | hches
      · exact List.IsSuffix.trans (by decide) hsses
      · exact List.IsSuffix.trans (by decide) hxes
      · exact List.IsSuffix.trans (by decide) hches
    exact ⟨Nat.lt_of_succ_lt hends.2, .inr (.inl rfl), _, htail, rfl, by decide⟩
  split at h
  · rename_i hends
    cases h
    exact ⟨hends.2, .inr (.inr rfl), "s".toList, hends.1.1.1, by decide, by decide⟩
  · cases h

theorem utf8ByteSize_of_ascii {cs : List Char} (h : ∀ c ∈ cs, c.toNat < 0x80) :
    (String.ofList cs).utf8ByteSize = cs.length := by
  induction cs with
  | nil => rfl
  | cons c rest ih =>
    rw [List.forall_mem_cons] at h
    have hone : c.utf8Size = 1 := by
      rw [Char.utf8Size_eq_one_iff, UInt32.le_iff_toNat_le]
      exact Nat.le_of_lt_succ h.1
    rw [String.ofList_cons, String.utf8ByteSize_append, String.utf8ByteSize_singleton, hone, ih h.2,
      List.length_cons, Nat.add_comm]

/-- What a cut takes off are whole characters, as many as it counts bytes. -/
theorem exists_of_pluralCut {s : String} {lower : List Char} {cut : Cut}
    (hlower : LowerCase s.toList lower) (h : pluralCut lower s.utf8ByteSize = some cut) :
    ∃ front back, s = front ++ back ∧ front ≠ "" ∧ back.length = cut.bytes ∧
      back.utf8ByteSize = cut.bytes := by
  obtain ⟨hsize, -, tail, hsuffix, hlength, hletters⟩ := of_pluralCut h
  obtain ⟨front, back, hchars, -, hback, hascii⟩ := (hlower.suffix_iff hletters).1 hsuffix
  have hs : s = String.ofList front ++ String.ofList back := by
    rw [← String.ofList_append, ← hchars, String.ofList_toList]
  have hbytes : (String.ofList back).utf8ByteSize = cut.bytes := by
    rw [utf8ByteSize_of_ascii hascii, hback, hlength]
  refine ⟨String.ofList front, String.ofList back, hs, ?_, ?_, hbytes⟩
  · intro hempty
    rw [hs, hempty, String.empty_append, hbytes] at hsize
    omega
  · rw [String.length_ofList, hback, hlength]

theorem offset_cut {front back : String} {cut : Cut} (h : back.utf8ByteSize = cut.bytes) :
    (⟨(front ++ back).utf8ByteSize - cut.bytes⟩ : String.Pos.Raw) = front.rawEndPos := by
  rw [String.utf8ByteSize_append, h, Nat.add_sub_cancel]
  rfl

theorem isValid_cut {front back : String} {cut : Cut} (h : back.utf8ByteSize = cut.bytes) :
    (⟨(front ++ back).utf8ByteSize - cut.bytes⟩ : String.Pos.Raw).IsValid (front ++ back) :=
  String.Pos.Raw.isValid_iff_exists_append.2 ⟨front, back, rfl, offset_cut h⟩

theorem result?_append {front back : String} {cut : Cut} (h : back.utf8ByteSize = cut.bytes) :
    cut.result? (front ++ back) = some (front ++ cut.instead) := by
  have hsplits : ((front ++ back).pos _ (isValid_cut h)).Splits front back :=
    ⟨rfl, offset_cut h⟩
  rw [Cut.result?, dif_pos (isValid_cut h), hsplits.copy_sliceTo_eq]

theorem singular_append {front back : String} {cut : Cut}
    (h : pluralCut ((front ++ back).toList.flatMap lowerChars) (front ++ back).utf8ByteSize =
      some cut) (hlength : back.length = cut.bytes) :
    singular (front ++ back) = front ++ cut.instead := by
  have hdrop : dropEnd cut.bytes (front ++ back).toList = front.toList := by
    rw [dropEnd, String.toList_append, List.length_append, String.length_toList,
      String.length_toList, ← hlength, Nat.add_sub_cancel]
    exact List.take_left' (String.length_toList ..)
  simp only [singular_eq, h, hdrop, String.ofList_toList]

/-- Whichever way the sigmas of a name are written in lower case, the singular of the name is a cut
between two of its characters, in front of its end. What the cut leaves is the name itself, the name
without one or two characters, or the name with a y in place of three, and it is something. -/
theorem singular_betweenCharacters (s : String) (lower : List Char)
    (h : LowerCase s.toList lower) :
    (∀ cut, pluralCut lower s.utf8ByteSize = some cut → cut.bytes < s.utf8ByteSize ∧
      (⟨s.utf8ByteSize - cut.bytes⟩ : String.Pos.Raw).IsValid s) ∧
    singularBytes? lower s = some (singular s) ∧
    Shortened s (singular s) ∧
    (s ≠ "" → singular s ≠ "") := by
  have hmapped := pluralCut_congr (.flatMap s.toList) h s.utf8ByteSize
  cases hcut : pluralCut lower s.utf8ByteSize with
  | none =>
    have hsame : singular s = s := by simp only [singular_eq, hmapped, hcut]
    rw [hsame, singularBytes?, hcut]
    exact ⟨nofun, rfl, .whole s, id⟩
  | some cut =>
    obtain ⟨hsize, hkind, -⟩ := of_pluralCut hcut
    obtain ⟨front, back, rfl, hfront, hlength, hbytes⟩ := exists_of_pluralCut h hcut
    have hsingular := singular_append (hmapped.trans hcut) hlength
    rw [hsingular, singularBytes?, hcut]
    refine ⟨?_, result?_append hbytes, ?_, ?_⟩
    · rintro _ ⟨⟩
      exact ⟨hsize, isValid_cut hbytes⟩
    · rcases hkind with rfl | rfl | rfl
      · exact .withY front back hlength
      · simpa using Shortened.without front back (.inr hlength)
      · simpa using Shortened.without front back (.inl hlength)
    · intro _ hempty
      exact hfront (String.append_eq_empty_iff.1 hempty).1

/-- The name has a byte less than its lower case, which writes the dot of the I as a mark of its
own. -/
theorem singular_betweenCharacters_boxes :
    LowerCase "ΟΔΟΣ-İBoxes".toList "οδος-i\u0307boxes".toList ∧
      (⟨14⟩ : String.Pos.Raw).IsValid "ΟΔΟΣ-İBoxes" ∧
      singularBytes? "οδος-i\u0307boxes".toList "ΟΔΟΣ-İBoxes" = some "ΟΔΟΣ-İBox" := by
  have hstart := (LowerCase.flatMap "ΟΔΟ".toList).concat .finalSigma
  have hlower : LowerCase "ΟΔΟΣ-İBoxes".toList "οδος-i\u0307boxes".toList := by
    have hall := hstart.append "-İBoxes".toList
    rwa [show "ΟΔΟ".toList ++ ['Σ'] ++ "-İBoxes".toList = "ΟΔΟΣ-İBoxes".toList by decide +kernel,
      show "ΟΔΟ".toList.flatMap lowerChars ++ ['ς'] ++ "-İBoxes".toList.flatMap lowerChars =
        "οδος-i\u0307boxes".toList by decide +kernel] at hall
  obtain ⟨hcut, hbytes, -⟩ := singular_betweenCharacters _ _ hlower
  have hsingular : singular "ΟΔΟΣ-İBoxes" = "ΟΔΟΣ-İBox" := by decide +kernel
  rw [hsingular] at hbytes
  exact ⟨hlower, (hcut ⟨2, ""⟩ (by decide +kernel)).2, hbytes⟩

end Naming
end EdmCommands
