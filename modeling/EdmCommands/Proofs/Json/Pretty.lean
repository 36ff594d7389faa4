import EdmCommands.Command.Codec
import EdmCommands.Json.Reader
import EdmCommands.Proofs.Text.Trim
import Mathlib.Tactic.Common

/-!
# EdmCommands.Proofs.Json.Pretty

The reader takes the indented text of a value back to the tree of the value.

* `Json.toDoc`: the tree of a value.
* `Reader.textBody_flatMap`: what a text between quotes reads as.
* `Reader.value_prettyChars`: a value behind its text, whatever stands behind that.
* `Reader.document_pretty`: a whole text.
* `Reader.cut_eq_self`: a tree of few levels is not cut.
-/

namespace EdmCommands
namespace Json

mutual

def toDoc : Json → Doc
  | .null => .null
  | .bool value => .bool value
  | .int value => .integer value
  | .text value => .text value
  | .arr items => .seq (toDocs items)
  | .obj fields => .map (toEntries fields)

def toDocs : List Json → List Doc
  | [] => []
  | item :: rest => item.toDoc :: toDocs rest

def toEntries : List (String × Json) → List (Doc × Doc)
  | [] => []
  | (key, value) :: rest => (.text key, value.toDoc) :: toEntries rest

end

mutual

def isNumberless : Json → Bool
  | .int _ => false
  | .arr items => allNumberless items
  | .obj fields => allFieldsNumberless fields
  | _ => true

def allNumberless : List Json → Bool
  | [] => true
  | item :: rest => item.isNumberless && allNumberless rest

def allFieldsNumberless : List (String × Json) → Bool
  | [] => true
  | (_, value) :: rest => value.isNumberless && allFieldsNumberless rest

end

namespace Reader

/-! ## Texts -/

theorem hex4?_control : ∀ n < 0x20,
    hex4? '0' '0' (hexDigit (n / 16)) (hexDigit (n % 16)) = some n := by
  decide

theorem textBody_quote (rest : List Char) : textBody ('"' :: rest) = some (some [], rest) := by
  rw [textBody]

theorem textBody_escape {c e : Char} (hc : escape? c = some e) (rest : List Char) :
    textBody ('\\' :: c :: rest) =
      (textBody rest).map fun (body, after) => (body.map (e :: ·), after) := by
  have hu : c ≠ 'u' := by
    rintro rfl
    cases hc
  rw [textBody.eq_def]
  simp [hu, hc]

theorem textBody_plain {c : Char} (hquote : c ≠ '"') (hslash : c ≠ '\\') (hc : 0x20 ≤ c.toNat)
    (rest : List Char) : textBody (c :: rest) =
      (textBody rest).map fun (body, after) => (body.map (c :: ·), after) := by
  have hcontrol : ¬ c.toNat < 0x20 := by omega
  rw [textBody.eq_def]
  simp [hslash, hcontrol]

/-- A code of four digits, where another one behind it is spelled right. -/
theorem textBody_unicode {a b c d : Char} {code : Nat} (hcode : hex4? a b c d = some code)
    (hlow : code < 0xD800) {rest : List Char}
    (hrest : ∀ e f g h tail, rest = '\\' :: 'u' :: e :: f :: g :: h :: tail →
      (hex4? e f g h).isSome = true) :
    textBody ('\\' :: 'u' :: a :: b :: c :: d :: rest) =
      (textBody rest).map fun (body, after) => (body.map (Char.ofNat code :: ·), after) := by
  have hhigh : isHighSurrogate code = false := by
    simp only [isHighSurrogate, Bool.and_eq_false_iff, decide_eq_false_iff_not]
    omega
  have hsecond : isLowSurrogate code = false := by
    simp only [isLowSurrogate, Bool.and_eq_false_iff, decide_eq_false_iff_not]
    omega
  rw [textBody.eq_def]
  split
  case h_3 heq =>
    simp only [List.cons.injEq, true_and] at heq
    obtain ⟨rfl, rfl, rfl, rfl, rfl⟩ := heq
    obtain ⟨low, hother⟩ := Option.isSome_iff_exists.1 (hrest _ _ _ _ _ rfl)
    simp [hcode, hother, hhigh, hsecond]
  case h_4 heq =>
    simp only [List.cons.injEq, true_and] at heq
    obtain ⟨rfl, rfl, rfl, rfl, rfl⟩ := heq
    simp [hcode, hhigh, hsecond]
  case h_5 other heq =>
    simp only [List.cons.injEq, true_and] at heq
    exact absurd heq.2.symm (other _ _ _ _ _ heq.1.symm)
  case h_6 other heq =>
    simp only [List.cons.injEq] at heq
    exact absurd heq.2.symm (other _ _ heq.1.symm)
  all_goals simp at *

/-- A character is written as a letter behind a backslash, by its code, or as itself. -/
theorem charText_cases (c : Char) :
    (∃ e, charText c = ['\\', e] ∧ escape? e = some c) ∨
      (charText c = ['\\', 'u', '0', '0', hexDigit (c.toNat / 16), hexDigit (c.toNat % 16)] ∧
        c.toNat < 0x20) ∨
      charText c = [c] ∧ c ≠ '"' ∧ c ≠ '\\' ∧ 0x20 ≤ c.toNat := by
  unfold charText
  iterate 7
    split
    · rename_i hc
      rw [beq_iff_eq] at hc
      subst hc
      exact .inl ⟨_, rfl, rfl⟩
  split
  · exact .inr (.inl ⟨rfl, by assumption⟩)
  · simp_all

/-- A backslash and a u in a written text are followed by four digits. -/
theorem isSome_hex4?_of_flatMap {cs rest tail : List Char} {e f g h : Char}
    (heq : cs.flatMap charText ++ '"' :: rest = '\\' :: 'u' :: e :: f :: g :: h :: tail) :
    (hex4? e f g h).isSome = true := by
  cases cs with
  | nil => simp at heq
  | cons c cs =>
    rw [List.flatMap_cons, List.append_assoc] at heq
    rcases charText_cases c with ⟨x, hc, hescape⟩ | ⟨hc, hcontrol⟩ | ⟨hc, _, hslash, _⟩
    · rw [hc] at heq
      simp only [List.cons_append, List.cons.injEq] at heq
      rw [heq.2.1] at hescape
      cases hescape
    · rw [hc] at heq
      simp only [List.cons_append, List.cons.injEq] at heq
      obtain ⟨-, -, rfl, rfl, rfl, rfl, -⟩ := heq
      rw [hex4?_control _ hcontrol]
      rfl
    · rw [hc] at heq
      simp only [List.cons_append, List.cons.injEq] at heq
      exact absurd heq.1 hslash

theorem textBody_flatMap (cs rest : List Char) :
    textBody (cs.flatMap charText ++ '"' :: rest) = some (some cs, rest) := by
  induction cs with
  | nil => exact textBody_quote rest
  | cons c cs ih =>
    have step : textBody (charText c ++ (cs.flatMap charText ++ '"' :: rest)) =
        (textBody (cs.flatMap charText ++ '"' :: rest)).map fun (body, after) =>
          (body.map (c :: ·), after) := by
      rcases charText_cases c with ⟨x, hc, hescape⟩ | ⟨hc, hcontrol⟩ | ⟨hc, hquote, hslash, hplain⟩
      · rw [hc]
        exact textBody_escape hescape _
      · rw [hc]
        have hcode := textBody_unicode (hex4?_control _ hcontrol) (by omega)
          fun _ _ _ _ _ (heq : cs.flatMap charText ++ '"' :: rest = _) =>
            isSome_hex4?_of_flatMap heq
        rw [Char.ofNat_toNat] at hcode
        exact hcode
      · rw [hc]
        exact textBody_plain hquote hslash hplain _
    rw [List.flatMap_cons, List.append_assoc, step, ih]
    rfl

/-! ## Values -/

theorem skipSpace_newLine (level : Nat) (cs : List Char) :
    skipSpace (newLine level ++ cs) = skipSpace cs := by
  have hspaces : ∀ n, (List.replicate n ' ' ++ cs).dropWhile isSpace = cs.dropWhile isSpace := by
    intro n
    induction n with
    | zero => rfl
    | succ n ih =>
      rw [List.replicate_succ, List.cons_append, List.dropWhile_cons_of_pos (by decide), ih]
  unfold skipSpace newLine
  rw [List.cons_append, List.dropWhile_cons_of_pos (by decide), hspaces]

theorem skipSpace_cons {c : Char} (hc : isSpace c = false) (cs : List Char) :
    skipSpace (c :: cs) = c :: cs :=
  List.dropWhile_cons_of_neg (by simp [hc])

theorem value_newLine (level fuel : Nat) (cs : List Char) :
    value fuel (newLine level ++ cs) = value fuel cs := by
  cases fuel with
  | zero => rfl
  | succ fuel => rw [value, value, skipSpace_newLine]

theorem word_append (expected : String) (leaf : Doc) (rest : List Char) :
    word expected leaf (expected.toList ++ rest) = (leaf, some rest) := by
  unfold word
  rw [Text.isPrefixOf?_eq_some_iff.2 rfl]

theorem value_word (fuel : Nat) (rest : List Char) :
    value (fuel + 1) ("null".toList ++ rest) = (.null, some rest) ∧
      value (fuel + 1) ("true".toList ++ rest) = (.bool true, some rest) ∧
      value (fuel + 1) ("false".toList ++ rest) = (.bool false, some rest) := by
  refine ⟨?_, ?_, ?_⟩ <;> rw [value]
  · exact word_append "ull" .null rest
  · exact word_append "rue" (.bool true) rest
  · exact word_append "alse" (.bool false) rest

theorem value_quotedChars (fuel : Nat) (s : String) (rest : List Char) :
    value (fuel + 1) (quotedChars s ++ rest) = (.text s, some rest) := by
  have hbody := textBody_flatMap s.toList rest
  simp [quotedChars, value, skipSpace_cons, isSpace, hbody]

theorem value_brackets (fuel : Nat) (rest : List Char) :
    value (fuel + 1) ('[' :: ']' :: rest) = (.seq [], some rest) ∧
      value (fuel + 1) ('{' :: '}' :: rest) = (.map [], some rest) := by
  simp [value, skipSpace_cons, isSpace]

theorem value_array {fuel : Nat} {cs rest : List Char} {found : List Doc}
    (hnonempty : ∀ after, skipSpace cs ≠ ']' :: after) (h : items fuel cs = (found, some rest)) :
    value (fuel + 1) ('[' :: cs) = (.seq found, some rest) := by
  simp [value, skipSpace_cons, isSpace, h]

theorem value_object {fuel : Nat} {cs rest : List Char} {found : List (Doc × Doc)}
    (hnonempty : ∀ after, skipSpace cs ≠ '}' :: after) (h : entries fuel cs = (found, some rest)) :
    value (fuel + 1) ('{' :: cs) = (.map found, some rest) := by
  simp [value, skipSpace_cons, isSpace, h]

/-- No value starts with a bracket that closes. -/
theorem skipSpace_ne_of_value {fuel : Nat} {cs rest : List Char} {d : Doc}
    (h : value fuel cs = (d, some rest)) (after : List Char) : skipSpace cs ≠ ']' :: after := by
  intro hclose
  cases fuel with
  | zero => simp [value] at h
  | succ fuel => simp [value, hclose, number] at h

section Steps

variable {fuel : Nat} {cs after content next rest : List Char} {d : Doc} {key : String}

theorem items_close (h : value fuel cs = (d, some after)) (hafter : skipSpace after = ']' :: rest) :
    items (fuel + 1) cs = ([d], some rest) := by
  simp [items, h, hafter]

theorem items_comma {found : List Doc} (h : value fuel cs = (d, some after))
    (hafter : skipSpace after = ',' :: next) (hnext : items fuel next = (found, some rest)) :
    items (fuel + 1) cs = (d :: found, some rest) := by
  simp [items, h, hafter, hnext]

theorem entries_close (hcs : skipSpace cs = quotedChars key ++ ':' :: content)
    (h : value fuel content = (d, some after)) (hafter : skipSpace after = '}' :: rest) :
    entries (fuel + 1) cs = ([(.text key, d)], some rest) := by
  have hbody := textBody_flatMap key.toList (':' :: content)
  have hcolon := skipSpace_cons (show isSpace ':' = false by decide) content
  simp [entries, hcs, quotedChars, hbody, hcolon, h, hafter]

theorem entries_comma {found : List (Doc × Doc)}
    (hcs : skipSpace cs = quotedChars key ++ ':' :: content)
    (h : value fuel content = (d, some after)) (hafter : skipSpace after = ',' :: next)
    (hnext : entries fuel next = (found, some rest)) :
    entries (fuel + 1) cs = ((.text key, d) :: found, some rest) := by
  have hbody := textBody_flatMap key.toList (':' :: content)
  have hcolon := skipSpace_cons (show isSpace ':' = false by decide) content
  simp [entries, hcs, quotedChars, hbody, hcolon, h, hafter, hnext]

end Steps

theorem skipSpace_quotedChars (level : Nat) (s : String) (rest : List Char) :
    skipSpace (newLine level ++ (quotedChars s ++ rest)) = quotedChars s ++ rest := by
  rw [skipSpace_newLine]
  exact skipSpace_cons (by decide) _

theorem value_space (fuel : Nat) (cs : List Char) : value fuel (' ' :: cs) = value fuel cs := by
  cases fuel with
  | zero => rfl
  | succ fuel =>
    have hspace : skipSpace (' ' :: cs) = skipSpace cs := List.dropWhile_cons_of_pos (by decide)
    rw [value, value, hspace]

theorem exists_eq_succ_of_length {cs : List Char} {fuel : Nat} (hne : cs ≠ [])
    (h : 2 * cs.length ≤ fuel) : ∃ n, fuel = n + 1 := by
  have := List.length_pos_iff.2 hne
  exact ⟨fuel - 1, by omega⟩

mutual

theorem value_prettyChars : ∀ (j : Json) (level fuel : Nat) (rest : List Char),
    j.isNumberless = true → 2 * (prettyChars level j).length ≤ fuel →
      value fuel (prettyChars level j ++ rest) = (j.toDoc, some rest)
  | .null, level, fuel, rest, _, h => by
    obtain ⟨fuel, rfl⟩ := exists_eq_succ_of_length (by simp [prettyChars, atomChars]) h
    exact (value_word fuel rest).1
  | .bool true, level, fuel, rest, _, h => by
    obtain ⟨fuel, rfl⟩ := exists_eq_succ_of_length (by simp [prettyChars, atomChars]) h
    exact (value_word fuel rest).2.1
  | .bool false, level, fuel, rest, _, h => by
    obtain ⟨fuel, rfl⟩ := exists_eq_succ_of_length (by simp [prettyChars, atomChars]) h
    exact (value_word fuel rest).2.2
  | .int i, _, _, _, hj, _ => nomatch hj
  | .text s, level, fuel, rest, _, h => by
    obtain ⟨fuel, rfl⟩ := exists_eq_succ_of_length (by simp [prettyChars, atomChars, quotedChars]) h
    exact value_quotedChars fuel s rest
  | .arr [], level, fuel, rest, _, h => by
    obtain ⟨fuel, rfl⟩ := exists_eq_succ_of_length (by simp [prettyChars, atomChars]) h
    exact (value_brackets fuel rest).1
  | .arr (item :: others), level, fuel, rest, hj, h => by
    simp only [isNumberless, allNumberless, Bool.and_eq_true] at hj
    simp only [prettyChars, List.length_cons, List.length_append] at h
    obtain ⟨fuel, rfl⟩ : ∃ n, fuel = n + 2 := ⟨fuel - 2, by omega⟩
    have hitem := value_prettyChars item (level + 1) fuel (prettyItems level others ++ rest) hj.1
      (by omega)
    rw [← value_newLine (level + 1)] at hitem
    have hitems := items_prettyItems others level fuel _ rest _ hj.2 (by omega) hitem
    have hchars : prettyChars level (.arr (item :: others)) ++ rest =
        '[' :: (newLine (level + 1) ++
          (prettyChars (level + 1) item ++ (prettyItems level others ++ rest))) := by
      simp [prettyChars]
    rw [hchars]
    exact value_array (skipSpace_ne_of_value hitem) hitems
  | .obj [], level, fuel, rest, _, h => by
    obtain ⟨fuel, rfl⟩ := exists_eq_succ_of_length (by simp [prettyChars, atomChars]) h
    exact (value_brackets fuel rest).2
  | .obj ((key, v) :: others), level, fuel, rest, hj, h => by
    simp only [isNumberless, allFieldsNumberless, Bool.and_eq_true] at hj
    simp only [prettyChars, List.length_cons, List.length_append] at h
    obtain ⟨fuel, rfl⟩ : ∃ n, fuel = n + 2 := ⟨fuel - 2, by omega⟩
    have hv := value_prettyChars v (level + 1) fuel (prettyFields level others ++ rest) hj.1
      (by omega)
    rw [← value_space] at hv
    have hkey := skipSpace_quotedChars (level + 1) key
      (':' :: ' ' :: (prettyChars (level + 1) v ++ (prettyFields level others ++ rest)))
    have hentries := entries_prettyFields others level fuel key _ _ rest _ hj.2 (by omega) hkey hv
    have hchars : prettyChars level (.obj ((key, v) :: others)) ++ rest =
        '{' :: (newLine (level + 1) ++ (quotedChars key ++
          ':' :: ' ' :: (prettyChars (level + 1) v ++ (prettyFields level others ++ rest)))) := by
      simp [prettyChars]
    rw [hchars]
    refine value_object (fun after hclose => ?_) hentries
    rw [hkey] at hclose
    simp [quotedChars] at hclose

/-- The items behind one that has been read. -/
theorem items_prettyItems : ∀ (others : List Json) (level fuel : Nat) (cs rest : List Char)
    (d : Doc), allNumberless others = true → 2 * (prettyItems level others).length ≤ fuel →
      value fuel cs = (d, some (prettyItems level others ++ rest)) →
        items (fuel + 1) cs = (d :: toDocs others, some rest)
  | [], level, fuel, cs, rest, d, _, _, hvalue => by
    refine items_close hvalue ?_
    rw [prettyItems, List.append_assoc, skipSpace_newLine]
    rfl
  | item :: others, level, fuel, cs, rest, d, hall, h, hvalue => by
    simp only [allNumberless, Bool.and_eq_true] at hall
    simp only [prettyItems, List.length_cons, List.length_append] at h
    obtain ⟨fuel, rfl⟩ : ∃ n, fuel = n + 1 := ⟨fuel - 1, by omega⟩
    have hitem := value_prettyChars item (level + 1) fuel (prettyItems level others ++ rest) hall.1
      (by omega)
    rw [← value_newLine (level + 1)] at hitem
    have hothers := items_prettyItems others level fuel _ rest _ hall.2 (by omega) hitem
    refine items_comma hvalue ?_ hothers
    rw [prettyItems, List.cons_append, skipSpace_cons (by decide)]
    simp

/-- The fields behind one that has been read. -/
theorem entries_prettyFields : ∀ (others : List (String × Json)) (level fuel : Nat) (key : String)
    (cs content rest : List Char) (d : Doc), allFieldsNumberless others = true →
      2 * (prettyFields level others).length ≤ fuel →
      skipSpace cs = quotedChars key ++ ':' :: content →
      value fuel content = (d, some (prettyFields level others ++ rest)) →
        entries (fuel + 1) cs = ((.text key, d) :: toEntries others, some rest)
  | [], level, fuel, key, cs, content, rest, d, _, _, hcs, hvalue => by
    refine entries_close hcs hvalue ?_
    rw [prettyFields, List.append_assoc, skipSpace_newLine]
    rfl
  | (other, v) :: others, level, fuel, key, cs, content, rest, d, hall, h, hcs, hvalue => by
    simp only [allFieldsNumberless, Bool.and_eq_true] at hall
    simp only [prettyFields, List.length_cons, List.length_append] at h
    obtain ⟨fuel, rfl⟩ : ∃ n, fuel = n + 1 := ⟨fuel - 1, by omega⟩
    have hv := value_prettyChars v (level + 1) fuel (prettyFields level others ++ rest) hall.1
      (by omega)
    rw [← value_space] at hv
    have hkey := skipSpace_quotedChars (level + 1) other
      (':' :: ' ' :: (prettyChars (level + 1) v ++ (prettyFields level others ++ rest)))
    have hothers :=
      entries_prettyFields others level fuel other _ _ rest _ hall.2 (by omega) hkey hv
    refine entries_comma hcs hvalue ?_ hothers
    rw [prettyFields, List.cons_append, skipSpace_cons (by decide)]
    simp

end

theorem document_pretty {j : Json} (hj : j.isNumberless = true) :
    document j.pretty = (j.toDoc, true) := by
  have hvalue := value_prettyChars j 0 (2 * (prettyChars 0 j).length + 2) [] hj (by omega)
  rw [List.append_nil] at hvalue
  rw [document, pretty, String.toList_ofList, hvalue]
  rfl

/-! ## Levels -/

mutual

theorem cut_eq_self : ∀ (d : Doc) (levels : Nat), d.depth ≤ levels → cut levels d = d
  | .seq items, 0, h => by simp [Doc.depth] at h
  | .map entries, 0, h => by simp [Doc.depth] at h
  | .seq items, levels + 1, h => by
    simp only [Doc.depth] at h
    rw [cut, cutItems_eq_self items levels (by omega)]
  | .map entries, levels + 1, h => by
    simp only [Doc.depth] at h
    rw [cut, cutEntries_eq_self entries levels (by omega)]
  | .null, levels, _ => by cases levels <;> rfl
  | .bool _, levels, _ => by cases levels <;> rfl
  | .integer _, levels, _ => by cases levels <;> rfl
  | .number _, levels, _ => by cases levels <;> rfl
  | .text _, levels, _ => by cases levels <;> rfl
  | .plain _, levels, _ => by cases levels <;> rfl
  | .tagged _ _, levels, _ => by cases levels <;> rfl
  | .unusable, levels, _ => by cases levels <;> rfl
  | .broken, levels, _ => by cases levels <;> rfl

theorem cutItems_eq_self : ∀ (items : List Doc) (levels : Nat),
    Doc.depthOfItems items ≤ levels → cutItems levels items = items
  | [], _, _ => by rw [cutItems]
  | item :: rest, levels, h => by
    simp only [Doc.depthOfItems] at h
    rw [cutItems, cut_eq_self item levels (by omega), cutItems_eq_self rest levels (by omega)]

theorem cutEntries_eq_self : ∀ (entries : List (Doc × Doc)) (levels : Nat),
    Doc.depthOfEntries entries ≤ levels → cutEntries levels entries = entries
  | [], _, _ => by rw [cutEntries]
  | (key, value) :: rest, levels, h => by
    simp only [Doc.depthOfEntries] at h
    rw [cutEntries, cut_eq_self value levels (by omega), cutEntries_eq_self rest levels (by omega)]

end

end Reader

/-- A value of few levels is decoded from its text as from its tree. -/
theorem decodeText_pretty {α : Type} {decode : Decoder α} {j : Json} {a : α}
    (hj : j.isNumberless = true) (hdepth : j.toDoc.depth ≤ Reader.deepest)
    (h : decode .json j.toDoc = .ok a) : decodeText decode j.pretty = .ok a := by
  rw [decodeText, Reader.document_pretty hj]
  dsimp only
  rw [Reader.cut_eq_self _ _ hdepth, h]
  rfl

end Json
end EdmCommands
