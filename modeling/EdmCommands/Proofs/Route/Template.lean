import EdmCommands.Proofs.Text.Braces
import EdmCommands.Proofs.Text.Trim
import EdmCommands.Route.Rendered

/-!
# EdmCommands.Proofs.Route.Template

The placeholders of an address, read from its text.

* `tokens`: what stands in braces, from left to right.
* `Closed`: a text that does not change how the text behind it is read.
* `tokens_intercalate`: the placeholders of an address are those of its parts.
* `tokens_placeholder`, `tokens_optionalPlaceholder`: a placeholder is read as it was written.
-/

namespace EdmCommands
namespace Route

open Text Config

/-- What stands in braces, from left to right. `within` is what was read since a brace was opened,
unless it is closed. -/
def braced (within : Option (List Char)) : List Char → List (List Char)
  | [] => []
  | c :: rest =>
    match within with
    | none => if c = '{' then braced (some []) rest else braced none rest
    | some content =>
      if c = '}' then content :: braced none rest else braced (some (content ++ [c])) rest

/-- A placeholder of an address. -/
structure Token where
  name : String
  isOptional : Bool
deriving Repr, DecidableEq

/-- What stands behind the name of a placeholder that may stay empty. -/
def optionalMark : String :=
  " ?? \"\""

def Token.ofContent (content : String) : Token :=
  match stripEnd? optionalMark content with
  | some name => ⟨name, true⟩
  | none => ⟨content, false⟩

/-- The placeholders of an address, from left to right. -/
def tokens (template : String) : List Token :=
  (braced none template.toList).map fun content => .ofContent (String.ofList content)

/-- All braces of the text are closed. -/
def Closed (s : String) : Prop :=
  ∀ rest, braced none (s.toList ++ rest) = braced none s.toList ++ braced none rest

/-- A name of which it is known how it ends. -/
def IsPlaceholderName (name : String) : Prop :=
  ∃ stem plain, BraceFree stem ∧ IsPlainName plain ∧ name = stem ++ plain

variable {s t name : String}

/-! ## Texts without braces -/

theorem braced_free {cs : List Char} (h : ∀ c ∈ cs, IsFree c) (rest : List Char) :
    braced none (cs ++ rest) = braced none rest := by
  induction cs with
  | nil => rfl
  | cons c cs ih =>
    rw [List.forall_mem_cons] at h
    rw [List.cons_append, braced, if_neg h.1.1]
    exact ih h.2

theorem braced_content {cs : List Char} (h : ∀ c ∈ cs, IsFree c) (content rest : List Char) :
    braced (some content) (cs ++ '}' :: rest) = (content ++ cs) :: braced none rest := by
  induction cs generalizing content with
  | nil => simp [braced]
  | cons c cs ih =>
    rw [List.forall_mem_cons] at h
    rw [List.cons_append, braced, if_neg h.1.2]
    rw [ih h.2, List.append_assoc, List.singleton_append]

theorem tokens_free (h : BraceFree s) : tokens s = [] := by
  have := braced_free h []
  rw [List.append_nil] at this
  rw [tokens, this]
  rfl

/-! ## Parts of a text -/

theorem Closed.of_free (h : BraceFree s) : Closed s := by
  intro rest
  have := braced_free h []
  rw [List.append_nil] at this
  rw [braced_free h, this]
  rfl

theorem Closed.append (hs : Closed s) (ht : Closed t) : Closed (s ++ t) := by
  intro rest
  rw [String.toList_append, List.append_assoc, hs, ht, hs, List.append_assoc]

theorem tokens_append (h : Closed s) : tokens (s ++ t) = tokens s ++ tokens t := by
  rw [tokens, String.toList_append, h, List.map_append]
  rfl

theorem closed_slash : Closed "/" :=
  .of_free (by simp [BraceFree, IsFree])

theorem tokens_intercalate {parts : List String} (h : ∀ part ∈ parts, Closed part) :
    Closed ("/".intercalate parts) ∧
      tokens ("/".intercalate parts) = parts.flatMap tokens := by
  induction parts with
  | nil => exact ⟨fun rest => by simp [braced], rfl⟩
  | cons part parts ih =>
    rw [List.forall_mem_cons] at h
    obtain ⟨closed, hparts⟩ := ih h.2
    cases parts with
    | nil => simpa using h.1
    | cons next parts =>
      rw [String.intercalate_cons_cons, List.flatMap_cons, ← hparts]
      refine ⟨(h.1.append closed_slash).append closed, ?_⟩
      have slash : tokens "/" = [] := rfl
      rw [tokens_append (h.1.append closed_slash), tokens_append h.1, slash, List.append_nil]

theorem intercalate_append {first second : List String} (hfirst : first ≠ [])
    (hsecond : second ≠ []) :
    "/".intercalate (first ++ second) =
      "/".intercalate first ++ "/" ++ "/".intercalate second := by
  induction first with
  | nil => exact absurd rfl hfirst
  | cons part parts ih =>
    cases parts with
    | nil =>
      obtain ⟨next, rest, rfl⟩ := List.exists_cons_of_ne_nil hsecond
      simp
    | cons next parts =>
      have := ih (by simp)
      rw [List.cons_append, List.cons_append, String.intercalate_cons_cons, ← List.cons_append,
        this, String.intercalate_cons_cons]
      simp only [String.append_assoc]

/-! ## Placeholders -/

theorem IsPlaceholderName.free (h : IsPlaceholderName name) : BraceFree name := by
  obtain ⟨stem, plain, hstem, hplain, rfl⟩ := h
  exact hstem.append (IsPlainName.free hplain)

/-- The last character of a name is none that marks an optional placeholder. -/
theorem ofContent_name (h : IsPlaceholderName name) : Token.ofContent name = ⟨name, false⟩ := by
  unfold Token.ofContent
  cases hstrip : stripEnd? optionalMark name with
  | none => rfl
  | some front =>
    obtain ⟨stem, plain, _, ⟨hne, hplain⟩, hname⟩ := h
    obtain ⟨before, last, hlast⟩ : ∃ before last, plain.toList = before ++ [last] := by
      rcases List.eq_nil_or_concat plain.toList with hnil | ⟨before, last, hlast⟩
      · exact absurd (String.toList_eq_nil_iff.1 hnil) hne
      · exact ⟨before, last, by simpa using hlast⟩
    rw [stripEnd?_eq_some_iff, hname] at hstrip
    have hends := congrArg (fun s : String => s.toList.getLast?) hstrip
    have hquote : last = '"' := by simpa [hlast, optionalMark] using hends
    have halphanum := hplain last (by simp [hlast])
    rw [hquote] at halphanum
    exact absurd halphanum (by decide)

theorem ofContent_optional : Token.ofContent (name ++ optionalMark) = ⟨name, true⟩ := by
  rw [Token.ofContent, stripEnd?_eq_some_iff.2 rfl]

theorem placeholder_toList (content : String) :
    (Rendered.placeholder content).toList = '{' :: (content.toList ++ ['}']) := by
  simp [Rendered.placeholder]

theorem braced_placeholder {content : String} (h : BraceFree content) (rest : List Char) :
    braced none ((Rendered.placeholder content).toList ++ rest) =
      content.toList :: braced none rest := by
  rw [placeholder_toList, List.cons_append, List.append_assoc, braced, if_pos rfl]
  exact braced_content h [] rest

theorem closed_placeholder {content : String} (h : BraceFree content) :
    Closed (Rendered.placeholder content) ∧
      tokens (Rendered.placeholder content) = [Token.ofContent content] := by
  have alone := braced_placeholder h []
  rw [List.append_nil] at alone
  refine ⟨fun rest => ?_, ?_⟩
  · rw [braced_placeholder h, alone]
    rfl
  · rw [tokens, alone]
    simp [braced]

theorem optionalPlaceholder_eq (name : String) :
    Rendered.optionalPlaceholder name = Rendered.placeholder (name ++ optionalMark) := by
  simp [Rendered.optionalPlaceholder, Rendered.placeholder, optionalMark, ← String.toList_inj]

theorem tokens_placeholder (h : IsPlaceholderName name) :
    Closed (Rendered.placeholder name) ∧ tokens (Rendered.placeholder name) = [⟨name, false⟩] := by
  rw [← ofContent_name h]
  exact closed_placeholder h.free

theorem tokens_optionalPlaceholder (h : BraceFree name) :
    Closed (Rendered.optionalPlaceholder name) ∧
      tokens (Rendered.optionalPlaceholder name) = [⟨name, true⟩] := by
  rw [optionalPlaceholder_eq, ← ofContent_optional]
  exact closed_placeholder (h.append (by simp [BraceFree, IsFree, optionalMark]))

end Route
end EdmCommands
