import EdmCommands.Proofs.Config
import EdmCommands.Proofs.Text.Spelling
import EdmCommands.Schema.Basic

/-!
# EdmCommands.Proofs.Text.Braces

Names without braces stay so under the spellings they take.

* `pascalCase_free`, `singular_free`, `qualify_free`: the spellings of names.
* `freshName_append`: a free name is the one asked for, but for what stands behind its stem.
-/

namespace EdmCommands
namespace Text

def IsFree (c : Char) : Prop :=
  c ≠ '{' ∧ c ≠ '}'

def BraceFree (s : String) : Prop :=
  ∀ c ∈ s.toList, IsFree c

instance (s : String) : Decidable (BraceFree s) :=
  List.decidableBAll (fun c => c ≠ '{' ∧ c ≠ '}') s.toList

theorem BraceFree.append {s t : String} (hs : BraceFree s) (ht : BraceFree t) :
    BraceFree (s ++ t) := by
  intro c hc
  rw [String.toList_append, List.mem_append] at hc
  exact hc.elim (hs c) (ht c)

theorem free_of_isAlphanum {c : Char} (h : c.isAlphanum = true) : IsFree c := by
  constructor <;> rintro rfl <;> revert h <;> decide

/-! ## Spellings -/

theorem upperChars_free {c : Char} (h : IsFree c) : ∀ d ∈ upperChars c, IsFree d := by
  intro d hd
  have opening : IsMark '{' := by decide
  have closing : IsMark '}' := by decide
  exact ⟨upperChars_ne opening h.1 hd, upperChars_ne closing h.2 hd⟩

theorem pascalCase_free {s : String} (h : BraceFree s) : BraceFree (Naming.pascalCase s) := by
  rw [BraceFree, Naming.pascalCase, String.toList_ofList]
  exact forall_mem_pascalChars (fun c => upperChars_free) h true

theorem singular_free {s : String} (h : BraceFree s) : BraceFree (Naming.singular s) :=
  forall_mem_singular (by simp [IsFree]) h

theorem qualify_free {g : Schema.Graph} {name : String} (space : BraceFree g.namespaceName)
    (h : BraceFree name) : BraceFree (g.qualify name) := by
  unfold Schema.Graph.qualify
  split
  · exact h
  · exact (space.append (by simp [BraceFree, IsFree])).append h

/-! ## Names of placeholders -/

open Config (IsPlainName isPlainName_toString)

theorem IsPlainName.free {s : String} (h : IsPlainName s) : BraceFree s :=
  fun c hc => free_of_isAlphanum (h.2 c hc)

/-- A name that is chosen because it is free has the stem of the one asked for. -/
theorem freshName_append (front : String) {suffix : String} (h : IsPlainName suffix)
    (taken : List String) :
    ∃ plain, IsPlainName plain ∧ Naming.freshName (front ++ suffix) taken = front ++ plain := by
  unfold Naming.freshName
  cases Naming.freshIndex (front ++ suffix) taken with
  | zero => exact ⟨suffix, h, rfl⟩
  | succ k =>
    exact ⟨suffix ++ toString (k + 1), h.append (isPlainName_toString _), String.append_assoc ..⟩

end Text
end EdmCommands
