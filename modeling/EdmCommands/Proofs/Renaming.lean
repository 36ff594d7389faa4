import EdmCommands.Proofs.Generation
import EdmCommands.Proofs.Naming
import EdmCommands.Proofs.Text.Trim

/-!
# EdmCommands.Proofs.Renaming

How the commands of a generation come to have distinct names. The names in use are all the names
that there were at first and those given since, so a number that is chosen for one command takes
the name of no other one, whether it stands before or behind.

* `Settles`: what becomes of one command, by the names of those before it.
* `NamesSettled`: what becomes of the commands of a list.
* `settles_renameRepeated`, `nodup_renameRepeated`: the walk along the list.
* `namesSettled_distinctNames`: the names of a whole generation.
-/

namespace EdmCommands
namespace Generation

/-- The command with a number behind its noun. -/
def numbered (c : Command) (k : Nat) : Command :=
  { c with name := ⟨c.name.verb, c.name.noun ++ toString k⟩ }

/-- What becomes of a command behind commands with the names `earlier`. It keeps a name that none
of them has. Else it gets a number, and with it a name that is none of `original`. -/
inductive Settles (original earlier : List String) (c : Command) : Command → Prop where
  | kept : c.name.full ∉ earlier → Settles original earlier c c
  | numbered (k : Nat) : c.name.full ∈ earlier → 1 ≤ k →
      (Generation.numbered c k).name.full ∉ original →
      Settles original earlier c (Generation.numbered c k)

/-- The commands `named` are `commands` with distinct names: in the same order, with other nouns at
most. A command keeps its name just when none before it has the same; else it has a number behind
its noun, and its new name is not one of those that there were. -/
structure NamesSettled (commands named : List Command) : Prop where
  distinct : (named.map (·.name.full)).Nodup
  same : List.Forall₂ SameButNoun commands named
  kept_iff : ∀ (i : Nat) (c c' : Command), commands[i]? = some c → named[i]? = some c' →
    (c'.name = c.name ↔
      ∀ (j : Nat) (d : Command), j < i → commands[j]? = some d → d.name.full ≠ c.name.full)
  renamed : ∀ (i : Nat) (c c' : Command), commands[i]? = some c → named[i]? = some c' →
    c'.name ≠ c.name →
      (∃ k, 1 ≤ k ∧ c'.name.noun = c.name.noun ++ toString k) ∧
        ∀ d ∈ commands, d.name.full ≠ c'.name.full

variable {commands : List Command} {original taken seen earlier : List String} {c c' : Command}

/-! ## One command -/

/-- The nouns that make names in use with the verb of a command. -/
def takenNouns (taken : List String) (c : Command) : List String :=
  taken.filterMap fun full => Text.stripStart? (c.name.verb.name ++ "-") full

theorem mem_takenNouns_iff {noun : String} :
    noun ∈ takenNouns taken c ↔ (⟨c.name.verb, noun⟩ : CommandName).full ∈ taken := by
  simp only [takenNouns, List.mem_filterMap, Text.stripStart?_eq_some_iff]
  exact exists_eq_right

/-- A command whose name is in use gets a number. -/
theorem exists_numbered (h : c.name.full ∈ taken) :
    ∃ k, 1 ≤ k ∧
      { c with name := ⟨c.name.verb, Naming.freshName c.name.noun (takenNouns taken c)⟩ } =
        numbered c k ∧
      (numbered c k).name.full ∉ taken := by
  obtain ⟨k, hk⟩ := Naming.exists_freshName_of_mem (mem_takenNouns_iff.2 h)
  have hfree := Naming.freshName_not_mem c.name.noun (takenNouns taken c)
  rw [mem_takenNouns_iff, hk] at hfree
  exact ⟨k + 1, by omega, by rw [hk, numbered], hfree⟩

/-- The two ways in which the walk goes on. -/
theorem renameRepeated_cons_cases (seen : List String) (c : Command) (rest : List Command)
    (inUse : c.name.full ∈ taken) :
    (c.name.full ∉ seen ∧
      renameRepeated taken seen (c :: rest) =
        c :: renameRepeated taken (c.name.full :: seen) rest) ∨
    (c.name.full ∈ seen ∧ ∃ k, 1 ≤ k ∧ (numbered c k).name.full ∉ taken ∧
      renameRepeated taken seen (c :: rest) =
        numbered c k ::
          renameRepeated ((numbered c k).name.full :: taken) ((numbered c k).name.full :: seen)
            rest) := by
  by_cases hseen : c.name.full ∈ seen
  · obtain ⟨k, hk, hrenamed, hfree⟩ := exists_numbered inUse
    refine .inr ⟨hseen, k, hk, hfree, ?_⟩
    rw [renameRepeated, if_pos (by simpa using hseen), ← hrenamed]
    rfl
  · refine .inl ⟨hseen, ?_⟩
    rw [renameRepeated, if_neg (by simpa using hseen)]

theorem name_numbered_ne (c : Command) (k : Nat) : (numbered c k).name ≠ c.name := by
  intro heq
  have hlength := congrArg (fun name => name.noun.length) heq
  have hpos := Nat.length_repr_pos (n := k)
  simp only [numbered, String.length_append, Nat.toString_eq_repr] at hlength
  omega

/-! ## The walk along the list -/

theorem nodup_cons_of_new {name : String} {names : List String} (hname : name ∉ seen)
    (h : names.Nodup ∧ ∀ other ∈ names, other ∉ name :: seen) :
    (name :: names).Nodup ∧ ∀ other ∈ name :: names, other ∉ seen := by
  obtain ⟨hnodup, hnew⟩ := h
  refine ⟨List.nodup_cons.2 ⟨fun hmem => ?_, hnodup⟩, ?_⟩
  · exact hnew _ hmem List.mem_cons_self
  · refine List.forall_mem_cons.2 ⟨hname, ?_⟩
    intro other hmem hseen
    exact hnew other hmem (List.mem_cons_of_mem _ hseen)

theorem nodup_renameRepeated (hseen : seen ⊆ taken) (hnames : commands.map (·.name.full) ⊆ taken) :
    ((renameRepeated taken seen commands).map (·.name.full)).Nodup ∧
      ∀ name ∈ (renameRepeated taken seen commands).map (·.name.full), name ∉ seen := by
  -- all names seen so far are in use, so a name that is free is none of them
  induction commands generalizing taken seen with
  | nil => simp [renameRepeated]
  | cons c rest ih =>
    rw [List.map_cons, List.cons_subset] at hnames
    obtain ⟨hname, hrest⟩ := hnames
    rcases renameRepeated_cons_cases seen c rest hname with
      ⟨hnew, heq⟩ | ⟨_, k, _, hfree, heq⟩
    · rw [heq, List.map_cons]
      exact nodup_cons_of_new hnew (ih (List.cons_subset.2 ⟨hname, hseen⟩) hrest)
    · have hseen' := List.cons_subset_cons (numbered c k).name.full hseen
      rw [heq, List.map_cons]
      exact nodup_cons_of_new (fun hmem => hfree (hseen hmem))
        (ih hseen' (List.subset_cons_of_subset _ hrest))

theorem nodup_distinctNames (commands : List Command) :
    ((distinctNames commands).map (·.name.full)).Nodup :=
  (nodup_renameRepeated (List.nil_subset _) (List.Subset.refl _)).1

/-- Names that are distinct already stay as they are. -/
theorem renameRepeated_of_nodup (nodup : (commands.map (·.name.full)).Nodup)
    (new : ∀ name ∈ commands.map (·.name.full), name ∉ seen) :
    renameRepeated taken seen commands = commands := by
  induction commands generalizing seen with
  | nil => rfl
  | cons c rest ih =>
    rw [List.map_cons, List.nodup_cons] at nodup
    rw [List.map_cons, List.forall_mem_cons] at new
    have later : ∀ name ∈ rest.map (·.name.full), name ∉ c.name.full :: seen := by
      intro name hname
      rw [List.mem_cons, not_or]
      exact ⟨fun heq => nodup.1 (heq ▸ hname), new.2 name hname⟩
    rw [renameRepeated, if_neg (by simpa using new.1), ih nodup.2 later]

/-- What becomes of the commands behind the first one, by the names in front of them. -/
theorem settles_cons {rest named : List Command} (first : Settles original earlier c c')
    (later : ∀ (i : Nat) (d d' : Command), rest[i]? = some d → named[i]? = some d' →
      Settles original (earlier ++ [c.name.full] ++ (rest.take i).map (·.name.full)) d d') :
    ∀ (i : Nat) (d d' : Command), (c :: rest)[i]? = some d → (c' :: named)[i]? = some d' →
      Settles original (earlier ++ ((c :: rest).take i).map (·.name.full)) d d' := by
  intro i d d' hd hd'
  cases i with
  | zero =>
    cases hd
    cases hd'
    rwa [List.take_zero, List.map_nil, List.append_nil]
  | succ i => simpa using later i d d' hd hd'

/-- Of the names that there were at first, those seen are the ones of the commands passed so far: a
name that is given on the way is none of them. -/
theorem settles_renameRepeated (inUse : original ⊆ taken) (hseen : seen ⊆ taken)
    (passed : ∀ name ∈ original, name ∈ seen ↔ name ∈ earlier)
    (names : commands.map (·.name.full) ⊆ original) :
    ∀ (i : Nat) (c c' : Command), commands[i]? = some c →
      (renameRepeated taken seen commands)[i]? = some c' →
        Settles original (earlier ++ (commands.take i).map (·.name.full)) c c' := by
  induction commands generalizing taken seen earlier with
  | nil => simp
  | cons c rest ih =>
    rw [List.map_cons, List.cons_subset] at names
    obtain ⟨hname, hrest⟩ := names
    rcases renameRepeated_cons_cases seen c rest (inUse hname) with
      ⟨hnew, heq⟩ | ⟨hold, k, hk, hfree, heq⟩
    · have passed' : ∀ name ∈ original,
          name ∈ c.name.full :: seen ↔ name ∈ earlier ++ [c.name.full] := by
        intro name hmem
        rw [List.mem_cons, passed name hmem, List.mem_append, List.mem_singleton, or_comm]
      rw [heq]
      exact settles_cons (.kept fun hmem => hnew ((passed _ hname).2 hmem))
        (ih inUse (List.cons_subset.2 ⟨inUse hname, hseen⟩) passed' hrest)
    · have passed' : ∀ name ∈ original,
          name ∈ (numbered c k).name.full :: seen ↔ name ∈ earlier ++ [c.name.full] := by
        intro name hmem
        have given : name ≠ (numbered c k).name.full := fun h => hfree (h ▸ inUse hmem)
        rw [List.mem_cons, or_iff_right given, passed name hmem, List.mem_append,
          List.mem_singleton, iff_self_or]
        rintro rfl
        exact (passed _ hname).1 hold
      rw [heq]
      exact settles_cons
        (.numbered k ((passed _ hname).1 hold) hk fun hmem => hfree (inUse hmem))
        (ih (List.subset_cons_of_subset _ inUse) (List.cons_subset_cons _ hseen) passed' hrest)

/-! ## The names of a generation -/

theorem mem_names_take_iff {i : Nat} {name : String} :
    name ∈ (commands.take i).map (·.name.full) ↔
      ∃ (j : Nat) (d : Command), j < i ∧ commands[j]? = some d ∧ d.name.full = name := by
  rw [List.mem_map]
  constructor
  · rintro ⟨d, hd, rfl⟩
    obtain ⟨j, hj⟩ := List.mem_iff_getElem?.1 hd
    rw [List.getElem?_take, Option.ite_none_right_eq_some] at hj
    obtain ⟨hlt, hget⟩ := hj
    exact ⟨j, d, hlt, hget, rfl⟩
  · rintro ⟨j, d, hlt, hget, rfl⟩
    refine ⟨d, List.mem_of_getElem? (i := j) ?_, rfl⟩
    rw [List.getElem?_take, if_pos hlt, hget]

/-- The distinct names that a list of commands gets, and that they are not changed again. -/
theorem namesSettled_distinctNames (commands : List Command) :
    NamesSettled commands (distinctNames commands) ∧
      distinctNames (distinctNames commands) = distinctNames commands := by
  have settles : ∀ (i : Nat) (c c' : Command), commands[i]? = some c →
      (distinctNames commands)[i]? = some c' →
        Settles (commands.map (·.name.full)) ((commands.take i).map (·.name.full)) c c' :=
    settles_renameRepeated (List.Subset.refl _) (List.nil_subset _) (fun _ _ => Iff.rfl)
      (List.Subset.refl _)
  have nodup := nodup_distinctNames commands
  refine ⟨⟨nodup, sameButNoun_renameRepeated _ _ _, ?_, ?_⟩,
    renameRepeated_of_nodup nodup fun _ _ => List.not_mem_nil⟩
  · intro i c c' hc hc'
    cases settles i c c' hc hc' with
    | kept hnew =>
      refine iff_of_true rfl fun j d hlt hd heq => hnew ?_
      exact mem_names_take_iff.2 ⟨j, d, hlt, hd, heq⟩
    | numbered k hold =>
      obtain ⟨j, d, hlt, hd, heq⟩ := mem_names_take_iff.1 hold
      exact iff_of_false (name_numbered_ne c k) fun hnew => hnew j d hlt hd heq
  · intro i c c' hc hc' hne
    cases settles i c c' hc hc' with
    | kept => exact absurd rfl hne
    | numbered k _ hk hfree =>
      refine ⟨⟨k, hk, rfl⟩, fun d hd heq => hfree ?_⟩
      exact List.mem_map.2 ⟨d, hd, heq⟩

end Generation
end EdmCommands
