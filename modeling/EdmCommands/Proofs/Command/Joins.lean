import EdmCommands.Proofs.Command.Parameter
import EdmCommands.Proofs.Naming

/-!
# EdmCommands.Proofs.Command.Joins

A parameter that joins several sets in turn, mandatory in some of them and optional in others. The
sets it is mandatory in are kept as a flag for all of them together or as a list, and joins may
change from one to the other.

* `joinSets`: the sets joined one after another.
* `MandatoryAsJoined`: afterwards the parameter is mandatory where it was and where it was joined
  so.
* `joinSet_forgets`: mandatory in all sets there are, it has no list of them, and forgets them all
  when it joins one as optional.
* `mandatoryAsJoined_iff`: only so is it ever less mandatory than it should be.
-/

namespace EdmCommands
namespace Parameter

variable {p : Parameter} {joins front back : List (String × Bool)} {set other : String}

/-- The parameter used in more sets, each mandatory or not. -/
def joinSets (p : Parameter) (joins : List (String × Bool)) : Parameter :=
  joins.foldl (fun p join => p.joinSet join.1 join.2) p

theorem joinSets_cons (join : String × Bool) :
    p.joinSets (join :: joins) = (p.joinSet join.1 join.2).joinSets joins := rfl

theorem joinSets_append : p.joinSets (front ++ back) = (p.joinSets front).joinSets back :=
  List.foldl_append

theorem isIn_joinSets : (p.joinSets joins).isIn other = true ↔
    p.isIn other = true ∨ ∃ mandatory, (other, mandatory) ∈ joins := by
  induction joins generalizing p with
  | nil => simp [joinSets]
  | cons join rest ih =>
    obtain ⟨set, mandatory⟩ := join
    rw [joinSets_cons, ih, isIn_joinSet]
    simp only [List.mem_cons, Prod.mk.injEq, exists_or, exists_and_left, exists_eq, and_true]
    rw [or_comm (a := other = set), or_assoc]

/-- A join makes no parameter mandatory in all sets, and none a parameter of all sets. -/
theorem listed_joinSet {mandatory later : Bool}
    (listed : p.membership = .all → p.mandatory = true → later = true)
    (hall : (p.joinSet set mandatory).membership = .all)
    (hmandatory : (p.joinSet set mandatory).mandatory = true) : later = true := by
  have membership : p.membership = .all := by
    rw [joinSet_eq] at hall
    cases hp : p.membership with
    | all => rfl
    | only sets =>
      rw [hp] at hall
      cases hall
  refine listed membership ?_
  cases hp : p.mandatory with
  | true => rfl
  | false => cases mandatory <;> simp [joinSet, hp] at hmandatory

/-- The sets that a parameter is mandatory in, after joins that its flags can tell. -/
theorem isMandatoryIn_joinSets_iff (kept : ∀ s ∈ p.mandatoryIn, p.isIn s = true)
    (listed : p.membership = .all → p.mandatory = true → ∀ join ∈ joins, join.2 = true)
    (h : (p.joinSets joins).isIn other = true) :
    (p.joinSets joins).isMandatoryIn other = true ↔
      p.isIn other = true ∧ p.isMandatoryIn other = true ∨ (other, true) ∈ joins := by
  induction joins generalizing p with
  | nil =>
    have hin : p.isIn other = true := h
    simp [joinSets, hin]
  | cons join rest ih =>
    obtain ⟨set, mandatory⟩ := join
    rw [joinSets_cons] at h ⊢
    have hjoin : (p.joinSet set mandatory).isIn other = true →
        ((p.joinSet set mandatory).isMandatoryIn other = true ↔
          p.isIn other = true ∧ p.isMandatoryIn other = true ∨ other = set ∧ mandatory = true) :=
      isMandatoryIn_joinSet_iff p kept fun hall hmandatory =>
        listed hall hmandatory _ List.mem_cons_self
    have hrest := ih (p := p.joinSet set mandatory)
      (fun s hs => isIn_of_mem_mandatoryIn_joinSet p kept hs)
      (fun hall hmandatory join hmem => listed_joinSet
        (fun hall hmandatory => listed hall hmandatory join (List.mem_cons_of_mem _ hmem))
        hall hmandatory) h
    -- a set that is joined only later is no set of the parameter in between
    have hbetween : (p.joinSet set mandatory).isIn other = true ∧
        (p.joinSet set mandatory).isMandatoryIn other = true ↔
          p.isIn other = true ∧ p.isMandatoryIn other = true ∨ other = set ∧ mandatory = true := by
      constructor
      · rintro ⟨hin, hmandatory⟩
        exact (hjoin hin).1 hmandatory
      · intro hbefore
        have hin : (p.joinSet set mandatory).isIn other = true := by
          rw [isIn_joinSet]
          exact hbefore.elim (fun hold => .inr hold.1) fun hnew => .inl hnew.1
        exact ⟨hin, (hjoin hin).2 hbefore⟩
    rw [hrest, hbetween, List.mem_cons, Prod.mk.injEq, or_assoc, eq_comm (a := true)]

/-! ## Where the sets are not listed -/

section Forgets

variable (all : p.membership = .all) (mandatory : p.mandatory = true)
include all mandatory

/-- A parameter that is mandatory in all sets there are is so in one more. -/
theorem joinSets_mandatory (h : ∀ join ∈ front, join.2 = true) : p.joinSets front = p := by
  have join : ∀ set, p.joinSet set true = p := by
    intro set
    obtain ⟨⟩ := p
    cases all
    cases mandatory
    rfl
  induction front with
  | nil => rfl
  | cons first rest ih =>
    rw [List.forall_mem_cons] at h
    rw [joinSets_cons, h.1, join, ih h.2]

theorem joinSet_forgets : p.joinSet set false = { p with mandatory := false } := by
  obtain ⟨⟩ := p
  cases all
  cases mandatory
  rfl

/-- The first set that is joined as optional makes the parameter optional in all sets but those
listed before, and those joined as mandatory afterwards. -/
theorem isMandatoryIn_joinSets_of_forgets (h : ∀ join ∈ front, join.2 = true) :
    (p.joinSets (front ++ (set, false) :: back)).isMandatoryIn other = true ↔
      other ∈ p.mandatoryIn ∨ (other, true) ∈ back := by
  have hin : ∀ s, isIn { p with mandatory := false } s = true := by
    intro s
    simp [isIn, all, SetMembership.contains]
  rw [joinSets_append, joinSets_mandatory all mandatory h, joinSets_cons,
    joinSet_forgets all mandatory, isMandatoryIn_joinSets_iff (fun s _ => hin s) (by simp)
      (isIn_joinSets.2 (.inl (hin other)))]
  simp [hin, isMandatoryIn]

end Forgets

/-! ## What the joins make of a parameter -/

/-- After the joins the parameter is mandatory in just those of its sets in which it was so before,
and those joined so. -/
def MandatoryAsJoined (p : Parameter) (joins : List (String × Bool)) : Prop :=
  ∀ s, (p.joinSets joins).isIn s = true →
    ((p.joinSets joins).isMandatoryIn s = true ↔
      p.isIn s = true ∧ p.isMandatoryIn s = true ∨ (s, true) ∈ joins)

theorem exists_first_optional (h : ∃ s, (s, false) ∈ joins) :
    ∃ front s back, joins = front ++ (s, false) :: back ∧ ∀ join ∈ front, join.2 = true := by
  induction joins with
  | nil => simp at h
  | cons join rest ih =>
    obtain ⟨set, mandatory⟩ := join
    cases mandatory with
    | false => exact ⟨[], set, rest, rfl, by simp⟩
    | true =>
      obtain ⟨s, hs⟩ := h
      obtain ⟨front, first, back, rfl, hfront⟩ := ih ⟨s, by simpa using hs⟩
      exact ⟨(set, true) :: front, first, back, rfl, List.forall_mem_cons.2 ⟨rfl, hfront⟩⟩

/-- A parameter of all sets that was mandatory everywhere is not so in every set it should be, once
it has joined a set as optional. -/
theorem not_mandatoryAsJoined (all : p.membership = .all) (mandatory : p.mandatory = true)
    (h : ∃ s, (s, false) ∈ joins) : ¬ p.MandatoryAsJoined joins := by
  obtain ⟨front, set, back, rfl, hfront⟩ := exists_first_optional h
  intro hjoined
  let listed := p.mandatoryIn.names ++ back.map (·.1)
  let other := Naming.freshName "" listed
  have hfree : other ∉ listed := Naming.freshName_not_mem "" listed
  rw [List.mem_append, not_or] at hfree
  have hin : p.isIn other = true := by simp [isIn, all, SetMembership.contains]
  have hbefore : p.isMandatoryIn other = true := by simp [isMandatoryIn, mandatory]
  have hafter := (hjoined other (isIn_joinSets.2 (.inl hin))).2 (.inl ⟨hin, hbefore⟩)
  rcases (isMandatoryIn_joinSets_of_forgets all mandatory hfront).1 hafter with hlisted | hback
  · exact hfree.1 hlisted
  · exact hfree.2 (List.mem_map.2 ⟨_, hback, rfl⟩)

/-- After joining sets in turn, a parameter is used in its sets from before and those joined. It is
mandatory where it was and where it was joined so, but for one case: mandatory in all sets there
are, it forgets this at the first join as optional, and is mandatory then only in the sets that
were listed besides and in those joined as mandatory from there on. -/
theorem mandatoryAsJoined_iff (p : Parameter) (kept : ∀ s ∈ p.mandatoryIn, p.isIn s = true)
    (joins : List (String × Bool)) :
    (∀ s, (p.joinSets joins).isIn s = true ↔
      p.isIn s = true ∨ ∃ mandatory, (s, mandatory) ∈ joins) ∧
    (p.MandatoryAsJoined joins ↔
      ¬ (p.membership = .all ∧ p.mandatory = true ∧ ∃ s, (s, false) ∈ joins)) ∧
    ∀ front set back, joins = front ++ (set, false) :: back → (∀ join ∈ front, join.2 = true) →
      p.membership = .all → p.mandatory = true →
        ∀ s, (p.joinSets joins).isMandatoryIn s = true ↔
          s ∈ p.mandatoryIn ∨ (s, true) ∈ back := by
  refine ⟨fun s => isIn_joinSets, ⟨?_, fun h s hs => ?_⟩, ?_⟩
  · rintro hjoined ⟨all, mandatory, hoptional⟩
    exact not_mandatoryAsJoined all mandatory hoptional hjoined
  · refine isMandatoryIn_joinSets_iff kept (fun all mandatory join hmem => ?_) hs
    by_contra hoptional
    rw [Bool.not_eq_true] at hoptional
    exact h ⟨all, mandatory, join.1, hoptional ▸ hmem⟩
  · rintro front set back rfl hfront all mandatory s
    exact isMandatoryIn_joinSets_of_forgets all mandatory hfront

/-- An argument of a function that is mandatory in its set. -/
def titleArgument : Parameter where
  name := "Title"
  type := .primitive .string
  location := .functionArgument
  mandatory := true
  membership := .only (.ofList ["Find"])

/-- The argument joins a second set as optional and a third one as mandatory. -/
theorem mandatoryAsJoined_titleArgument :
    (∀ s ∈ titleArgument.mandatoryIn, titleArgument.isIn s = true) ∧
      titleArgument.MandatoryAsJoined [("FindYear", false), ("FindPlace", true)] ∧
      ["Find", "FindYear", "FindPlace", "Other"].map
          (titleArgument.joinSets [("FindYear", false), ("FindPlace", true)]).isMandatoryIn =
        [true, false, true, false] := by
  have kept : ∀ s ∈ titleArgument.mandatoryIn, titleArgument.isIn s = true := by
    intro s hs
    cases hs
  obtain ⟨-, hjoined, -⟩ :=
    mandatoryAsJoined_iff titleArgument kept [("FindYear", false), ("FindPlace", true)]
  refine ⟨kept, hjoined.2 ?_, by decide +kernel⟩
  rintro ⟨hall, -⟩
  cases hall

/-- A query option that is mandatory in all sets there are. -/
def topOption : Parameter where
  name := "Top"
  type := .primitive .int32
  location := .query
  mandatory := true

/-- The option joins one of the sets as optional, and is optional then in the others too. -/
theorem not_mandatoryAsJoined_topOption :
    (∀ s ∈ topOption.mandatoryIn, topOption.isIn s = true) ∧
      topOption.isIn "Get" = true ∧ topOption.isMandatoryIn "Get" = true ∧
      (topOption.joinSets [("Search", false)]).isIn "Get" = true ∧
      (topOption.joinSets [("Search", false)]).isMandatoryIn "Get" = false ∧
      ¬ topOption.MandatoryAsJoined [("Search", false)] := by
  have kept : ∀ s ∈ topOption.mandatoryIn, topOption.isIn s = true := by
    intro s hs
    cases hs
  have hafter : (topOption.joinSets [("Search", false)]).isMandatoryIn "Get" = false := by
    decide +kernel
  refine ⟨kept, rfl, rfl, rfl, hafter, fun hjoined => ?_⟩
  rw [(hjoined "Get" rfl).2 (.inl ⟨rfl, rfl⟩)] at hafter
  cases hafter

end Parameter
end EdmCommands
