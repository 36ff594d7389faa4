import EdmCommands.Proofs.Route.Rendered
import EdmCommands.Proofs.Synthesis.Commands

/-!
# EdmCommands.Proofs.Synthesis.Address

The placeholders in the text of an address and the path parameters of its command are the same in
the same order.

* `tokens_urlParts`: what the parts of an address are read as.
* `terminalId_not_mem_pathParameters`: the identifier of the last segment has no namesake.
* `AgreesOn`: what a command says about its address; `agreesOn_of_isMade` that all commands do.
-/

namespace EdmCommands
namespace Synthesis

open Schema Text
open Route (Rendered Segment IdPlaceholder TypecastPlaceholder TerminalId Token tokens Closed
  WellNamed NamesFree placeholderNames IsPlaceholderName)

variable {g : Graph} {t : Target} {c : Command}

/-! ## Parts of an address -/

def tokenOf (p : Parameter) : Token :=
  ⟨p.name, decide (p.membership ≠ .all)⟩

@[simp] theorem tokenOf_idParameter (segment : String) (id : IdPlaceholder) :
    tokenOf (idParameter segment id) = ⟨id.name, false⟩ := by
  simp [tokenOf, idParameter]

@[simp] theorem tokenOf_typecastParameter (segment : String)
    (cast : TypecastPlaceholder) :
    tokenOf (typecastParameter segment cast) = ⟨cast.name, false⟩ := by
  simp [tokenOf, typecastParameter]

/-- The token of an identifier that may stay empty stands at the end. -/
def optionalTokens (segments : List Segment) : TerminalId → List Token
  | .optional => ((segments.getLast?.bind (·.id)).map fun id => ⟨id.name, true⟩).toList
  | _ => []

theorem tokens_typecast {s : Segment}
    (h : ∀ name ∈ s.placeholderNames, IsPlaceholderName name) :
    (∀ part ∈ (s.typecast.map fun cast => Rendered.placeholder cast.name).toList, Closed part) ∧
      (s.typecast.map fun cast => Rendered.placeholder cast.name).toList.flatMap tokens =
        (s.typecast.map (typecastParameter s.name)).toList.map tokenOf := by
  cases hcast : s.typecast with
  | none => simp
  | some cast =>
    have := Route.tokens_placeholder (h cast.name (by simp [Segment.placeholderNames, hcast]))
    simpa using this

theorem tokens_idToken {s : Segment} (h : ∀ name ∈ s.placeholderNames, IsPlaceholderName name)
    (last : Bool) (id : TerminalId) :
    (∀ part ∈ (s.id.map (Rendered.idToken last id)).getD [], Closed part) ∧
      ((s.id.map (Rendered.idToken last id)).getD []).flatMap tokens =
        ((if last && !(id == .mandatory) then none else s.id).map
          (idParameter s.name)).toList.map tokenOf ++
          if last then optionalTokens [s] id else [] := by
  cases hid : s.id with
  | none => cases id <;> cases last <;> simp [optionalTokens, hid]
  | some placeholder =>
    have hname : IsPlaceholderName placeholder.name :=
      h placeholder.name (by simp [Segment.placeholderNames, hid])
    have hmandatory := Route.tokens_placeholder hname
    have hoptional := Route.tokens_optionalPlaceholder hname.free
    cases last with
    | false => simpa [Rendered.idToken] using hmandatory
    | true =>
      cases id with
      | omitted => simp [Rendered.idToken, optionalTokens]
      | mandatory => simpa [Rendered.idToken, optionalTokens] using hmandatory
      | optional => simpa [Rendered.idToken, optionalTokens, hid] using hoptional

theorem tokens_urlParts {segments : List Segment} (h : WellNamed segments) (id : TerminalId) :
    (∀ part ∈ Rendered.urlParts id segments, Closed part) ∧
      (Rendered.urlParts id segments).flatMap tokens =
        (pathParameters (id == .mandatory) segments).map tokenOf ++ optionalTokens segments id := by
  induction segments with
  | nil => cases id <;> simp [Rendered.urlParts, pathParameters, optionalTokens]
  | cons s rest ih =>
    obtain ⟨hclosed, hrest⟩ := ih h.tail
    have hname : BraceFree s.name := h.names s List.mem_cons_self
    have own : ∀ name ∈ s.placeholderNames, IsPlaceholderName name := fun name hn =>
      h.placeholders name (List.mem_append_left _ hn)
    obtain ⟨hidClosed, hid⟩ := tokens_idToken own rest.isEmpty id
    obtain ⟨hcastClosed, hcast⟩ := tokens_typecast own
    rw [Rendered.urlParts, List.forall_mem_cons, List.forall_mem_append, List.forall_mem_append]
    refine ⟨⟨.of_free hname, ⟨hidClosed, hcastClosed⟩, hclosed⟩, ?_⟩
    rw [List.flatMap_cons, List.flatMap_append, List.flatMap_append, hid, hcast, hrest,
      Route.tokens_free hname, List.nil_append, pathParameters, List.map_append, List.map_append]
    cases rest with
    | nil =>
      -- A cast behind the last segment would stand behind its optional identifier.
      have huncast : s.typecast = none := h.uncast s rfl
      cases id <;> simp [huncast, optionalTokens, pathParameters]
    | cons next rest => cases id <;> simp [optionalTokens]

/-! ## The identifier of the last segment -/

theorem map_name_idParameter (segment : String) (id : Option IdPlaceholder) :
    (id.map (idParameter segment)).toList.map (·.name) = (id.map (·.name)).toList := by
  cases id <;> simp

theorem map_name_typecastParameter (segment : String) (cast : Option TypecastPlaceholder) :
    (cast.map (typecastParameter segment)).toList.map (·.name) = (cast.map (·.name)).toList := by
  cases cast <;> simp

theorem map_name_pathParameters (segments : List Segment) :
    (pathParameters true segments).map (·.name) = placeholderNames segments := by
  induction segments with
  | nil => rfl
  | cons s rest ih =>
    rw [pathParameters, List.map_append, List.map_append, map_name_typecastParameter, ih]
    simp only [Bool.not_true, Bool.and_false, Bool.false_eq_true, if_false]
    rw [map_name_idParameter]
    rfl

/-- The path parameters are placeholders of the route in their order. -/
theorem pathParameters_sublist (terminalId : Bool) (segments : List Segment) :
    ((pathParameters terminalId segments).map (·.name)).Sublist (placeholderNames segments) := by
  induction segments with
  | nil => exact .slnil
  | cons s rest ih =>
    rw [pathParameters, List.map_append, List.map_append, map_name_typecastParameter,
      placeholderNames, List.flatMap_cons]
    refine (List.Sublist.append ?_ (.refl _)).append ih
    split
    · exact List.nil_sublist _
    · rw [map_name_idParameter]

theorem mem_placeholderNames_iff {segments : List Segment} {name : String} :
    name ∈ placeholderNames segments ↔
      name ∈ (pathParameters false segments).map (·.name) ∨
        ∃ id, segments.getLast?.bind (·.id) = some id ∧ id.name = name := by
  induction segments with
  | nil => simp [placeholderNames, pathParameters]
  | cons s rest ih =>
    rw [placeholderNames, List.flatMap_cons, List.mem_append, ← placeholderNames, ih,
      pathParameters, List.map_append, List.map_append, map_name_typecastParameter]
    cases rest with
    | nil => simp [pathParameters, Segment.placeholderNames, or_comm]
    | cons next rest =>
      simp only [List.isEmpty_cons, Bool.false_and, Bool.false_eq_true, if_false]
      rw [map_name_idParameter, List.mem_append, List.getLast?_cons_cons, or_assoc]
      rfl

theorem terminalId_not_mem_pathParameters {segments : List Segment} {id : IdPlaceholder}
    (distinct : (placeholderNames segments).Nodup)
    (hid : segments.getLast?.bind (·.id) = some id) :
    id.name ∉ (pathParameters false segments).map (·.name) := by
  induction segments with
  | nil => cases hid
  | cons s rest ih =>
    rw [placeholderNames, List.flatMap_cons, List.nodup_append] at distinct
    rw [pathParameters, List.map_append, List.map_append, map_name_typecastParameter]
    cases rest with
    | nil =>
      have hid : s.id = some id := hid
      have disjoint := (List.nodup_append.1 distinct.1).2.2 id.name (by simp [hid]) id.name
      simpa [pathParameters] using disjoint
    | cons next rest =>
      have hid : ((next :: rest).getLast?).bind (·.id) = some id := by simpa using hid
      have hlast : id.name ∈ placeholderNames (next :: rest) := by
        rw [← map_name_pathParameters]
        exact terminalId_mem_pathParameters hid
      have own : id.name ∉ s.placeholderNames := fun h => distinct.2.2 _ h _ hlast rfl
      simp only [List.isEmpty_cons, Bool.false_and, Bool.false_eq_true, if_false]
      rw [map_name_idParameter, List.mem_append, not_or]
      exact ⟨own, ih distinct.2.1 hid⟩

/-- A command with an address names the identifier of the last segment just when the address has
it. -/
theorem Addressed.id_iff {id : TerminalId} {tail : String} (h : Addressed t id tail c)
    (distinct : (placeholderNames t.route.segments).Nodup) (name : String) :
    c.idParameter = some name ↔
      name ∈ c.pathParameters.map (·.name) ∧ ∃ i ∈ t.route.terminalId, i.name = name := by
  constructor
  · intro hname
    refine ⟨h.id_mem_pathParameters hname, ?_⟩
    rw [h.id] at hname
    cases id with
    | omitted => cases hname
    | mandatory => exact Option.map_eq_some_iff.1 hname
    | optional => exact Option.map_eq_some_iff.1 hname
  · rintro ⟨hmem, i, hi, rfl⟩
    rw [h.id]
    cases id with
    | omitted =>
      rw [h.path] at hmem
      exact absurd hmem (terminalId_not_mem_pathParameters distinct hi)
    | mandatory => exact congrArg (Option.map _) hi
    | optional => exact congrArg (Option.map _) hi

/-! ## Agreement -/

/-- A placeholder of the address and the parameter it stands for. One that may stay empty is used in
the set that gets one entity and not by default, the others in all sets. -/
structure Fits (c : Command) (token : Token) (p : Parameter) : Prop where
  name : token.name = p.name
  mandatory : p.mandatory = true
  everywhere : token.isOptional = false → p.membership = .all
  getting : token.isOptional = true →
    p.membership = .only (.ofList ["Get"]) ∧
      ∀ s ∈ c.sets, s.isDefault = true → p.isIn s.name = false

/-- The address of a command and its path parameters agree, and it says which of them is the
identifier of the last segment. -/
structure AgreesOn (route : Rendered) (c : Command) : Prop where
  fits : List.Forall₂ (Fits c) (tokens c.urlTemplate) c.pathParameters
  names : (tokens c.urlTemplate).map (·.name) = c.pathParameters.map (·.name)
  distinct : ((tokens c.urlTemplate).map (·.name)).Nodup
  id : ∀ name, c.idParameter = some name ↔
    name ∈ (tokens c.urlTemplate).map (·.name) ∧ ∃ i ∈ route.terminalId, i.name = name

theorem Tail.free {tail : String} (h : Tail g tail) (hg : NamesFree g) : BraceFree tail := by
  cases h with
  | none => simp [BraceFree]
  | reference => simp [BraceFree, IsFree]
  | method hm =>
    exact .append (by simp [BraceFree, IsFree]) (qualify_free hg.space (hg.methods _ hm))

theorem Addressed.tokens_eq {id : TerminalId} {tail : String} (h : Addressed t id tail c)
    (hroute : WellNamed t.route.segments) (htail : BraceFree tail) :
    tokens c.urlTemplate = c.pathParameters.map tokenOf := by
  obtain ⟨hclosed, htokens⟩ := tokens_urlParts hroute id
  obtain ⟨hurl, heq⟩ := Route.tokens_intercalate hclosed
  rw [h.url, Rendered.urlTemplate, Route.tokens_append hurl, heq, htokens, Route.tokens_free htail,
    List.append_nil, h.path]
  cases id with
  | omitted => exact List.append_nil _
  | mandatory => exact List.append_nil _
  | optional =>
    have terminal : (t.route.terminalId.map fun id => Token.mk id.name true).toList =
        (t.route.terminalId.map fun id =>
          (idParameter t.name id).inSets ["Get"]).toList.map tokenOf := by
      cases t.route.terminalId <;> simp [tokenOf, Parameter.inSets]
    rw [addressParameters, List.map_append, ← terminal]
    rfl

/-- The path parameters are needed, and used everywhere unless the address can do without. -/
theorem of_mem_addressParameters {id : TerminalId} {p : Parameter}
    (h : p ∈ addressParameters t id) :
    p.mandatory = true ∧
      (p.membership = .all ∨ id = .optional ∧ p.membership = .only (.ofList ["Get"])) := by
  cases id with
  | omitted =>
    obtain ⟨_, hall, hmandatory⟩ := of_mem_pathParameters h
    exact ⟨hmandatory, .inl hall⟩
  | mandatory =>
    obtain ⟨_, hall, hmandatory⟩ := of_mem_pathParameters h
    exact ⟨hmandatory, .inl hall⟩
  | optional =>
    rcases List.mem_append.1 h with h | h
    · obtain ⟨_, hall, hmandatory⟩ := of_mem_pathParameters h
      exact ⟨hmandatory, .inl hall⟩
    · obtain ⟨i, _, rfl⟩ := Option.map_eq_some_iff.1 (Option.mem_toList.1 h)
      exact ⟨by simp [idParameter, Parameter.inSets], .inr ⟨rfl, rfl⟩⟩

theorem Made.fits {id : TerminalId} {tail : String} (h : Made t id tail c) {p : Parameter}
    (hp : p ∈ c.pathParameters) : Fits c (tokenOf p) p := by
  have hsearched := h.searched
  rw [h.addressed.path] at hp
  obtain ⟨hmandatory, hmembership⟩ := of_mem_addressParameters hp
  refine ⟨rfl, hmandatory, fun heverywhere => ?_, fun hgetting => ?_⟩
  · simpa [tokenOf] using heverywhere
  · have hsome : p.membership ≠ .all := by simpa [tokenOf] using hgetting
    obtain ⟨hid, hget⟩ := hmembership.resolve_left hsome
    refine ⟨hget, fun s hs hdefault => ?_⟩
    rw [hsearched hid s hs hdefault, Parameter.isIn, hget]
    decide

/-- The address of a command agrees with what it says about it, whatever stands behind the
segments. -/
theorem agreesOn_of_isMade (hg : NamesFree t.graph) (hroute : WellNamed t.route.segments)
    (h : IsMade t c) : AgreesOn t.route c := by
  obtain ⟨id, tail, htail, hmade⟩ := h
  have htokens := hmade.addressed.tokens_eq hroute (htail.free hg)
  have hnames : (tokens c.urlTemplate).map (·.name) = c.pathParameters.map (·.name) := by
    rw [htokens, List.map_map]
    rfl
  refine ⟨?_, hnames, ?_, fun name => ?_⟩
  · rw [htokens, List.forall₂_map_left_iff, List.forall₂_same]
    exact fun p hp => hmade.fits hp
  · rw [hnames]
    exact hmade.valid.names.sublist (List.filter_sublist.map _)
  · rw [hnames]
    exact hmade.addressed.id_iff hroute.distinct name

end Synthesis
end EdmCommands
