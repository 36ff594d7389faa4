import EdmCommands.Config
import EdmCommands.Schema.Hierarchy

/-!
# EdmCommands.Route.Step

The steps that a route is made of. A route starts at an entry point of the container and goes on
along properties whose type is a class of entities; a property declared on a derived class is
reached by casting the segment before it. A property occurs at most once on a route, so a class
that refers to itself is followed once around and no further.

* `Step`: a property and the cast that leads to it; a path is a list of steps.
* `accept`: whether a path is a route, and which of its segments are entity collections.
* `continuations`: the steps that can follow a path.
* `follow`: both in one, for the step at the end of a path.
-/

namespace EdmCommands
namespace Route

open Schema

structure Cast where
  target : ClassId
  /-- The placeholder is named after the class, because a sibling class declares a property of the
  same name. -/
  byType : Bool
deriving Repr, DecidableEq

/-- A property on a path, and the cast of the segment before it. -/
structure Step where
  property : PropertyId
  cast : Option Cast := none
deriving Repr, DecidableEq

def pathNames (g : Graph) : List Step → Except Fault (List String)
  | [] => .ok []
  | step :: rest =>
    match g.propertyAt step.property with
    | .error fault => .error fault
    | .ok p =>
      match pathNames g rest with
      | .error fault => .error fault
      | .ok names => .ok (p.name :: names)

/-- Whether a property is a collection of entities. Such a collection needs a key, by which its
entities are addressed. -/
def isEntitySegment (g : Graph) (id : PropertyId) : Except Fault Bool :=
  match g.propertyAt id with
  | .error fault => .error fault
  | .ok p =>
    match p.type with
    | .structured target =>
      match g.classAt target with
      | .error fault => .error fault
      | .ok c =>
        if p.isCollection && c.isEntity then
          match g.keyProperty target with
          | .error fault => .error fault
          | .ok (some _) => .ok true
          | .ok none =>
            match g.canonicalName id with
            | .error fault => .error fault
            | .ok name => .error (.schema name (.keylessCollection c.name))
        else .ok false
    | _ => .ok false

/-- Whether the path that goes on with `step` is a route: the indices of its entity collections,
given those before, or nothing when the settings leave it out. -/
def accept (g : Graph) (config : Config) (before : List Step) (idSegments : List Nat)
    (step : Step) :
    Except Fault (Option (List Nat)) :=
  match pathNames g (before ++ [step]) with
  | .error fault => .error fault
  | .ok names =>
    if config.isRouteExcluded ("/".intercalate names) then .ok none
    else
      match isEntitySegment g step.property with
      | .error fault => .error fault
      | .ok true => .ok (some (idSegments ++ [before.length]))
      | .ok false => .ok (some idSegments)

/-- The properties in a list that are navigated along, those with a class of entities as type. -/
def navigations (g : Graph) : List PropertyId → Except Fault (List PropertyId)
  | [] => .ok []
  | id :: rest =>
    match g.propertyAt id with
    | .error fault => .error fault
    | .ok p =>
      match g.isEntityType p.type with
      | .error fault => .error fault
      | .ok isEntity =>
        match navigations g rest with
        | .error fault => .error fault
        | .ok others => .ok (if isEntity then id :: others else others)

/-- The navigation properties of a class: its own and inherited ones, then those of the classes
derived from it, nearest first, each with the class that declares it. -/
def candidates (g : Graph) (id : ClassId) :
    Except Fault (List (PropertyId × Option ClassId)) :=
  match g.allProperties id with
  | .error fault => .error fault
  | .ok properties =>
    match navigations g properties with
    | .error fault => .error fault
    | .ok here =>
      let declared := fun (derived : ClassId) (c : StructuredType) =>
        (navigations g c.properties).map fun ids => ids.map fun p => (p, some derived)
      match g.collectBelow declared id [] with
      | .error fault => .error fault
      | .ok below => .ok (here.map (fun p => (p, none)) ++ below)

structure Candidate where
  name : String
  property : PropertyId
  cast : Option ClassId
deriving Repr, DecidableEq

def nameCandidates (g : Graph) :
    List (PropertyId × Option ClassId) → Except Fault (List Candidate)
  | [] => .ok []
  | (property, cast) :: rest =>
    match g.propertyAt property with
    | .error fault => .error fault
    | .ok p =>
      match nameCandidates g rest with
      | .error fault => .error fault
      | .ok others => .ok (⟨p.name, property, cast⟩ :: others)

theorem mem_of_nameCandidates {g : Graph} {found : List (PropertyId × Option ClassId)}
    {all : List Candidate} (h : nameCandidates g found = .ok all) {c : Candidate} (hc : c ∈ all) :
    (c.property, c.cast) ∈ found ∧ ∃ p, g.propertyAt c.property = .ok p ∧ p.name = c.name := by
  induction found generalizing all with
  | nil => cases h; cases hc
  | cons head rest ih =>
    obtain ⟨property, cast⟩ := head
    simp only [nameCandidates] at h
    split at h
    · cases h
    · rename_i p hp
      split at h
      · cases h
      · rename_i others hothers
        cases h
        rcases List.mem_cons.1 hc with rfl | hc
        · exact ⟨List.mem_cons_self, p, hp, rfl⟩
        · have := ih hothers hc
          exact ⟨List.mem_cons_of_mem _ this.1, this.2⟩

def isDeclaredTwice (all : List Candidate) (name : String) : Bool :=
  let declaring := all.filterMap fun c => if c.name == name then c.cast else none
  declaring.eraseDups.length > 1

structure NamedStep where
  name : String
  step : Step
deriving Repr, DecidableEq

/-- The steps that can follow a path, those along own and inherited properties first. -/
def continuations (g : Graph) (config : Config) (steps : List Step) (last : PropertyId) :
    Except Fault (List NamedStep) :=
  match g.propertyAt last with
  | .error fault => .error fault
  | .ok p =>
    match p.type with
    | .structured target =>
      if config.maxRouteDepth.any (· ≤ steps.length) then .ok []
      else
        match candidates g target with
        | .error fault => .error fault
        | .ok found =>
          match nameCandidates g found with
          | .error fault => .error fault
          | .ok all =>
            let fresh := all.filter fun c => !(steps.map (·.property)).contains c.property
            .ok (fresh.map fun c =>
              { name := c.name
                step :=
                  { property := c.property
                    cast := c.cast.map fun target => ⟨target, isDeclaredTwice all c.name⟩ } })
    | _ => .ok []

/-- A step that can follow a path goes on along a property that is there and not on the path. -/
theorem fresh_of_mem_continuations {g : Graph} {config : Config} {steps : List Step}
    {last : PropertyId} {following : List NamedStep}
    (h : continuations g config steps last = .ok following) {next : NamedStep}
    (hnext : next ∈ following) :
    next.step.property.index < g.properties.size ∧
      next.step.property ∉ steps.map (·.property) := by
  unfold continuations at h
  split at h
  · cases h
  split at h
  · split at h
    · cases h; cases hnext
    split at h
    · cases h
    split at h
    · cases h
    rename_i all hall
    cases h
    obtain ⟨c, hc, rfl⟩ := List.mem_map.1 hnext
    obtain ⟨hc, hfresh⟩ := List.mem_filter.1 hc
    obtain ⟨_, p, hp, _⟩ := mem_of_nameCandidates hall hc
    refine ⟨(Array.getElem?_eq_some_iff.1 ((g.propertyAt_eq_ok_iff).1 hp)).1, ?_⟩
    simpa using hfresh
  · cases h; cases hnext

/-- What the path that goes on with `step` leads to: nothing when it is no route, else its entity
collections and the steps that can follow it. -/
def follow (g : Graph) (config : Config) (before : List Step) (idSegments : List Nat)
    (step : Step) : Except Fault (Option (List Nat × List NamedStep)) :=
  match accept g config before idSegments step with
  | .error fault => .error fault
  | .ok none => .ok none
  | .ok (some ids) =>
    match continuations g config (before ++ [step]) step.property with
    | .error fault => .error fault
    | .ok following => .ok (some (ids, following))

end Route
end EdmCommands
