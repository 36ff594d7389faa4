import EdmCommands.Cli
import EdmCommands.Proofs.Renaming
import EdmCommands.Proofs.Route.Restriction
import EdmCommands.Proofs.Synthesis.Heads

/-!
# EdmCommands.Proofs.Listing

How the commands of a generation are listed. Routes are compared by their texts, and a filter by
the text of its names, yet neither can confuse two routes: no two routes have one text, and names
without slashes can be told from their text.

* `sections`: what is read off the lines of a listing, headed by the lines behind empty ones.
* `Shows`: some lines show some routes, each with its commands.
* `heading`: what renaming and linking leave of a command.
* `Grouped`: the commands of one route.
* `Listed`: the commands of an output stand route by route, and the listing has each of them once.
* `isUnder_intercalate_iff`: a text begins with another one as their names do.
* `ShowsBelow`: the routes that a filter shows.
* `listed_of_run`: so for all that a generation yields.
-/

namespace EdmCommands

namespace Config

/-- Where names have no slashes, one path is under another just when its names begin with those of
the other one. -/
theorem isUnder_intercalate_iff {names path : List String} (hnames : names ≠ []) (hpath : path ≠ [])
    (free : ∀ name ∈ names, '/' ∉ name.toList) (freePath : ∀ name ∈ path, '/' ∉ name.toList) :
    isUnder ("/".intercalate names) ("/".intercalate path) = true ↔ names <+: path := by
  constructor
  · intro h
    simp only [isUnder, Bool.or_eq_true, beq_iff_eq, Option.any_eq_true,
      Text.stripStart?_eq_some_iff] at h
    rcases h with heq | ⟨tail, heq, hslash⟩
    · exact (Route.parts_eq_of_intercalate_eq hpath hnames freePath free heq) ▸ List.prefix_rfl
    · obtain ⟨rest, hrest⟩ := List.head?_eq_some_iff.1 hslash
      -- the text is cut at the same slashes as that of the names in front, and at the next one
      have hcut : path.map String.toList = names.map String.toList ++ rest.splitOn '/' := by
        rw [← Route.splitOn_intercalate hpath freePath, heq, String.toList_append, hrest,
          List.splitOn_append_cons_self, Route.splitOn_intercalate hnames free]
      have injective : Function.Injective String.toList := fun _ _ => String.toList_inj.1
      exact (List.prefix_map_iff_of_injective injective).1 ⟨_, hcut.symm⟩
  · rintro ⟨rest, rfl⟩
    have self : isUnder ("/".intercalate names) ("/".intercalate names) = true := by
      simp [isUnder]
    by_cases hrest : rest = []
    · rwa [hrest, List.append_nil]
    · rw [Route.intercalate_append hnames hrest]
      exact isUnder_append self _

end Config

namespace Cli

open Route (Rendered)

/-- What is read off the lines of a listing. A section starts at an empty line, is headed by the
line behind it, and has the lines up to the next empty one. -/
def sections : List String → List (String × List String)
  | line :: heading :: rest =>
    if line = "" then (heading, rest.takeWhile (· ≠ "")) :: sections rest
    else sections (heading :: rest)
  | _ => []

def isBullet (line : String) : Bool :=
  "  • ".toList.isPrefixOf line.toList

def bullet (c : Command) : String :=
  "  • " ++ c.name.full ++ " " ++ c.httpMethod.name ++ " " ++ c.urlTemplate

def countLine (entries : List (Rendered × List Command)) : String :=
  "✓ " ++ toString (entries.flatMap (·.2)).length ++ " commands"

/-- The lines show some routes, each with its commands, and their number below. -/
structure Shows (verbose : Bool) (lines : List String) (entries : List (Rendered × List Command)) :
    Prop where
  printed : lines =
    entries.flatMap (fun (route, commands) =>
      "" :: route.text :: commands.flatMap (commandLines verbose)) ++ ["", countLine entries]
  /-- The headings are the texts of these routes, and of no others. -/
  headings : (sections lines).map (·.1) = entries.map (·.1.text) ++ [countLine entries]
  /-- Below its heading a route has a bullet for each of its commands, in order. -/
  bullets : (sections lines).map (fun s => s.2.filter isBullet) =
    entries.map (fun entry => entry.2.map bullet) ++ [[]]

variable {line heading : String} {lines rest : List String} {verbose : Bool} {c : Command}

theorem sections_cons_of_ne (h : line ≠ "") : sections (line :: rest) = sections rest := by
  cases rest with
  | nil => rfl
  | cons heading rest => rw [sections, if_neg h]

theorem sections_append (h : ∀ line ∈ lines, line ≠ "") :
    sections (lines ++ rest) = sections rest := by
  induction lines with
  | nil => rfl
  | cons line lines ih =>
    rw [List.forall_mem_cons] at h
    rw [List.cons_append, sections_cons_of_ne h.1, ih h.2]

/-- A block without empty lines is a section, where an empty line is behind it. -/
theorem sections_block (h : ∀ line ∈ lines, line ≠ "") :
    sections ("" :: heading :: (lines ++ "" :: rest)) =
      (heading, lines) :: sections ("" :: rest) := by
  have hlines : (lines ++ "" :: rest).takeWhile (· ≠ "") = lines := by
    rw [List.takeWhile_append_of_pos (by simpa using h)]
    simp
  rw [sections, if_pos rfl, hlines, sections_append h]

theorem commandLines_eq (verbose : Bool) (c : Command) :
    commandLines verbose c = bullet c :: if verbose then setLines c else [] :=
  rfl

/-- The lines of the sets are set in further than those of the commands. -/
theorem exists_of_mem_setLines (h : line ∈ setLines c) :
    ∃ text, line = "      " ++ text := by
  obtain ⟨s, _, h⟩ := List.mem_flatMap.1 h
  rcases List.mem_cons.1 h with rfl | h
  · exact ⟨s.name ++ if s.isDefault then " (default)" else "", String.append_assoc ..⟩
  · obtain ⟨p, _, rfl⟩ := List.mem_map.1 h
    refine ⟨"  -" ++ p.name ++ (if p.isMandatoryIn s.name then "*" else "") ++
      " [" ++ p.type.display ++ "]", ?_⟩
    simp only [parameterLine, ← String.append_assoc]
    rfl

theorem ne_empty_of_mem_commandLines (h : line ∈ commandLines verbose c) : line ≠ "" := by
  rw [commandLines_eq] at h
  rcases List.mem_cons.1 h with rfl | h
  · simp [bullet]
  · split at h
    · obtain ⟨text, rfl⟩ := exists_of_mem_setLines h
      simp
    · cases h

theorem filter_commandLines : (commandLines verbose c).filter isBullet = [bullet c] := by
  have own : isBullet (bullet c) = true := by
    simp only [isBullet, bullet, String.toList_append, List.append_assoc]
    exact List.isPrefixOf_iff_prefix.2 (List.prefix_append _ _)
  have sets : (setLines c).filter isBullet = [] := by
    rw [List.filter_eq_nil_iff]
    intro line hline
    obtain ⟨text, rfl⟩ := exists_of_mem_setLines hline
    rw [isBullet, String.toList_append]
    exact Bool.false_ne_true
  rw [commandLines_eq, List.filter_cons_of_pos own]
  split
  · rw [sets]
  · rfl

/-- What is read off a listing is what it was made of. -/
theorem sections_blocks {count : String} (entries : List (Rendered × List Command)) :
    sections (entries.flatMap (fun (route, commands) =>
      "" :: route.text :: commands.flatMap (commandLines verbose)) ++ ["", count]) =
      entries.map (fun (route, commands) =>
        (route.text, commands.flatMap (commandLines verbose))) ++ [(count, [])] := by
  induction entries with
  | nil => rfl
  | cons entry entries ih =>
    obtain ⟨route, commands⟩ := entry
    have nonempty : ∀ line ∈ commands.flatMap (commandLines verbose), line ≠ "" := by
      intro line hline
      obtain ⟨c, _, hline⟩ := List.mem_flatMap.1 hline
      exact ne_empty_of_mem_commandLines hline
    -- an empty line is behind the block, that of the next route or of the count
    obtain ⟨rest, hrest⟩ : ∃ rest, entries.flatMap (fun (route, commands) =>
        "" :: route.text :: commands.flatMap (commandLines verbose)) ++ ["", count] =
        "" :: rest := by
      cases entries with
      | nil => exact ⟨_, rfl⟩
      | cons _ _ => exact ⟨_, rfl⟩
    rw [hrest] at ih
    rw [List.flatMap_cons, List.append_assoc, hrest]
    exact (sections_block nonempty).trans (congrArg _ ih)

theorem shows_listing {output : Generation.Output} {filter : Option String}
    {entries : List (Rendered × List Command)}
    (h : (Generation.commandsByRoute output).filter (fun entry => isWanted filter entry.1) =
      entries) (verbose : Bool) :
    Shows verbose (listing output filter verbose) entries := by
  have printed : listing output filter verbose =
      entries.flatMap (fun (route, commands) =>
        "" :: route.text :: commands.flatMap (commandLines verbose)) ++
          ["", countLine entries] := by
    rw [← h]
    rfl
  refine ⟨printed, ?_, ?_⟩
  · rw [printed, sections_blocks, List.map_append, List.map_map]
    rfl
  · rw [printed, sections_blocks, List.map_append, List.map_map]
    refine congrArg (· ++ [[]]) (List.map_congr_left fun entry _ => ?_)
    rw [Function.comp_apply, List.filter_flatMap, List.map_eq_flatMap]
    simp only [filter_commandLines]

end Cli

namespace Route

open Schema

variable {g : Graph} {config : Config}

/-- The names of segments are names of properties. -/
theorem name_of_renderFrom {ids : List Nat} {index : Nat} {taken : List String}
    {steps : List Step} {segments : List Segment}
    (h : renderFrom g config ids index taken steps = .ok segments) :
    ∀ s ∈ segments, ∃ p ∈ g.properties, p.name = s.name := by
  induction steps generalizing index taken segments with
  | nil =>
    cases h
    simp
  | cons step steps ih =>
    obtain ⟨p, id, typecast, others, hp, _, _, _, _, hothers, rfl⟩ :=
      renderFrom_cons_eq_ok_iff.1 h
    rw [List.forall_mem_cons]
    refine ⟨⟨p, ?_, rfl⟩, ih hothers⟩
    rw [g.propertyAt_eq_ok_iff] at hp
    exact Array.mem_of_getElem? hp

theorem segments_of_ofNode {n : Node} {r : Rendered} (h : Rendered.ofNode g config n = .ok r) :
    r.segments ≠ [] ∧ ∀ s ∈ r.segments, ∃ p ∈ g.properties, p.name = s.name := by
  obtain ⟨segments, hsegments, rfl⟩ := Fallible.map_eq_ok_iff.1 h
  refine ⟨?_, name_of_renderFrom hsegments⟩
  rintro rfl
  cases hsteps : n.steps with
  | nil => simp [Node.steps] at hsteps
  | cons step rest =>
    rw [hsteps] at hsegments
    obtain ⟨_, _, _, _, _, _, _, _, _, _, hcons⟩ := renderFrom_cons_eq_ok_iff.1 hsegments
    cases hcons

end Route

namespace Generation

open Schema
open Route (Rendered)

/-- What renaming and linking leave of a command: its verb, its operation and its route. -/
def heading (c : Command) : Verb × OperationKind × String :=
  (c.name.verb, c.operation, c.route)

/-- The commands of a route: one that reads its resource, then those that do something else there;
all of them have the text of the route. -/
structure Grouped (route : Rendered) (group : List Command) : Prop where
  read_first : ∃ read rest, group = read :: rest ∧ Synthesis.Reads read ∧
    ∀ c ∈ rest, c.name.verb ≠ .get
  routed : ∀ c ∈ group, c.route = route.text

/-- The commands of an output stand in groups, in the order of its routes, and the listing shows
each of them behind one route. -/
structure Listed (output : Output) (groups : List (List Command)) : Prop where
  grouped : List.Forall₂ Grouped output.routes groups
  commands : output.commands = groups.flatten
  byRoute : commandsByRoute output = output.routes.zip groups
  all : (commandsByRoute output).flatMap (·.2) = output.commands
  once : ∀ c ∈ output.commands, ∃! entry, entry ∈ commandsByRoute output ∧ c ∈ entry.2
  listing : ∀ verbose,
    Cli.Shows verbose (Cli.listing output none verbose) (output.routes.zip groups)

/-- The filter by the path of some names shows the routes that begin with them. -/
structure ShowsBelow (output : Output) (groups : List (List Command)) (names : List String) :
    Prop where
  wanted : ∀ route ∈ output.routes,
    Cli.isWanted (some ("/".intercalate names)) route = true ↔
      names <+: route.segments.map (·.name)
  listing : ∀ verbose,
    Cli.Shows verbose (Cli.listing output (some ("/".intercalate names)) verbose)
      ((output.routes.zip groups).filter fun entry => names <+: entry.1.segments.map (·.name))

variable {g : Graph} {config : Config} {output : Output} {c c' : Command}
  {commands group group' : List Command} {route : Rendered}

/-! ## Groups -/

theorem SameButNoun.heading_eq (h : SameButNoun c c') : heading c' = heading c := by
  rw [h]
  rfl

theorem Relinked.heading_eq (h : Relinked c c') : heading c' = heading c := by
  rw [h]
  rfl

theorem headings_of_linkReferences
    (h : linkReferences g (distinctNames commands) = .ok group) :
    group.map heading = commands.map heading := by
  have named : (distinctNames commands).map heading = commands.map heading :=
    Fallible.map_eq_map_of_forall₂
      (sameButNoun_renameRepeated (commands.map fun c => c.name.full) [] commands)
      fun _ _ => SameButNoun.heading_eq
  have linked : group.map heading = (distinctNames commands).map heading :=
    Fallible.map_eq_map_of_forall₂ (Fallible.forall₂_of_mapM_eq_ok h) fun _ _ hlink =>
      (relinked_of_linkReference hlink).heading_eq
  exact linked.trans named

theorem Reads.of_heading (h : Synthesis.Reads c) (heq : heading c' = heading c) :
    Synthesis.Reads c' := by
  have hverb : c'.name.verb = c.name.verb := congrArg (·.1) heq
  have hop : c'.operation = c.operation := congrArg (·.2.1) heq
  exact h.imp (fun hget => ⟨hverb.trans hget.verb, hop.trans hget.operation⟩)
    fun hsearch => ⟨hverb.trans hsearch.verb, hop.trans hsearch.operation⟩

theorem exists_of_headings (heq : group'.map heading = group.map heading) (hc' : c' ∈ group') :
    ∃ c ∈ group, heading c = heading c' := by
  have hmem := List.mem_map_of_mem (f := heading) hc'
  rw [heq] at hmem
  exact List.mem_map.1 hmem

theorem Grouped.congr (h : Grouped route group) (heq : group'.map heading = group.map heading) :
    Grouped route group' := by
  refine ⟨?_, fun c' hc' => ?_⟩
  · obtain ⟨read, rest, rfl, hread, hrest⟩ := h.read_first
    rw [List.map_cons] at heq
    obtain ⟨read', rest', rfl, hhead, htail⟩ := List.map_eq_cons_iff.1 heq
    refine ⟨read', rest', rfl, Reads.of_heading hread hhead, fun c' hc' => ?_⟩
    obtain ⟨c, hc, hsame⟩ := exists_of_headings htail hc'
    have hverb : c.name.verb = c'.name.verb := congrArg (·.1) hsame
    exact hverb ▸ hrest c hc
  · obtain ⟨c, hc, hsame⟩ := exists_of_headings heq hc'
    have hroute : c.route = c'.route := congrArg (·.2.2) hsame
    exact hroute ▸ h.routed c hc

/-- The commands that come from those of some routes stand in groups too. -/
theorem exists_groups {blocks : List (Rendered × List Command)}
    (hblocks : ∀ block ∈ blocks, Grouped block.1 block.2)
    (h : commands.map heading = (blocks.flatMap (·.2)).map heading) :
    ∃ groups, commands = groups.flatten ∧
      List.Forall₂ Grouped (blocks.map (·.1)) groups := by
  induction blocks generalizing commands with
  | nil =>
    rw [List.flatMap_nil, List.map_nil, List.map_eq_nil_iff] at h
    exact ⟨[], h, .nil⟩
  | cons block rest ih =>
    rw [List.forall_mem_cons] at hblocks
    rw [List.flatMap_cons, List.map_append] at h
    obtain ⟨front, later, rfl, hfront, hlater⟩ := List.map_eq_append_iff.1 h
    obtain ⟨groups, rfl, hgroups⟩ := ih hblocks.2 hlater
    exact ⟨front :: groups, rfl, .cons (hblocks.1.congr hfront) hgroups⟩

/-- Where the routes have distinct texts, a group is what has the text of its route. -/
theorem filter_flatten {routes : List Rendered} {groups : List (List Command)}
    (distinct : (routes.map (·.text)).Nodup) (h : List.Forall₂ Grouped routes groups) :
    routes.map (fun route => (route, groups.flatten.filter (·.route == route.text))) =
      routes.zip groups := by
  induction h with
  | nil => rfl
  | @cons route group routes groups hgroup hgroups ih =>
    rw [List.map_cons, List.nodup_cons] at distinct
    have own : group.filter (·.route == route.text) = group := by
      rw [List.filter_eq_self]
      simpa using hgroup.routed
    have foreign : groups.flatten.filter (·.route == route.text) = [] := by
      rw [List.filter_eq_nil_iff]
      intro c hc
      obtain ⟨other, hother, hmem⟩ := List.mem_flatten.1 hc
      obtain ⟨r, hr, hrouted⟩ := Fallible.exists_of_mem_right hgroups hother
      rw [beq_iff_eq, hrouted.routed c hmem]
      exact fun heq => distinct.1 (heq ▸ List.mem_map_of_mem hr)
    have skipped : ∀ r ∈ routes, (group ++ groups.flatten).filter (·.route == r.text) =
        groups.flatten.filter (·.route == r.text) := by
      intro r hr
      rw [List.filter_append, List.append_left_eq_self, List.filter_eq_nil_iff]
      intro c hc
      rw [beq_iff_eq, hgroup.routed c hc]
      exact fun heq => distinct.1 (heq ▸ List.mem_map_of_mem hr)
    rw [List.map_cons, List.flatten_cons, List.filter_append, own, foreign, List.append_nil,
      List.zip_cons_cons, ← ih distinct.2]
    refine congrArg _ (List.map_congr_left fun r hr => ?_)
    rw [skipped r hr]

theorem listed_of_grouped {groups : List (List Command)}
    (distinct : (output.routes.map (·.text)).Nodup)
    (hcommands : output.commands = groups.flatten)
    (h : List.Forall₂ Grouped output.routes groups) : Listed output groups := by
  have byRoute : commandsByRoute output = output.routes.zip groups := by
    rw [commandsByRoute, hcommands, filter_flatten distinct h]
  refine ⟨h, hcommands, byRoute, ?_, fun c hc => ?_, Cli.shows_listing ?_⟩
  · rw [byRoute, hcommands, List.flatMap_def, List.map_snd_zip h.length_eq.ge]
  · obtain ⟨group, hgroup, hmem⟩ := List.mem_flatten.1 (hcommands ▸ hc)
    obtain ⟨route, hroute, hgrouped⟩ := Fallible.exists_of_mem_right h hgroup
    have htext := hgrouped.routed c hmem
    refine ⟨(route, output.commands.filter (·.route == route.text)), ⟨?_, ?_⟩, ?_⟩
    · exact List.mem_map.2 ⟨route, hroute, rfl⟩
    · exact List.mem_filter.2 ⟨hc, beq_iff_eq.2 htext⟩
    · rintro entry ⟨hentry, hin⟩
      obtain ⟨r, hr, rfl⟩ := List.mem_map.1 hentry
      have hother : c.route = r.text := beq_iff_eq.1 (List.mem_filter.1 hin).2
      rw [List.inj_on_of_nodup_map distinct hr hroute (hother.symm.trans htext)]
  · rw [byRoute]
    exact List.filter_eq_self.2 fun _ _ => rfl

/-- The commands of a generation stand route by route. -/
theorem exists_listed_of_run (h : run g config = .ok output) :
    ∃ groups, Listed output groups := by
  obtain ⟨_, blocks, hroutes, hnodup, hblocks, hlink⟩ := blocks_of_run h
  have grouped : ∀ block ∈ blocks, Grouped block.1 block.2 := by
    intro block hblock
    obtain ⟨n, property, _, hmade⟩ := hblocks block hblock
    obtain ⟨p, read, rest, _, hcs, hread, hrest⟩ := Synthesis.heads_of_commands hmade
    refine ⟨⟨read, rest, hcs, hread, fun c hc => (hrest c hc).verb⟩, fun c hc => ?_⟩
    obtain ⟨q, hmade⟩ := Synthesis.made_of_commands hmade
    obtain ⟨_, _, _, hmade⟩ := hmade c hc
    exact hmade.addressed.route
  obtain ⟨groups, hcommands, hgroups⟩ := exists_groups grouped (headings_of_linkReferences hlink)
  refine ⟨groups, listed_of_grouped ?_ hcommands (hroutes ▸ hgroups)⟩
  rw [hroutes, List.map_map]
  exact hnodup

/-! ## Filters -/

theorem isWanted_iff_of_run (free : ∀ p ∈ g.properties, '/' ∉ p.name.toList)
    (h : run g config = .ok output) {names : List String} (hnames : names ≠ [])
    (hfree : ∀ name ∈ names, '/' ∉ name.toList) (hroute : route ∈ output.routes) :
    Cli.isWanted (some ("/".intercalate names)) route = true ↔
      names <+: route.segments.map (·.name) := by
  obtain ⟨_, blocks, hroutes, _, hblocks, _⟩ := blocks_of_run h
  rw [hroutes] at hroute
  obtain ⟨block, hblock, rfl⟩ := List.mem_map.1 hroute
  obtain ⟨n, _, hof, _⟩ := hblocks block hblock
  obtain ⟨hne, hsegments⟩ := Route.segments_of_ofNode hof
  refine Config.isUnder_intercalate_iff hnames (by simpa using hne) hfree ?_
  rw [List.forall_mem_map]
  intro s hs
  obtain ⟨p, hp, hname⟩ := hsegments s hs
  exact hname ▸ free p hp

/-- Whatever a generation yields, its commands stand route by route, and the listing shows them so.
Where no property has a slash in its name, a path of names shows the routes that begin with them,
with the same commands. -/
theorem listed_of_run (free : ∀ p ∈ g.properties, '/' ∉ p.name.toList)
    (h : run g config = .ok output) :
    ∃ groups, Listed output groups ∧
      ∀ names : List String, names ≠ [] → (∀ name ∈ names, '/' ∉ name.toList) →
        ShowsBelow output groups names := by
  obtain ⟨groups, hlisted⟩ := exists_listed_of_run h
  refine ⟨groups, hlisted, fun names hnames hfree => ?_⟩
  have wanted : ∀ route ∈ output.routes, Cli.isWanted (some ("/".intercalate names)) route = true ↔
      names <+: route.segments.map (·.name) :=
    fun _ hroute => isWanted_iff_of_run free h hnames hfree hroute
  refine ⟨wanted, Cli.shows_listing ?_⟩
  rw [hlisted.byRoute]
  refine List.filter_congr fun entry hentry => ?_
  rw [Bool.eq_iff_iff, decide_eq_true_iff]
  exact wanted entry.1 (List.of_mem_zip hentry).1

/-- Four of six routes are shown below the makers of the items. -/
theorem listed_of_run_library :
    (∀ p ∈ Graph.library.properties, '/' ∉ p.name.toList) ∧
      (["items", "makers"] : List String) ≠ [] ∧ (∀ name ∈ ["items", "makers"], '/' ∉ name.toList) ∧
      ∃ output groups, run Graph.library Route.libraryLimits = .ok output ∧
        Listed output groups ∧ ShowsBelow output groups ["items", "makers"] ∧
        output.routes.length = 6 ∧
        (Cli.sections (Cli.listing output (some "items/makers") false)).map (·.1) =
          ["items/\x7bItemId\x7d/\x7bBookTypeCast\x7d/makers/\x7bMakerId\x7d",
            "items/\x7bItemId\x7d/\x7bBookTypeCast\x7d/makers/\x7bMakerId\x7d/favorite",
            "items/\x7bItemId\x7d/\x7bDiscTypeCast\x7d/makers/\x7bMakerId\x7d",
            "items/\x7bItemId\x7d/\x7bDiscTypeCast\x7d/makers/\x7bMakerId\x7d/favorite",
            "✓ 18 commands"] := by
  have free : ∀ p ∈ Graph.library.properties, '/' ∉ p.name.toList := by decide +kernel
  have valid : Route.libraryLimits.validate = .ok () := by decide +kernel
  have headings : (run Graph.library Route.libraryLimits).map (fun output =>
      (output.routes.length,
        (Cli.sections (Cli.listing output (some "items/makers") false)).map (·.1))) =
      .ok (6,
        ["items/\x7bItemId\x7d/\x7bBookTypeCast\x7d/makers/\x7bMakerId\x7d",
          "items/\x7bItemId\x7d/\x7bBookTypeCast\x7d/makers/\x7bMakerId\x7d/favorite",
          "items/\x7bItemId\x7d/\x7bDiscTypeCast\x7d/makers/\x7bMakerId\x7d",
          "items/\x7bItemId\x7d/\x7bDiscTypeCast\x7d/makers/\x7bMakerId\x7d/favorite",
          "✓ 18 commands"]) := by
    unfold run
    rw [valid, Route.build_library]
    decide +kernel
  obtain ⟨output, hrun, hheadings⟩ := Fallible.map_eq_ok_iff.1 headings
  obtain ⟨hcount, hshown⟩ := Prod.mk.inj hheadings
  obtain ⟨groups, hlisted, hshows⟩ := listed_of_run free hrun
  exact ⟨free, by simp, by decide, output, groups, hrun, hlisted,
    hshows ["items", "makers"] (by simp) (by decide), hcount, hshown⟩

end Generation
end EdmCommands
