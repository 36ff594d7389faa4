import EdmCommands.Proofs.Emission
import EdmCommands.Proofs.Linking
import EdmCommands.Proofs.Rows

/-!
# EdmCommands.Proofs.Documentation

The documentation of the commands of a generation, read back: which pages there are on the disk and
where the links in their texts lead.

* `links`: the Markdown links of a text, each a label with a target.
* `Unbracketed`: a command whose texts make no links themselves.
* `links_index`, `links_page`: the links are those that the index and the page are made with.
* `nodup_of_kept`: where every page is kept, the names of the pages are distinct.
* `LinksLead`: every link leads to the page of the command whose name it shows.
* `documented_of_run`: the commands of a generation are documented without loss exactly when their
  names stay distinct as names of files.
-/

namespace EdmCommands
namespace Emission

/-! ## Links of a text -/

def bracketed : List Char → List (List Char)
  | [] => []
  | c :: rest => if c = '[' then rest :: bracketed rest else bracketed rest

/-- The text before the first `x` and the text behind it. -/
def cutAt (x : Char) : List Char → Option (List Char × List Char)
  | [] => none
  | c :: rest =>
    if c = x then some ([], rest)
    else (cutAt x rest).map fun (before, after) => (c :: before, after)

/-- The label and the target of a link whose opening bracket has been read. -/
def linkAt? (cs : List Char) : Option (String × String) :=
  match cutAt ']' cs with
  | some (label, '(' :: rest) =>
    (cutAt ')' rest).map fun (target, _) => (String.ofList label, String.ofList target)
  | _ => none

def linksIn (cs : List Char) : List (String × String) :=
  (bracketed cs).filterMap linkAt?

/-- The links of a text, each with its label and its target. -/
def links (text : String) : List (String × String) :=
  linksIn text.toList

section Links

variable {cs front back label target : List Char} {x : Char}

theorem cutAt_append (h : x ∉ front) : cutAt x (front ++ x :: back) = some (front, back) := by
  induction front with
  | nil => simp [cutAt]
  | cons c rest ih =>
    rw [List.mem_cons, not_or] at h
    rw [List.cons_append, cutAt, if_neg (Ne.symm h.1), ih h.2]
    rfl

theorem bracketed_append (h : '[' ∉ front) : bracketed (front ++ back) = bracketed back := by
  induction front with
  | nil => rfl
  | cons c rest ih =>
    rw [List.mem_cons, not_or] at h
    rw [List.cons_append, bracketed, if_neg (Ne.symm h.1), ih h.2]

theorem linksIn_append (h : '[' ∉ front) : linksIn (front ++ back) = linksIn back := by
  rw [linksIn, bracketed_append h, linksIn]

def linkChars (label target : List Char) : List Char :=
  '[' :: (label ++ ']' :: '(' :: (target ++ [')']))

theorem linksIn_linkChars (hlabel : '[' ∉ label ∧ ']' ∉ label)
    (htarget : '[' ∉ target ∧ ')' ∉ target) :
    linksIn (linkChars label target ++ back) =
      (String.ofList label, String.ofList target) :: linksIn back := by
  have hat : linkAt? (label ++ ']' :: '(' :: (target ++ ')' :: back)) =
      some (String.ofList label, String.ofList target) := by
    simp only [linkAt?, cutAt_append hlabel.2, cutAt_append htarget.2, Option.map_some]
  have hrest : bracketed (label ++ ']' :: '(' :: (target ++ ')' :: back)) = bracketed back := by
    have hfree : '[' ∉ label ++ ']' :: '(' :: (target ++ [')']) := by
      simp [hlabel.1, htarget.1]
    simpa using (bracketed_append hfree : bracketed (_ ++ back) = _)
  have hchars : linkChars label target ++ back =
      '[' :: (label ++ ']' :: '(' :: (target ++ ')' :: back)) := by
    simp [linkChars]
  rw [linksIn, hchars, bracketed, if_pos rfl, List.filterMap_cons_some hat, hrest, linksIn]

end Links

/-! ## Texts without links -/

/-- A text without opening brackets. -/
def Free (s : String) : Prop :=
  '[' ∉ s.toList

instance (s : String) : Decidable (Free s) :=
  inferInstanceAs (Decidable ('[' ∉ s.toList))

section Free

variable {s t : String}

theorem Free.append (hs : Free s) (ht : Free t) : Free (s ++ t) := by
  unfold Free
  rw [String.toList_append, List.mem_append, not_or]
  exact ⟨hs, ht⟩

theorem Free.code (h : Free s) : Free (code s) :=
  ((by decide : Free "`").append h).append (by decide)

theorem Free.cell (h : Free s) : Free (cell s) :=
  fun hmem => h ((mem_cell_iff (by decide)).1 hmem)

theorem free_row {cells : List String} (h : ∀ s ∈ cells, Free s) : Free (row cells) := by
  intro hmem
  obtain ⟨s, hs, hmem⟩ := (mem_row_iff (by decide)).1 hmem
  exact h s hs hmem

/-- Lines without opening brackets have no links. -/
theorem links_lines_append {front back : List String} (h : ∀ l ∈ front, Free l) :
    links (lines (front ++ back)) = links (lines back) := by
  unfold links
  rw [toList_lines, List.flatMap_append, ← toList_lines back]
  refine linksIn_append ?_
  rw [List.mem_flatMap]
  rintro ⟨l, hl, hmem⟩
  rw [List.mem_append] at hmem
  rcases hmem with hmem | hmem
  · exact h l hl hmem
  · simp at hmem

theorem links_lines_eq_nil {ls : List String} (h : ∀ l ∈ ls, Free l) : links (lines ls) = [] := by
  have : links (lines (ls ++ [])) = links (lines []) := links_lines_append h
  rw [List.append_nil] at this
  exact this.trans rfl

/-- A name that can be the label of a link, and whose page can be the target. -/
structure Linkable (name : String) : Prop where
  free : Free name
  closed : ']' ∉ name.toList
  ended : ')' ∉ name.toList

theorem not_mem_pageFile {x : Char} {name : String}
    (hx : 0 < x.toNat ∧ x.toNat < 0x61 ∧ x ∉ ['_', '.']) (h : x ∉ name.toList) :
    x ∉ (pageFile name).toList := by
  obtain ⟨hpositive, hletter, hne⟩ := hx
  have hsuffix : x ∉ ['.', 'm', 'd'] := by
    simp only [List.mem_cons, List.not_mem_nil, not_or, or_false] at hne ⊢
    refine ⟨hne.2, ?_, ?_⟩ <;> rintro rfl <;> revert hletter <;> decide
  rw [toList_pageFile, List.mem_append, not_or]
  exact ⟨Text.not_mem_snakeCase ⟨hpositive, hletter⟩ (by simp at hne; exact hne.1) h, hsuffix⟩

/-- A line with one link in it. -/
theorem links_lines_cons {before after name folder : String} {rest : List String}
    (hbefore : Free before) (hafter : Free after) (hname : Linkable name)
    (hfolder : Free folder ∧ ')' ∉ folder.toList) :
    links (lines ((before ++ ("[" ++ name ++ "](" ++ folder ++ pageFile name ++ ")") ++ after) ::
        rest)) = (name, folder ++ pageFile name) :: links (lines rest) := by
  have hopened : '[' ∉ (folder ++ pageFile name).toList := by
    rw [String.toList_append, List.mem_append, not_or]
    exact ⟨hfolder.1, not_mem_pageFile (by decide) hname.free⟩
  have hended : ')' ∉ (folder ++ pageFile name).toList := by
    rw [String.toList_append, List.mem_append, not_or]
    exact ⟨hfolder.2, not_mem_pageFile (by decide) hname.ended⟩
  have hchars : (lines ((before ++ ("[" ++ name ++ "](" ++ folder ++ pageFile name ++ ")") ++
        after) :: rest)).toList = before.toList ++
        (linkChars name.toList (folder ++ pageFile name).toList ++
          (after.toList ++ ['\n'] ++ (lines rest).toList)) := by
    simp [toList_lines, linkChars]
  have hend : '[' ∉ after.toList ++ ['\n'] := by
    rw [List.mem_append, not_or]
    exact ⟨hafter, by decide⟩
  unfold links
  rw [hchars, linksIn_append hbefore, linksIn_linkChars ⟨hname.free, hname.closed⟩
    ⟨hopened, hended⟩, linksIn_append hend, String.ofList_toList,
    String.ofList_toList]

end Free

/-! ## Links of the documentation -/

instance (name : String) : Decidable (Linkable name) :=
  decidable_of_iff (Free name ∧ ']' ∉ name.toList ∧ ')' ∉ name.toList)
    ⟨fun ⟨free, closed, ended⟩ => ⟨free, closed, ended⟩, fun h => ⟨h.free, h.closed, h.ended⟩⟩

def shownTexts (c : Command) : List String :=
  [c.name.full, c.summary, c.urlTemplate, c.route] ++ c.description.toList ++
    c.resourceType.toList ++ c.sets.flatMap (fun s => s.name :: s.derivedType.toList) ++
    c.parameters.flatMap fun p =>
      [p.name, p.type.display, p.effectiveWireName] ++ p.description.toList

/-- No text of the command looks like a part of a link. -/
structure Unbracketed (c : Command) : Prop where
  texts : ∀ s ∈ shownTexts c, Free s
  name : Linkable c.name.full

instance (c : Command) : Decidable (Unbracketed c) :=
  decidable_of_iff ((∀ s ∈ shownTexts c, Free s) ∧ Linkable c.name.full)
    ⟨fun ⟨texts, name⟩ => ⟨texts, name⟩, fun h => ⟨h.texts, h.name⟩⟩

section Unbracketed

variable {c : Command} {commands : List Command} {s : ParameterSet} {p : Parameter} {t : String}

theorem eq_some_of_filled {o : Option String} (h : filled o = some t) : o = some t :=
  (Option.filter_eq_some_iff.1 h).1

theorem free_toString (n : Nat) : Free (toString n) := by
  intro hmem
  rw [Nat.toString_eq_repr, Nat.toList_repr] at hmem
  have : '['.isDigit = true := Nat.isDigit_of_mem_toDigits (by decide) (by decide) hmem
  revert this
  decide

namespace Unbracketed

theorem description (h : Unbracketed c) (hd : c.description = some t) : Free t :=
  h.texts t (by simp [shownTexts, hd])

theorem resourceType (h : Unbracketed c) (ht : c.resourceType = some t) : Free t :=
  h.texts t (by simp [shownTexts, ht])

theorem set (h : Unbracketed c) (hs : s ∈ c.sets) :
    Free s.name ∧ ∀ t, s.derivedType = some t → Free t := by
  have htexts : ∀ t ∈ s.name :: s.derivedType.toList, t ∈ shownTexts c := by
    intro t ht
    have : t ∈ c.sets.flatMap fun s => s.name :: s.derivedType.toList :=
      List.mem_flatMap.2 ⟨s, hs, ht⟩
    simp only [shownTexts, List.mem_append]
    exact .inl (.inr this)
  refine ⟨h.texts _ (htexts _ List.mem_cons_self), fun t ht => h.texts _ (htexts _ ?_)⟩
  simp [ht]

theorem parameter (h : Unbracketed c) (hp : p ∈ c.parameters) :
    Free p.name ∧ Free p.type.display ∧ Free p.effectiveWireName ∧
      Free (p.description.getD "") := by
  have htexts : ∀ t ∈ [p.name, p.type.display, p.effectiveWireName] ++ p.description.toList,
      Free t := by
    intro t ht
    have : t ∈ c.parameters.flatMap fun p =>
        [p.name, p.type.display, p.effectiveWireName] ++ p.description.toList :=
      List.mem_flatMap.2 ⟨p, hp, ht⟩
    exact h.texts t (List.mem_append_right _ this)
  refine ⟨htexts _ (by simp), htexts _ (by simp), htexts _ (by simp), ?_⟩
  cases hd : p.description with
  | none => decide
  | some d => exact htexts d (by simp [hd])

end Unbracketed

theorem free_name (h : HttpMethod) : Free h.name := by
  cases h <;> decide

theorem links_indexRow (h : Unbracketed c) {rest : List String} :
    links (lines (indexRow c :: rest)) =
      (c.name.full, "commands/" ++ pageFile c.name.full) :: links (lines rest) := by
  have hcells : indexRow c = "| " ++ ("[" ++ c.name.full ++ "](" ++ "commands/" ++
      pageFile c.name.full ++ ")") ++ (" | " ++
        code (c.httpMethod.name ++ " " ++ cell c.urlTemplate) ++ " | " ++ cell c.summary ++
          " |") := by
    rw [← String.toList_inj]
    simp [indexRow, row]
  have hurl : Free (code (c.httpMethod.name ++ " " ++ cell c.urlTemplate)) :=
    (((free_name _).append (by decide)).append
      (h.texts c.urlTemplate (by simp [shownTexts])).cell).code
  have hsummary : Free (cell c.summary) := (h.texts c.summary (by simp [shownTexts])).cell
  rw [hcells]
  refine links_lines_cons (by decide) ?_ h.name ⟨by decide, by decide⟩
  exact ((((by decide : Free " | ").append hurl).append (by decide)).append hsummary).append
    (by decide)

theorem links_index (h : ∀ c ∈ commands, Unbracketed c) :
    links (index commands) =
      commands.map fun c => (c.name.full, "commands/" ++ pageFile c.name.full) := by
  have hhead : ∀ l ∈ ["# Generated commands", "", toString commands.length ++ " commands.", "",
      row ["Command", "Request", "Summary"], "|---|---|---|"], Free l := by
    have hcount : Free (toString commands.length ++ " commands.") :=
      (free_toString _).append (by decide)
    have hrow : Free (row ["Command", "Request", "Summary"]) := free_row (by decide)
    simp only [List.forall_mem_cons]
    exact ⟨by decide, by decide, hcount, by decide, hrow, by decide, by simp⟩
  have hrows : links (lines (commands.map indexRow ++ [""])) =
      commands.map fun c => (c.name.full, "commands/" ++ pageFile c.name.full) := by
    clear hhead
    induction commands with
    | nil => exact links_lines_eq_nil (by decide)
    | cons c rest ih =>
      rw [List.forall_mem_cons] at h
      rw [List.map_cons, List.cons_append, links_indexRow h.1, ih h.2, List.map_cons]
  rw [index, List.append_assoc, links_lines_append hhead, hrows]

theorem free_parameterTable (h : Unbracketed c) (set : String) :
    ∀ l ∈ parameterTable set (c.parametersIn set), Free l := by
  unfold parameterTable
  split
  · decide
  rw [List.forall_mem_cons, List.forall_mem_cons]
  refine ⟨free_row (by decide), by decide, ?_⟩
  intro l hl
  obtain ⟨p, hp, rfl⟩ := List.mem_map.1 hl
  obtain ⟨hname, htype, hwire, hdescription⟩ := h.parameter (List.mem_of_mem_filter hp)
  have hyes : ∀ b, Free (yesNo b) := by decide
  have hlocation : Free p.location.name := by
    cases p.location <;> decide
  refine free_row ?_
  simp only [List.forall_mem_cons]
  exact ⟨hname, htype.cell, hwire.cell.code, hlocation, hyes _, hyes _, hdescription.cell, by simp⟩

theorem free_setSection (h : Unbracketed c) (hs : s ∈ c.sets) :
    ∀ l ∈ setSection c s, Free l := by
  obtain ⟨hname, hderived⟩ := h.set hs
  have htitle : Free ("### " ++ s.name ++ (if s.isDefault then " (default)" else "")) := by
    refine ((by decide : Free "### ").append hname).append ?_
    split <;> decide
  have hnote : ∀ l ∈ ((filled s.derivedType).map fun t =>
      ["", "Creates or updates a " ++ code t ++ "."]).getD [], Free l := by
    cases hfilled : filled s.derivedType with
    | none => simp
    | some t =>
      have ht := hderived t (eq_some_of_filled hfilled)
      simp only [Option.map_some, Option.getD_some, List.forall_mem_cons]
      exact ⟨by decide, ((by decide : Free "Creates or updates a ").append ht.code).append
        (by decide), by simp⟩
  unfold setSection
  simp only [List.forall_mem_append, List.forall_mem_cons]
  exact ⟨⟨⟨⟨⟨by decide, htitle, by simp⟩, hnote⟩, by decide, by simp⟩,
    free_parameterTable h s.name⟩, by decide, by simp⟩

def pageHead (c : Command) : List String :=
  ["# " ++ c.name.full, "", c.summary] ++
    ((filled c.description).map fun d => ["", d]).getD [] ++ ["", "| | |", "|---|---|"] ++
    [row ["Operation", c.operation.name],
      row ["Request", code (c.httpMethod.name ++ " " ++ c.urlTemplate)],
      row ["Route", code c.route]] ++
    ((filled c.resourceType).map fun t => row ["Resource type", code t]).toList

def pageRest (c : Command) : List String :=
  ["", "## Parameter sets"] ++ c.sets.flatMap (setSection c) ++ [""]

theorem page_eq (c : Command) : page c = lines (pageHead c ++
    (((filled c.referenceTarget).map fun t =>
      row ["Reference targets", "[" ++ t ++ "](" ++ pageFile t ++ ")"]).toList ++ pageRest c)) := by
  simp only [page, overview, pageHead, pageRest, List.append_assoc]

theorem free_pair {name value : String} (hname : Free name) (hvalue : Free value) :
    Free (row [name, value]) := by
  refine free_row ?_
  simp only [List.forall_mem_cons]
  exact ⟨hname, hvalue, by simp⟩

theorem free_pageHead (h : Unbracketed c) : ∀ l ∈ pageHead c, Free l := by
  have hdescription : ∀ l ∈ ((filled c.description).map fun d => ["", d]).getD [], Free l := by
    cases hfilled : filled c.description with
    | none => simp
    | some d =>
      have hd := h.description (eq_some_of_filled hfilled)
      simp only [Option.map_some, Option.getD_some, List.forall_mem_cons]
      exact ⟨by decide, hd, by simp⟩
  have htype : ∀ l ∈ ((filled c.resourceType).map fun t =>
      row ["Resource type", code t]).toList, Free l := by
    cases hfilled : filled c.resourceType with
    | none => simp
    | some t =>
      have ht := h.resourceType (eq_some_of_filled hfilled)
      simp only [Option.map_some, Option.toList_some, List.forall_mem_cons]
      exact ⟨free_pair (by decide) ht.code, by simp⟩
  have hoperation : Free c.operation.name := by
    cases c.operation <;> decide
  have hurl : Free (c.httpMethod.name ++ " " ++ c.urlTemplate) :=
    ((free_name _).append (by decide)).append (h.texts _ (by simp [shownTexts]))
  have hroute : Free c.route := h.texts _ (by simp [shownTexts])
  have hsummary : Free c.summary := h.texts _ (by simp [shownTexts])
  unfold pageHead
  simp only [List.forall_mem_append, List.forall_mem_cons]
  exact ⟨⟨⟨⟨⟨(by decide : Free "# ").append h.name.free, by decide, hsummary, by simp⟩,
    hdescription⟩, by decide, by decide, by decide, by simp⟩,
    free_pair (by decide) hoperation, free_pair (by decide) hurl.code,
    free_pair (by decide) hroute.code, by simp⟩, htype⟩

theorem free_pageRest (h : Unbracketed c) : ∀ l ∈ pageRest c, Free l := by
  unfold pageRest
  simp only [List.forall_mem_append, List.forall_mem_cons, List.mem_flatMap]
  refine ⟨⟨⟨by decide, by decide, by simp⟩, ?_⟩, by decide, by simp⟩
  rintro l ⟨s, hs, hl⟩
  exact free_setSection h hs l hl

/-- A page links to the reference target of its command and to nothing else. -/
theorem links_page (h : Unbracketed c) (htarget : ∀ t, c.referenceTarget = some t → Linkable t) :
    links (page c) = (filled c.referenceTarget).toList.map fun t => (t, pageFile t) := by
  rw [page_eq, links_lines_append (free_pageHead h)]
  cases hfilled : filled c.referenceTarget with
  | none => exact links_lines_eq_nil (free_pageRest h)
  | some t =>
    have hcells : row ["Reference targets", "[" ++ t ++ "](" ++ pageFile t ++ ")"] =
        "| Reference targets | " ++ ("[" ++ t ++ "](" ++ "" ++ pageFile t ++ ")") ++ " |" := by
      rw [← String.toList_inj]
      simp [row]
    have hlink := htarget t (eq_some_of_filled hfilled)
    rw [Option.map_some, Option.toList_some, hcells, List.singleton_append,
      links_lines_cons (by decide) (by decide) hlink (by decide),
      links_lines_eq_nil (free_pageRest h), String.empty_append]
    rfl

end Unbracketed

/-! ## Pages that differ -/

/-- A page starts with the name of its command. -/
theorem name_eq_of_page_eq {c d : Command} (hc : '\n' ∉ c.name.full.toList)
    (hd : '\n' ∉ d.name.full.toList) (h : page c = page d) : c.name.full = d.name.full := by
  have hcut : ∀ {c : Command}, '\n' ∉ c.name.full.toList →
      ∃ rest, cutAt '\n' (page c).toList = some (("# " ++ c.name.full).toList, rest) := by
    intro c hc
    obtain ⟨ls, hls⟩ : ∃ ls, page c = lines (("# " ++ c.name.full) :: ls) := ⟨_, rfl⟩
    have hchars : (page c).toList = ("# " ++ c.name.full).toList ++ '\n' :: (lines ls).toList := by
      rw [hls, toList_lines, toList_lines]
      simp
    have htitle : '\n' ∉ ("# " ++ c.name.full).toList := by simpa using hc
    rw [hchars, cutAt_append htitle]
    exact ⟨_, rfl⟩
  obtain ⟨_, hcut₁⟩ := hcut hc
  obtain ⟨_, hcut₂⟩ := hcut hd
  rw [h, hcut₂, Option.some_inj, Prod.mk.injEq, String.toList_append, String.toList_append] at hcut₁
  exact String.toList_inj.1 (List.append_cancel_left hcut₁.1).symm

/-- Where no page is lost, the names of the pages are distinct. -/
theorem nodup_of_kept {commands : List Command} {disk : Disk} {directory : String}
    (distinct : (commands.map (·.name.full)).Nodup)
    (plain : ∀ c ∈ commands, '\n' ∉ c.name.full.toList)
    (kept : ∀ c ∈ commands, disk.readFile (pagePath directory c) = .ok (page c)) :
    (commands.map fun c => pageFile c.name.full).Nodup := by
  refine List.Nodup.map_on (fun c hc d hd hfile => ?_) (List.Nodup.of_map _ distinct)
  have hpath : pagePath directory c = pagePath directory d := by
    unfold pagePath
    rw [hfile]
  have hpage : page c = page d := by
    have hread := kept c hc
    rw [hpath, kept d hd, Except.ok.injEq] at hread
    exact hread.symm
  exact List.inj_on_of_nodup_map distinct hc hd (name_eq_of_page_eq (plain c hc) (plain d hd) hpage)

/-! ## Where links lead -/

/-- From a directory, the link leads to the page of the one command that it shows. -/
def LeadsToPage (commands : List Command) (disk : Disk) (directory : String)
    (link : String × String) : Prop :=
  ∃ c ∈ commands, (∀ d ∈ commands, d.name.full = link.1 ↔ d = c) ∧
    disk.readFile (Host.join directory link.2) = .ok (page c)

instance (commands : List Command) (disk : Disk) (directory : String) (link : String × String) :
    Decidable (LeadsToPage commands disk directory link) :=
  inferInstanceAs (Decidable (∃ c ∈ commands, (∀ d ∈ commands, _ ↔ _) ∧ _ = _))

/-- The links of the documentation lead to the pages of the commands that they show, and no
command and no reference target is without one. -/
structure LinksLead (commands : List Command) (directory : String) (disk : Disk) : Prop where
  index : ∀ link ∈ links (index commands), LeadsToPage commands disk directory link
  indexed : ∀ c ∈ commands, ∃ link ∈ links (Emission.index commands), link.1 = c.name.full
  page : ∀ c ∈ commands, ∀ link ∈ links (page c),
    LeadsToPage commands disk (pageDirectory directory) link
  referenced : ∀ c ∈ commands, ∀ t, c.referenceTarget = some t →
    ∃ link ∈ links (Emission.page c), link.1 = t

theorem join_commands (directory file : String) :
    Host.join directory ("commands/" ++ file) = Host.join (pageDirectory directory) file := by
  obtain ⟨front, hfront⟩ := Disk.exists_toList_join directory
  have hpages : (pageDirectory directory).toList = front ++ "commands".toList := hfront "commands"
  have hopen : ((pageDirectory directory).isEmpty ||
      (pageDirectory directory).toList.getLast? == some '/') = false := by
    have hne : pageDirectory directory ≠ "" := by
      intro hempty
      rw [hempty] at hpages
      simp at hpages
    rw [hpages, List.getLast?_append]
    simp [hne]
  rw [Host.join.eq_1 (pageDirectory directory), hopen, if_neg (by decide), ← String.toList_inj,
    hfront]
  simp [hpages]

section Lead

variable {commands : List Command} {directory : String} {location paths : List String} {disk : Disk}

theorem linksLead_of_documented (h : Documented commands directory location paths disk)
    (distinct : (commands.map (·.name.full)).Nodup)
    (targets : ∀ c ∈ commands, ∀ t, c.referenceTarget = some t → ∃ d ∈ commands, d.name.full = t)
    (free : ∀ c ∈ commands, Unbracketed c) : LinksLead commands directory disk := by
  have only : ∀ c ∈ commands, ∀ d ∈ commands, d.name.full = c.name.full ↔ d = c := by
    refine fun c hc d hd => ⟨fun hname => List.inj_on_of_nodup_map distinct hd hc hname, ?_⟩
    rintro rfl
    rfl
  have linkable : ∀ c ∈ commands, ∀ t, c.referenceTarget = some t → Linkable t := by
    intro c hc t ht
    obtain ⟨d, hd, rfl⟩ := targets c hc t ht
    exact (free d hd).name
  have hlinks : ∀ c ∈ commands, links (Emission.page c) =
      (filled c.referenceTarget).toList.map fun t => (t, pageFile t) :=
    fun c hc => links_page (free c hc) (linkable c hc)
  refine ⟨fun link hlink => ?_, fun c hc => ?_, fun c hc link hlink => ?_, fun c hc t ht => ?_⟩
  · rw [links_index free] at hlink
    obtain ⟨c, hc, rfl⟩ := List.mem_map.1 hlink
    refine ⟨c, hc, only c hc, ?_⟩
    rw [join_commands]
    exact h.page c hc
  · rw [links_index free]
    exact ⟨_, List.mem_map_of_mem hc, rfl⟩
  · rw [hlinks c hc] at hlink
    obtain ⟨t, ht, rfl⟩ := List.mem_map.1 hlink
    obtain ⟨d, hd, rfl⟩ := targets c hc t (eq_some_of_filled (Option.mem_toList.1 ht))
    exact ⟨d, hd, only d hd, h.page d hd⟩
  · obtain ⟨d, hd, rfl⟩ := targets c hc t ht
    have hfilled : filled c.referenceTarget = some d.name.full := by
      rw [ht]
      simp [filled, CommandName.full]
    rw [hlinks c hc, hfilled]
    exact ⟨_, List.mem_singleton_self _, rfl⟩

end Lead

end Emission

namespace Generation

open Emission Schema

variable {g : Graph} {config : Config} {output : Output} {directory : String}
  {location : List String}

/-- What a reference command is linked to is a command of the generation. -/
theorem exists_of_referenceTarget (h : run g config = .ok output) {r : Command}
    (hr : r ∈ output.commands) {t : String} (ht : r.referenceTarget = some t) :
    ∃ c ∈ output.commands, c.name.full = t := by
  obtain ⟨_, _, c, _, hlinkable, hlink⟩ := (links_of_run h).2 r hr
  obtain ⟨chain, hchain⟩ : ∃ chain,
      nearestTarget (referenceable g output.commands) chain = some t := by
    unfold linkReference at hlink
    split at hlink
    · split at hlink
      · cases hlink
        exact nomatch hlinkable.unlinked.symm.trans ht
      · obtain ⟨above, _, rfl⟩ := Fallible.map_eq_ok_iff.1 hlink
        exact ⟨_, ht⟩
    · cases hlink
      exact nomatch hlinkable.unlinked.symm.trans ht
  obtain ⟨id, _, hlookup⟩ := List.exists_of_findSome?_eq_some hchain
  rw [lookup_referenceable] at hlookup
  obtain ⟨c, hfound, hname⟩ := Option.map_eq_some_iff.1 hlookup
  exact ⟨c, List.mem_of_find?_eq_some hfound, hname⟩

/-- In an empty directory the commands of a generation are documented at different paths exactly
when the names of their pages are different names of files. Then each has its page, and where no
name or text of theirs has brackets, every link leads to the page of the command that it shows;
otherwise some page is lost. -/
theorem documented_of_run (h : run g config = .ok output) (memory : Host.Memory)
    (empty : memory.disk.LeadsToEmpty directory location) :
    ((∃ paths after, Does (emitDocs output.commands directory) memory paths after ∧ paths.Nodup) ↔
      (output.commands.map fun c => pageFile c.name.full).Nodup ∧
        ∀ c ∈ output.commands, Disk.IsFileName (pageFile c.name.full)) ∧
    ∀ paths after, Does (emitDocs output.commands directory) memory paths after →
      (paths.Nodup → Documented output.commands directory location paths after.disk ∧
        ((∀ c ∈ output.commands, Unbracketed c) →
          LinksLead output.commands directory after.disk)) ∧
      ((∀ c ∈ output.commands, '\n' ∉ c.name.full.toList) → ¬ paths.Nodup →
        ∃ c ∈ output.commands, after.disk.readFile (pagePath directory c) ≠ .ok (page c)) := by
  have distinct := (links_of_run h).1
  refine ⟨⟨?_, ?_⟩, fun paths after hdoes => ⟨fun hnodup => ?_, fun plain hrepeated => ?_⟩⟩
  · rintro ⟨paths, after, hdoes, hnodup⟩
    obtain ⟨hnames, rfl, _⟩ := (does_emitDocs_iff memory empty).1 hdoes
    exact ⟨nodup_paths_iff.1 hnodup, hnames⟩
  · rintro ⟨hnodup, hnames⟩
    exact ⟨_, _, (does_emitDocs_iff memory empty).2 ⟨hnames, rfl, rfl⟩, nodup_paths_iff.2 hnodup⟩
  · obtain ⟨hnames, rfl, rfl⟩ := (does_emitDocs_iff memory empty).1 hdoes
    have hdocumented := documented_of_nodup empty hnames (nodup_paths_iff.1 hnodup)
    refine ⟨hdocumented, linksLead_of_documented hdocumented distinct fun c hc t ht => ?_⟩
    exact exists_of_referenceTarget h hc ht
  · obtain ⟨_, rfl, _⟩ := (does_emitDocs_iff memory empty).1 hdoes
    by_contra hkept
    push Not at hkept
    exact hrepeated (nodup_paths_iff.2 (nodup_of_kept distinct plain hkept))

def docsDisk : Disk :=
  { entries := [(["docs"], .directory)] }

theorem leadsToEmpty_docsDisk : docsDisk.LeadsToEmpty "docs" ["docs"] := by
  refine ⟨⟨by decide +kernel, by decide⟩, fun rest hrest => ?_⟩
  cases rest with
  | nil => exact absurd rfl hrest
  | cons name rest => simp [docsDisk, Disk.entryAt?, List.lookup_cons]

/-- Two texts of a network: one named in capitals, and another one. -/
def network (other : String) : Document where
  namespaceName := "net"
  container :=
    { name := "Net"
      properties := [
        { name := "IPRanges", typeName := "Edm.String" },
        { name := other, typeName := "Edm.String" }] }

def networkGraph (other : String) : Graph :=
  { namespaceName := "net"
    container := { name := "Net", properties := [⟨0⟩, ⟨1⟩] }
    properties := #[
      { name := "IPRanges", type := .primitive .string },
      { name := other, type := .primitive .string }] }

def networkTree (other : String) : Route.Tree :=
  ⟨((Route.search (networkGraph other) {} 20 none [] [] 0 [⟨⟨0⟩, none⟩, ⟨⟨1⟩, none⟩]).getD [])⟩

theorem build_network {other : String} (h : other = "ports" ∨ other = "ipRanges") :
    Route.Tree.build (networkGraph other) {} = .ok (networkTree other) := by
  have roots : Route.Tree.roots (networkGraph other) =
      .ok [⟨"IPRanges", ⟨⟨0⟩, none⟩⟩, ⟨other, ⟨⟨1⟩, none⟩⟩] := by
    rcases h with rfl | rfl <;> decide +kernel
  have found : Route.search (networkGraph other) {} 20 none [] [] 0
      ((Route.byName [⟨"IPRanges", ⟨⟨0⟩, none⟩⟩, ⟨other, ⟨⟨1⟩, none⟩⟩]).map (·.step)) =
        some (networkTree other).nodes := by
    rcases h with rfl | rfl <;> decide +kernel
  exact Route.build_of_search roots found

/-- The documentation of the network: four commands with a page each. -/
theorem documented_of_run_network :
    docsDisk.LeadsToEmpty "docs" ["docs"] ∧
      ∃ output, run (networkGraph "ports") {} = .ok output ∧
        (∀ c ∈ output.commands, Unbracketed c) ∧
        ∃ paths after, Does (emitDocs output.commands "docs") ⟨docsDisk, ""⟩ paths after ∧
          paths = ["docs/commands/get_ip_ranges.md", "docs/commands/remove_ip_ranges.md",
            "docs/commands/get_ports.md", "docs/commands/remove_ports.md", "docs/README.md"] ∧
          paths.Nodup ∧ Documented output.commands "docs" ["docs"] paths after.disk ∧
          LinksLead output.commands "docs" after.disk := by
  have facts : (run (networkGraph "ports") {}).map (fun output => decide
      (output.commands.map (fun c => pageFile c.name.full) =
          ["get_ip_ranges.md", "remove_ip_ranges.md", "get_ports.md", "remove_ports.md"] ∧
        ∀ c ∈ output.commands, Unbracketed c)) = .ok true := by
    unfold run
    rw [build_network (.inl rfl)]
    decide +kernel
  obtain ⟨output, hrun, hfacts⟩ := Fallible.map_eq_ok_iff.1 facts
  obtain ⟨hfiles, free⟩ := of_decide_eq_true hfacts
  have names : ∀ file ∈ output.commands.map (fun c => pageFile c.name.full),
      Disk.IsFileName file := by
    rw [hfiles]
    decide
  obtain ⟨hiff, hall⟩ :=
    documented_of_run hrun ⟨docsDisk, ""⟩ leadsToEmpty_docsDisk
  obtain ⟨paths, after, hdoes, hnodup⟩ :=
    hiff.2 ⟨by rw [hfiles]; decide, fun c hc => names _ (List.mem_map_of_mem hc)⟩
  obtain ⟨hdocumented, hlead⟩ := (hall paths after hdoes).1 hnodup
  refine ⟨leadsToEmpty_docsDisk, output, hrun, free, paths, after, hdoes, ?_, hnodup, hdocumented,
    hlead free⟩
  rw [hdocumented.paths_eq, map_pagePath, hfiles]
  decide +kernel

/-- Two texts whose names differ in the case of a letter have commands of different names, but the
names of the pages are the same: pages are lost, and paths are returned twice. -/
theorem page_lost_of_network :
    Graph.ofDocument (network "ipRanges") = .ok (networkGraph "ipRanges") ∧
      docsDisk.LeadsToEmpty "docs" ["docs"] ∧
      ∃ output, run (networkGraph "ipRanges") {} = .ok output ∧
        output.commands.map (·.name.full) =
          ["Get-IPRanges", "Remove-IPRanges", "Get-IpRanges", "Remove-IpRanges"] ∧
        ∃ paths after, Does (emitDocs output.commands "docs") ⟨docsDisk, ""⟩ paths after ∧
          paths = ["docs/commands/get_ip_ranges.md", "docs/commands/remove_ip_ranges.md",
            "docs/commands/get_ip_ranges.md", "docs/commands/remove_ip_ranges.md",
            "docs/README.md"] ∧
          ¬ paths.Nodup ∧
          ¬ (∀ c ∈ output.commands, after.disk.readFile (pagePath "docs" c) = .ok (page c)) := by
  have facts : (run (networkGraph "ipRanges") {}).map (fun output => decide
      (output.commands.map (·.name.full) =
          ["Get-IPRanges", "Remove-IPRanges", "Get-IpRanges", "Remove-IpRanges"] ∧
        output.commands.map (fun c => pageFile c.name.full) =
          ["get_ip_ranges.md", "remove_ip_ranges.md", "get_ip_ranges.md",
            "remove_ip_ranges.md"])) = .ok true := by
    unfold run
    rw [build_network (.inr rfl)]
    decide +kernel
  obtain ⟨output, hrun, hfacts⟩ := Fallible.map_eq_ok_iff.1 facts
  obtain ⟨hnames, hfiles⟩ := of_decide_eq_true hfacts
  have names : ∀ file ∈ output.commands.map (fun c => pageFile c.name.full),
      Disk.IsFileName file := by
    rw [hfiles]
    decide
  have plain : ∀ name ∈ output.commands.map (·.name.full), '\n' ∉ name.toList := by
    rw [hnames]
    decide
  have distinct : (output.commands.map (·.name.full)).Nodup := by
    rw [hnames]
    decide
  have hpaths : output.commands.map (pagePath "docs") ++ [indexPath "docs"] =
      ["docs/commands/get_ip_ranges.md", "docs/commands/remove_ip_ranges.md",
        "docs/commands/get_ip_ranges.md", "docs/commands/remove_ip_ranges.md",
        "docs/README.md"] := by
    rw [map_pagePath, hfiles]
    decide +kernel
  refine ⟨by decide +kernel, leadsToEmpty_docsDisk, output, hrun, hnames, _, _,
    (does_emitDocs_iff ⟨docsDisk, ""⟩ leadsToEmpty_docsDisk).2
      ⟨fun c hc => names _ (List.mem_map_of_mem hc), rfl, rfl⟩, hpaths, ?_, fun kept => ?_⟩
  · rw [hpaths]
    decide
  · have := nodup_of_kept distinct (fun c hc => plain _ (List.mem_map_of_mem hc)) kept
    rw [hfiles] at this
    revert this
    decide

end Generation
end EdmCommands
