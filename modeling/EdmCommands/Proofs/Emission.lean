import EdmCommands.Emission
import EdmCommands.Proofs.Disk
import EdmCommands.Proofs.Text.Spelling
import Mathlib.Data.List.Nodup

/-!
# EdmCommands.Proofs.Emission

What is on the disk after commands have been written.

* `Does`: a computation succeeds on a memory, with an answer and a memory after it.
* `does_emitDocs_iff`: the documentation of commands can be written into an empty directory when
  the names of its pages are names of files, and which files there are then.
* `Documented`: each command has a page of its own. `documented_of_nodup`: so it is when the names
  of the pages are distinct.
-/

namespace EdmCommands
namespace Emission

open Host (Memory InMemory join)

variable {α β : Type} {memory after : Memory} {commands : List Command} {c : Command}
  {directory file content : String} {location paths : List String}

/-- The answer of a computation on a memory, and the memory after it. -/
def runOn (act : ExceptT Fault InMemory α) (memory : Memory) : Except Fault α × Memory :=
  act.run memory

/-- The computation succeeds on the memory, with this answer, and leaves that memory. -/
def Does (act : ExceptT Fault InMemory α) (memory : Memory) (a : α) (after : Memory) : Prop :=
  runOn act memory = (.ok a, after)

theorem does_pure_iff {a b : α} : Does (pure a) memory b after ↔ b = a ∧ after = memory := by
  change ((Except.ok a : Except Fault α), memory) = (.ok b, after) ↔ _
  rw [Prod.mk.injEq, Except.ok.injEq]
  exact and_congr eq_comm eq_comm

theorem does_bind_iff {act : ExceptT Fault InMemory α} {next : α → ExceptT Fault InMemory β}
    {b : β} : Does (act >>= next) memory b after ↔
      ∃ a between, Does act memory a between ∧ Does (next a) between b after := by
  have unfolded : runOn (act >>= next) memory =
      runOn (ExceptT.mk (ExceptT.bindCont next (runOn act memory).1)) (runOn act memory).2 := rfl
  unfold Does
  rw [unfolded]
  rcases runOn act memory with ⟨fault | a, between⟩
  · constructor
    · intro h
      cases h
    · rintro ⟨_, _, ⟨⟩, _⟩
  · constructor
    · intro h
      exact ⟨a, between, rfl, h⟩
    · rintro ⟨_, _, ⟨⟩, h⟩
      exact h

/-! ## Files -/

def onDisk (memory : Memory) (disk : Disk) : Memory :=
  { memory with disk := disk }

/-- An attempt answers what its act answers, the cause in place of the fault. -/
theorem runOn_attempt (act : InMemory (Except SystemFault α)) (cause : SystemFault → Fault) :
    runOn (Host.attempt act cause) memory =
      ((act memory).1.mapError cause, (act memory).2) := by
  have unfolded : runOn (Host.attempt act cause) memory =
      runOn (Host.attempt (fun _ => act memory) cause) memory := rfl
  rw [unfolded]
  rcases act memory with ⟨reason | a, after⟩ <;> rfl

theorem does_attempt_change_iff {act : Disk → Except SystemFault Disk} {cause : SystemFault → Fault}
    {u : Unit} :
    Does (Host.attempt (InMemory.change act) cause) memory u after ↔
      ∃ disk, act memory.disk = .ok disk ∧ after = onDisk memory disk := by
  unfold Does
  rw [runOn_attempt]
  unfold InMemory.change
  cases act memory.disk with
  | error reason =>
    constructor
    · intro h
      cases h
    · rintro ⟨_, ⟨⟩, _⟩
  | ok disk =>
    constructor
    · intro h
      cases h
      exact ⟨disk, rfl, rfl⟩
    · rintro ⟨_, ⟨⟩, rfl⟩
      rfl

theorem does_writeIn_iff {cause : SystemFault → Fault} {path : String} :
    Does (writeIn directory file content cause) memory path after ↔
      path = join directory file ∧
        ∃ disk, memory.disk.writeFile (join directory file) content = .ok disk ∧
          after = onDisk memory disk := by
  unfold writeIn
  rw [does_bind_iff]
  constructor
  · rintro ⟨_, between, hwrite, hpath⟩
    obtain ⟨rfl, rfl⟩ := does_pure_iff.1 hpath
    exact ⟨rfl, does_attempt_change_iff.1 hwrite⟩
  · rintro ⟨rfl, hwrite⟩
    exact ⟨(), after, does_attempt_change_iff.2 hwrite, does_pure_iff.2 ⟨rfl, rfl⟩⟩

theorem does_createDirectory_iff {path : String} {u : Unit} :
    Does (createDirectory path) memory u after ↔
      ∃ disk, memory.disk.createDirectories path = .ok disk ∧ after = onDisk memory disk :=
  does_attempt_change_iff

/-! ## Pages -/

theorem toList_pageFile (name : String) :
    (pageFile name).toList = (Naming.snakeCase name).toList ++ ['.', 'm', 'd'] := by
  rw [pageFile, String.toList_append]
  rfl

/-- A page is put into a directory itself, since its name has no slash. -/
theorem slash_not_mem_pageFile (name : String) : '/' ∉ (pageFile name).toList := by
  rw [toList_pageFile, List.mem_append, not_or]
  exact ⟨Text.slash_not_mem_snakeCase name, by decide⟩

theorem pageFile_ne_of_length_lt {name other : String} (h : other.toList.length < 3) :
    pageFile name ≠ other := by
  rintro rfl
  rw [toList_pageFile, List.length_append] at h
  exact absurd h (Nat.not_lt.2 (Nat.le_add_left 3 _))

/-- The files of the pages, each with its content. -/
def pageFiles (commands : List Command) : List (String × String) :=
  commands.map fun c => (pageFile c.name.full, page c)

def pageDirectory (directory : String) : String :=
  join directory "commands"

def pagePath (directory : String) (c : Command) : String :=
  join (pageDirectory directory) (pageFile c.name.full)

def indexPath (directory : String) : String :=
  join directory "README.md"

def writePage (directory : String) (c : Command) : ExceptT Fault InMemory String :=
  writeIn directory (pageFile c.name.full) (page c) fun reason =>
    .generation (.write (pageFile c.name.full) reason)

theorem does_writePage_iff (h : memory.disk.LeadsTo directory location)
    (hfree : memory.disk.entryAt? (location ++ [pageFile c.name.full]) ≠ some .directory)
    {path : String} :
    Does (writePage directory c) memory path after ↔
      Disk.IsFileName (pageFile c.name.full) ∧ path = join directory (pageFile c.name.full) ∧
        after = onDisk memory
          (memory.disk.put (location ++ [pageFile c.name.full]) (.file (page c))) := by
  unfold writePage
  rw [does_writeIn_iff]
  constructor
  · rintro ⟨rfl, disk, hwrite, rfl⟩
    have hname := h.isFileName_of_writeFile_join (slash_not_mem_pageFile _)
      (pageFile_ne_of_length_lt (by decide)) (pageFile_ne_of_length_lt (by decide))
      (pageFile_ne_of_length_lt (by decide)) hwrite
    rw [h.writeFile_join hname hfree] at hwrite
    cases hwrite
    exact ⟨hname, rfl, rfl⟩
  · rintro ⟨hname, rfl, rfl⟩
    exact ⟨rfl, _, h.writeFile_join hname hfree _, rfl⟩

/-- The pages can be written when their names are names of files, and then all are, in order. -/
theorem does_writePages_iff (h : memory.disk.LeadsTo directory location)
    (hfree : ∀ c ∈ commands,
      memory.disk.entryAt? (location ++ [pageFile c.name.full]) ≠ some .directory) :
    Does (commands.mapM (writePage directory)) memory paths after ↔
      (∀ c ∈ commands, Disk.IsFileName (pageFile c.name.full)) ∧
        paths = (commands.map fun c => join directory (pageFile c.name.full)) ∧
        after = onDisk memory (memory.disk.putFiles location (pageFiles commands)) := by
  induction commands generalizing memory paths with
  | nil =>
    rw [List.mapM_nil, does_pure_iff]
    simp [pageFiles, Disk.putFiles, onDisk]
  | cons c rest ih =>
    rw [List.forall_mem_cons] at hfree
    have hrest : ∀ paths, Does (rest.mapM (writePage directory)) (onDisk memory
        (memory.disk.put (location ++ [pageFile c.name.full]) (.file (page c)))) paths after ↔ _ :=
      fun _ => ih (h.put hfree.1 (.file (page c))) fun d hd =>
        Disk.entryAt?_put_file_ne (hfree.2 d hd)
    rw [List.mapM_cons, does_bind_iff, List.forall_mem_cons]
    constructor
    · rintro ⟨_, _, hpage, hothers⟩
      obtain ⟨hname, rfl, rfl⟩ := (does_writePage_iff h hfree.1).1 hpage
      obtain ⟨_, _, hpages, hpure⟩ := does_bind_iff.1 hothers
      obtain ⟨rfl, rfl⟩ := does_pure_iff.1 hpure
      obtain ⟨hnames, rfl, rfl⟩ := (hrest _).1 hpages
      exact ⟨⟨hname, hnames⟩, rfl, rfl⟩
    · rintro ⟨⟨hname, hnames⟩, rfl, rfl⟩
      refine ⟨_, _, (does_writePage_iff h hfree.1).2 ⟨hname, rfl, rfl⟩, does_bind_iff.2 ?_⟩
      exact ⟨_, _, (hrest _).2 ⟨hnames, rfl, rfl⟩, does_pure_iff.2 ⟨rfl, rfl⟩⟩

/-! ## Documentation -/

theorem isFileName_commands : Disk.IsFileName "commands" := by
  decide

theorem isFileName_readme : Disk.IsFileName "README.md" := by
  decide

def paged (disk : Disk) (location : List String) (commands : List Command) : Disk :=
  (disk.put (location ++ ["commands"]) .directory).putFiles (location ++ ["commands"])
    (pageFiles commands)

/-- The disk with the documentation of commands in a directory. -/
def documented (disk : Disk) (location : List String) (commands : List Command) : Disk :=
  (paged disk location commands).put (location ++ ["README.md"]) (.file (index commands))

section Empty

variable {disk : Disk} (h : disk.LeadsToEmpty directory location)
include h

theorem leadsTo_pageDirectory :
    (disk.put (location ++ ["commands"]) .directory).LeadsTo (pageDirectory directory)
      (location ++ ["commands"]) := by
  have hfree := h.empty ["commands"] (by simp)
  have hdir := h.toLeadsTo.put (fun hdir => nomatch hfree.symm.trans hdir) .directory
  exact hdir.join isFileName_commands Disk.entryAt?_put_self

theorem entryAt?_pages (name : String) :
    (disk.put (location ++ ["commands"]) .directory).entryAt? (location ++ ["commands"] ++ [name]) =
      none := by
  rw [Disk.entryAt?_put_of_ne (by simp), List.append_assoc]
  exact h.empty (["commands"] ++ [name]) (by simp)

theorem leadsTo_paged (commands : List Command) :
    (paged disk location commands).LeadsTo directory location ∧
      (paged disk location commands).LeadsTo (pageDirectory directory)
        (location ++ ["commands"]) := by
  have hfree : ∀ file ∈ pageFiles commands,
      (disk.put (location ++ ["commands"]) .directory).entryAt?
        (location ++ ["commands"] ++ [file.1]) ≠ some .directory := by
    intro file _
    rw [entryAt?_pages h]
    nofun
  have hmade := h.empty ["commands"] (by simp)
  exact ⟨(h.toLeadsTo.put (by rw [hmade]; nofun) .directory).putFiles hfree,
    (leadsTo_pageDirectory h).putFiles hfree⟩

theorem entryAt?_readme (commands : List Command) :
    (paged disk location commands).entryAt? (location ++ ["README.md"]) = none := by
  unfold paged
  rw [Disk.entryAt?_putFiles_of_ne (by simp), Disk.entryAt?_put_of_ne (by simp)]
  exact h.empty ["README.md"] (by simp)

end Empty

/-- Commands can be documented in an empty directory when the names of their pages are names of
files. -/
theorem does_emitDocs_iff (memory : Memory) (h : memory.disk.LeadsToEmpty directory location) :
    Does (emitDocs commands directory) memory paths after ↔
      (∀ c ∈ commands, Disk.IsFileName (pageFile c.name.full)) ∧
        paths = commands.map (pagePath directory) ++ [indexPath directory] ∧
        after = onDisk memory (documented memory.disk location commands) := by
  have hmake := h.toLeadsTo.createDirectories_join isFileName_commands
    (h.empty ["commands"] (by simp))
  have hpages : ∀ written between, Does (commands.mapM (writePage (pageDirectory directory)))
      (onDisk memory (memory.disk.put (location ++ ["commands"]) .directory)) written between ↔ _ :=
    fun _ _ => does_writePages_iff (leadsTo_pageDirectory h) fun c _ hdir =>
      nomatch (entryAt?_pages h _).symm.trans hdir
  have hindex := ((leadsTo_paged h commands).1).writeFile_join isFileName_readme
    (by rw [entryAt?_readme h]; nofun) (index commands)
  change Does (createDirectory (pageDirectory directory) >>= fun _ =>
    commands.mapM (writePage (pageDirectory directory)) >>= fun written =>
      writeIn directory "README.md" (index commands)
        (fun reason => .generation (.write "README.md" reason)) >>= fun path =>
          pure (written ++ [path])) memory paths after ↔ _
  rw [does_bind_iff]
  constructor
  · rintro ⟨_, _, hcreate, hrest⟩
    obtain ⟨disk, hdisk, rfl⟩ := does_createDirectory_iff.1 hcreate
    cases hmake.symm.trans hdisk
    obtain ⟨_, _, hwritten, hrest⟩ := does_bind_iff.1 hrest
    obtain ⟨hnames, rfl, rfl⟩ := (hpages _ _).1 hwritten
    obtain ⟨_, _, hreadme, hpure⟩ := does_bind_iff.1 hrest
    obtain ⟨rfl, rfl⟩ := does_pure_iff.1 hpure
    obtain ⟨rfl, disk, hwrite, rfl⟩ := does_writeIn_iff.1 hreadme
    cases hindex.symm.trans hwrite
    exact ⟨hnames, rfl, rfl⟩
  · rintro ⟨hnames, rfl, rfl⟩
    refine ⟨(), _, does_createDirectory_iff.2 ⟨_, hmake, rfl⟩, does_bind_iff.2 ?_⟩
    refine ⟨_, _, (hpages _ _).2 ⟨hnames, rfl, rfl⟩, does_bind_iff.2 ?_⟩
    exact ⟨_, _, does_writeIn_iff.2 ⟨rfl, _, hindex, rfl⟩, does_pure_iff.2 ⟨rfl, rfl⟩⟩

/-- Each command has its page on the disk, at a path of its own. -/
structure Documented (commands : List Command) (directory : String) (location paths : List String)
    (disk : Disk) : Prop where
  paths_eq : paths = commands.map (pagePath directory) ++ [indexPath directory]
  distinct : paths.Nodup
  page : ∀ c ∈ commands, disk.readFile (pagePath directory c) = .ok (page c)
  within : ∀ c ∈ commands, disk.resolve (pagePath directory c) =
    .ok (location ++ ["commands", pageFile c.name.full])
  index : disk.readFile (indexPath directory) = .ok (index commands)

theorem pagePath_ne_indexPath : pagePath directory c ≠ indexPath directory := by
  intro h
  obtain ⟨front, hfront⟩ := Disk.exists_toList_join directory
  obtain ⟨rest, hrest⟩ := Disk.prefix_toList_join (pageDirectory directory) (pageFile c.name.full)
  have hchars : front ++ ("commands".toList ++ rest) = front ++ "README.md".toList := by
    rw [← List.append_assoc, ← hfront, ← hfront]
    exact hrest.trans (congrArg String.toList h)
  have hstart := congrArg List.head? (List.append_cancel_left hchars)
  revert hstart
  simp

theorem map_pagePath (directory : String) (commands : List Command) :
    commands.map (pagePath directory) =
      (commands.map fun c => pageFile c.name.full).map (join (pageDirectory directory)) := by
  rw [List.map_map]
  rfl

theorem nodup_paths_iff :
    (commands.map (pagePath directory) ++ [indexPath directory]).Nodup ↔
      (commands.map fun c => pageFile c.name.full).Nodup := by
  have hindex : indexPath directory ∉ commands.map (pagePath directory) := by
    intro hmem
    obtain ⟨c, _, hc⟩ := List.mem_map.1 hmem
    exact pagePath_ne_indexPath hc
  rw [← List.concat_eq_append, List.nodup_concat, map_pagePath,
    List.nodup_map_iff fun _ _ => Disk.join_injective, ← map_pagePath]
  exact and_iff_right hindex

/-- Where the names of the pages are distinct, no page is lost. -/
theorem documented_of_nodup {disk : Disk} (h : disk.LeadsToEmpty directory location)
    (hnames : ∀ c ∈ commands, Disk.IsFileName (pageFile c.name.full))
    (hnodup : (commands.map fun c => pageFile c.name.full).Nodup) :
    Documented commands directory location
      (commands.map (pagePath directory) ++ [indexPath directory])
      (documented disk location commands) := by
  obtain ⟨hhere, hbelow⟩ := leadsTo_paged h commands
  have hreadme : (paged disk location commands).entryAt? (location ++ ["README.md"]) ≠
      some .directory := fun hdir => nomatch (entryAt?_readme h commands).symm.trans hdir
  have hpages := hbelow.put hreadme (.file (Emission.index commands))
  refine ⟨rfl, nodup_paths_iff.2 hnodup, fun c hc => ?_, fun c hc => ?_, ?_⟩
  · refine hpages.readFile_join (hnames c hc) ?_
    rw [Disk.entryAt?_put_of_ne (by simp)]
    refine Disk.entryAt?_putFiles ?_ (List.mem_map.2 ⟨c, hc, rfl⟩)
    rw [pageFiles, List.map_map]
    exact hnodup
  · rw [List.append_cons location "commands" [pageFile c.name.full]]
    exact hpages.resolve_join (hnames c hc)
  · exact (hhere.put hreadme _).readFile_join isFileName_readme Disk.entryAt?_put_self

end Emission
end EdmCommands
