import EdmCommands.Host.InMemory
import EdmCommands.Proofs.Fallible
import Mathlib.Data.List.Basic

/-!
# EdmCommands.Proofs.Disk

What is where after changes to a file tree.

* `IsFileName`: names that a file can have in any directory.
* `resolve_put`: a path leads where it led, whatever is put where there is no directory.
* `readFile_of_writeFile`: what has been written to a file is read from it.
* `LeadsTo`: a path of a directory.
* `LeadsTo.resolve_join`: a name behind the path leads into the directory.
* `LeadsTo.writeFile_join`, `LeadsTo.createDirectories_join`: what is made there.
* `putFiles`: files of different names in one directory all stay.
-/

namespace EdmCommands
namespace Disk

variable {disk : Disk} {location other next : List String} {entry : DiskEntry}
  {path directory name : String}

/-! ## Entries -/

theorem entryAt?_nil : disk.entryAt? [] = some .directory := rfl

theorem entryAt?_append_singleton :
    disk.entryAt? (location ++ [name]) = disk.entries.lookup (location ++ [name]) := by
  simp [entryAt?]

theorem lookup_filter_ne {entries : List (List String × DiskEntry)} (h : other ≠ location) :
    (entries.filter (·.1 ≠ location)).lookup other = entries.lookup other := by
  induction entries with
  | nil => rfl
  | cons e rest ih =>
    by_cases he : e.1 = location
    · have hother : (other == e.1) = false := by
        rw [he]
        exact beq_false_of_ne h
      rw [List.filter_cons_of_neg (by simpa using he), ih, List.lookup_cons, hother]
    · rw [List.filter_cons_of_pos (by simpa using he), List.lookup_cons, List.lookup_cons, ih]

theorem entryAt?_put_self : (disk.put (location ++ [name]) entry).entryAt? (location ++ [name]) =
    some entry := by
  rw [entryAt?_append_singleton]
  exact List.lookup_cons_self

theorem entryAt?_put_of_ne (h : other ≠ location) :
    (disk.put location entry).entryAt? other = disk.entryAt? other := by
  unfold entryAt?
  split
  · rfl
  · rw [put, List.lookup_cons, beq_false_of_ne h]
    exact lookup_filter_ne h

/-- A file makes no directory anywhere. -/
theorem entryAt?_put_file_ne {content : String} (hother : disk.entryAt? other ≠ some .directory) :
    (disk.put (location ++ [name]) (.file content)).entryAt? other ≠ some .directory := by
  by_cases heq : other = location ++ [name]
  · rw [heq, entryAt?_put_self]
    nofun
  · rw [entryAt?_put_of_ne heq]
    exact hother

/-- The tree with files put into a directory, one after another. -/
def putFiles (disk : Disk) (location : List String) (files : List (String × String)) : Disk :=
  files.foldl (fun disk file => disk.put (location ++ [file.1]) (.file file.2)) disk

theorem entryAt?_putFiles_of_ne {files : List (String × String)}
    (h : ∀ file ∈ files, other ≠ location ++ [file.1]) :
    (disk.putFiles location files).entryAt? other = disk.entryAt? other := by
  induction files generalizing disk with
  | nil => rfl
  | cons file rest ih =>
    rw [List.forall_mem_cons] at h
    exact (ih h.2).trans (entryAt?_put_of_ne h.1)

/-- Of files with different names each keeps its content. -/
theorem entryAt?_putFiles {files : List (String × String)} (hnodup : (files.map (·.1)).Nodup)
    {content : String} (h : (name, content) ∈ files) :
    (disk.putFiles location files).entryAt? (location ++ [name]) = some (.file content) := by
  induction files generalizing disk with
  | nil => cases h
  | cons file rest ih =>
    obtain ⟨hfresh, hnodup⟩ := List.nodup_cons.1 hnodup
    rcases List.mem_cons.1 h with rfl | h
    · have apart : ∀ file ∈ rest, location ++ [name] ≠ location ++ [file.1] := by
        intro file hfile heq
        rw [List.append_right_inj, List.singleton_inj] at heq
        exact hfresh (List.mem_map.2 ⟨file, hfile, heq.symm⟩)
      exact (entryAt?_putFiles_of_ne apart).trans entryAt?_put_self
    · exact ih hnodup h

/-! ## Names -/

/-- A name that a file can have in any directory. -/
structure IsFileName (name : String) : Prop where
  nonempty : name ≠ ""
  not_dot : name ≠ "."
  not_dots : name ≠ ".."
  no_slash : '/' ∉ name.toList
  no_zero : '\x00' ∉ name.toList
  short : name.utf8ByteSize ≤ longestName

instance (name : String) : Decidable (IsFileName name) :=
  decidable_of_iff
    (name ≠ "" ∧ name ≠ "." ∧ name ≠ ".." ∧ '/' ∉ name.toList ∧ '\x00' ∉ name.toList ∧
      name.utf8ByteSize ≤ longestName)
    ⟨fun ⟨h₁, h₂, h₃, h₄, h₅, h₆⟩ => ⟨h₁, h₂, h₃, h₄, h₅, h₆⟩,
      fun h => ⟨h.nonempty, h.not_dot, h.not_dots, h.no_slash, h.no_zero, h.short⟩⟩

theorem names_of_no_slash (h : '/' ∉ name.toList) : names name = [name] := by
  rw [names, List.splitOn_eq_singleton h, List.map_singleton, String.ofList_toList]

theorem names_append_slash (front back : String) :
    names (front ++ "/" ++ back) = names front ++ names back := by
  have chars : (front ++ "/" ++ back).toList = front.toList ++ '/' :: back.toList := by simp
  rw [names, chars, List.splitOn_append_cons_self, List.map_append]
  rfl

/-- A path inside a directory leads through the same names as that of the directory, but for an
empty one at its end. -/
theorem names_join (hdirectory : directory ≠ "") (hname : '/' ∉ name.toList) :
    ∃ front, names (Host.join directory name) = front ++ [name] ∧
      (names directory = front ∨ names directory = front ++ [""]) := by
  have hempty : directory.isEmpty = false := by simpa using hdirectory
  unfold Host.join
  rw [hempty, Bool.false_or]
  split
  · rename_i hlast
    obtain ⟨front, hfront⟩ : ∃ front, directory = front ++ "/" := by
      have hlast : directory.toList.getLast? = some '/' := by simpa using hlast
      obtain ⟨cs, hcs⟩ := List.getLast?_eq_some_iff.1 hlast
      refine ⟨String.ofList cs, String.toList_inj.1 ?_⟩
      rw [hcs, String.toList_append, String.toList_ofList]
      rfl
    refine ⟨names front, ?_, .inr ?_⟩
    · rw [hfront, names_append_slash, names_of_no_slash hname]
    · have := names_append_slash front ""
      rw [String.append_empty] at this
      rw [hfront, this]
      rfl
  · exact ⟨names directory, by rw [names_append_slash, names_of_no_slash hname], .inl rfl⟩

theorem exists_toList_join (directory : String) :
    ∃ front, ∀ name, (Host.join directory name).toList = front ++ name.toList := by
  unfold Host.join
  split
  · exact ⟨directory.toList, fun _ => by rw [String.toList_append]⟩
  · exact ⟨directory.toList ++ ['/'], fun _ => by simp⟩

theorem prefix_toList_join (directory name : String) :
    directory.toList <+: (Host.join directory name).toList := by
  unfold Host.join
  split
  · exact ⟨name.toList, by rw [String.toList_append]⟩
  · exact ⟨'/' :: name.toList, by simp⟩

theorem join_injective {name' : String} (h : Host.join directory name = Host.join directory name') :
    name = name' := by
  obtain ⟨front, hfront⟩ := exists_toList_join directory
  have := congrArg String.toList h
  rw [hfront, hfront] at this
  exact String.toList_inj.1 (List.append_cancel_left this)

/-! ## Paths -/

theorem isDirectory_of_follow (h : disk.follow location name = .ok next) :
    disk.entryAt? location = some .directory := by
  unfold follow at h
  split at h
  · cases h
  · cases h
  · assumption

theorem isDirectory_of_foldlM {names : List String} (hdir : disk.entryAt? next = some .directory)
    (h : names.foldlM disk.follow location = .ok next) :
    disk.entryAt? location = some .directory := by
  cases names with
  | nil =>
    cases h
    exact hdir
  | cons name rest =>
    obtain ⟨_, hname, _⟩ := Fallible.bind_eq_ok_iff.1 h
    exact isDirectory_of_follow hname

theorem follow_put (hdir : disk.entryAt? location = some .directory) (hne : location ≠ other) :
    (disk.put other entry).follow location name = disk.follow location name := by
  unfold follow
  rw [entryAt?_put_of_ne hne, hdir]

theorem resolve_eq_ok_iff : disk.resolve path = .ok location ↔
    path ≠ "" ∧ '\x00' ∉ path.toList ∧ (names path).foldlM disk.follow [] = .ok location := by
  unfold resolve
  by_cases hempty : path = ""
  · simp [hempty]
  by_cases hzero : '\x00' ∈ path.toList
  · simp [hempty, hzero]
  · simp [hempty, hzero]

/-- A way goes through directories only, so that it stays what it is when something is put in
another place. -/
theorem resolve_put (h : disk.resolve path = .ok location)
    (hother : disk.entryAt? other ≠ some .directory) (entry : DiskEntry) :
    (disk.put other entry).resolve path = .ok location := by
  have stays : ∀ {names : List String} {start},
      names.foldlM disk.follow start = .ok location →
        names.foldlM (disk.put other entry).follow start = .ok location := by
    intro names start hnames
    induction names generalizing start with
    | nil => exact hnames
    | cons name rest ih =>
      obtain ⟨next, hname, hrest⟩ := Fallible.bind_eq_ok_iff.1 hnames
      have hdir := isDirectory_of_follow hname
      have apart : start ≠ other := by
        rintro rfl
        exact hother hdir
      rw [List.foldlM_cons, follow_put hdir apart, hname]
      exact ih hrest
  obtain ⟨hempty, hzero, hwalk⟩ := resolve_eq_ok_iff.1 h
  exact resolve_eq_ok_iff.2 ⟨hempty, hzero, stays hwalk⟩

/-- What has been written to a file is read from it. -/
theorem readFile_of_writeFile {content : String} {after : Disk}
    (h : disk.writeFile path content = .ok after) : after.readFile path = .ok content := by
  unfold writeFile at h
  split at h
  · cases h
  rename_i location hlocation
  split at h
  · cases h
  rename_i hfree
  cases h
  obtain rfl | ⟨front, name, rfl⟩ := List.eq_nil_or_concat location
  · exact absurd entryAt?_nil hfree
  · rw [readFile, resolve_put hlocation hfree]
    dsimp only
    rw [List.concat_eq_append, entryAt?_put_self]

structure LeadsTo (disk : Disk) (path : String) (location : List String) : Prop where
  resolve : disk.resolve path = .ok location
  isDirectory : disk.entryAt? location = some .directory

namespace LeadsTo

theorem walk (h : disk.LeadsTo path location) :
    path ≠ "" ∧ '\x00' ∉ path.toList ∧ (names path).foldlM disk.follow [] = .ok location :=
  resolve_eq_ok_iff.1 h.resolve

theorem put (h : disk.LeadsTo path location) (hother : disk.entryAt? other ≠ some .directory)
    (entry : DiskEntry) :
    (disk.put other entry).LeadsTo path location := by
  have apart : location ≠ other := by
    rintro rfl
    exact hother h.isDirectory
  refine ⟨resolve_put h.resolve hother entry, ?_⟩
  rw [entryAt?_put_of_ne apart]
  exact h.isDirectory

theorem putFiles (h : disk.LeadsTo path location) {files : List (String × String)}
    (hfiles : ∀ file ∈ files, disk.entryAt? (other ++ [file.1]) ≠ some .directory) :
    (disk.putFiles other files).LeadsTo path location := by
  induction files generalizing disk with
  | nil => exact h
  | cons file rest ih =>
    rw [List.forall_mem_cons] at hfiles
    exact ih (h.put hfiles.1 _) fun later hlater => entryAt?_put_file_ne (hfiles.2 later hlater)

/-- The names of a path inside the directory: those that lead to it, and one more. -/
theorem names_join (h : disk.LeadsTo directory location) (hname : '/' ∉ name.toList) :
    ∃ front, names (Host.join directory name) = front ++ [name] ∧
      front.foldlM disk.follow [] = .ok location := by
  obtain ⟨hempty, _, hwalk⟩ := h.walk
  obtain ⟨front, hjoin, hfront⟩ := Disk.names_join hempty hname
  refine ⟨front, hjoin, ?_⟩
  rcases hfront with hfront | hfront
  · rw [← hfront]
    exact hwalk
  · -- the empty name behind the last slash leads nowhere else
    rw [hfront, List.foldlM_append] at hwalk
    obtain ⟨found, hfound, hlast⟩ := Fallible.bind_eq_ok_iff.1 hwalk
    rw [List.foldlM_cons] at hlast
    obtain ⟨_, hfollow, hlast⟩ := Fallible.bind_eq_ok_iff.1 hlast
    cases hlast
    have hdir := isDirectory_of_follow hfollow
    unfold follow at hfollow
    rw [hdir] at hfollow
    cases hfollow
    exact hfound

theorem resolve_join_eq (h : disk.LeadsTo directory location) (hslash : '/' ∉ name.toList)
    (hzero : '\x00' ∉ name.toList) :
    disk.resolve (Host.join directory name) = disk.follow location name := by
  obtain ⟨front, hnames, hwalk⟩ := h.names_join hslash
  obtain ⟨hempty, hzero', _⟩ := h.walk
  have hjoin : (Host.join directory name).isEmpty = false ∧
      (Host.join directory name).toList.contains '\x00' = false := by
    unfold Host.join
    split <;> simp [hempty, hzero, hzero']
  rw [Disk.resolve, hjoin.1, hjoin.2, hnames, List.foldlM_append, hwalk]
  change (disk.follow location name >>= pure) = _
  rw [bind_pure]

theorem resolve_join (h : disk.LeadsTo directory location) (hname : IsFileName name) :
    disk.resolve (Host.join directory name) = .ok (location ++ [name]) := by
  rw [h.resolve_join_eq hname.no_slash hname.no_zero]
  unfold follow
  rw [h.isDirectory]
  have short : ¬ longestName < name.utf8ByteSize := Nat.not_lt.2 hname.short
  simp [hname.nonempty, hname.not_dot, hname.not_dots, short]

theorem join (h : disk.LeadsTo directory location) (hname : IsFileName name)
    (hdir : disk.entryAt? (location ++ [name]) = some .directory) :
    disk.LeadsTo (Host.join directory name) (location ++ [name]) :=
  ⟨h.resolve_join hname, hdir⟩

/-! ### Files -/

theorem readFile_join {content : String} (h : disk.LeadsTo directory location)
    (hname : IsFileName name)
    (hfile : disk.entryAt? (location ++ [name]) = some (.file content)) :
    disk.readFile (Host.join directory name) = .ok content := by
  rw [Disk.readFile, h.resolve_join hname]
  dsimp only
  rw [hfile]

theorem writeFile_join (h : disk.LeadsTo directory location) (hname : IsFileName name)
    (hfree : disk.entryAt? (location ++ [name]) ≠ some .directory) (content : String) :
    disk.writeFile (Host.join directory name) content =
      .ok (disk.put (location ++ [name]) (.file content)) := by
  rw [Disk.writeFile, h.resolve_join hname]
  dsimp only
  split
  · rename_i hdir
    exact absurd hdir hfree
  · rfl

/-- Only what can be the name of a file is made one. -/
theorem isFileName_of_writeFile_join {content : String} {after : Disk}
    (h : disk.LeadsTo directory location) (hslash : '/' ∉ name.toList) (hempty : name ≠ "")
    (hdot : name ≠ ".") (hdots : name ≠ "..")
    (hwrite : disk.writeFile (Host.join directory name) content = .ok after) :
    IsFileName name := by
  obtain ⟨target, htarget⟩ : ∃ target, disk.resolve (Host.join directory name) = .ok target := by
    unfold Disk.writeFile at hwrite
    split at hwrite
    · cases hwrite
    · exact ⟨_, by assumption⟩
  have hzero : '\x00' ∉ name.toList := by
    intro hmem
    have hjoin : '\x00' ∈ (Host.join directory name).toList := by
      obtain ⟨front, hfront⟩ := exists_toList_join directory
      rw [hfront]
      exact List.mem_append_right _ hmem
    unfold Disk.resolve at htarget
    split at htarget
    · cases htarget
    · rw [if_pos (List.contains_iff_mem.2 hjoin)] at htarget
      cases htarget
  refine ⟨hempty, hdot, hdots, hslash, hzero, ?_⟩
  rw [h.resolve_join_eq hslash hzero] at htarget
  unfold follow at htarget
  rw [h.isDirectory] at htarget
  by_contra hlong
  rw [Nat.not_le] at hlong
  simp [hempty, hdot, hdots, hlong] at htarget

/-! ### Directories -/

theorem makeAll_append {rest names : List String} {start : List String}
    (hdir : disk.entryAt? next = some .directory)
    (h : names.foldlM disk.follow start = .ok next) :
    disk.makeAll start (names ++ rest) = disk.makeAll next rest := by
  induction names generalizing start with
  | nil =>
    cases h
    rfl
  | cons name names ih =>
    obtain ⟨found, hname, hnames⟩ := Fallible.bind_eq_ok_iff.1 h
    have hfound := isDirectory_of_foldlM hdir hnames
    rw [List.cons_append, makeAll, hname]
    dsimp only
    rw [hfound]
    exact ih hnames

theorem createDirectories_join (h : disk.LeadsTo directory location) (hname : IsFileName name)
    (hfree : disk.entryAt? (location ++ [name]) = none) :
    disk.createDirectories (Host.join directory name) =
      .ok (disk.put (location ++ [name]) .directory) := by
  obtain ⟨front, hnames, hwalk⟩ := h.names_join hname.no_slash
  have hresolve := h.resolve_join hname
  have hfollow := h.resolve_join_eq hname.no_slash hname.no_zero
  rw [hresolve] at hfollow
  have hlast : ¬ (names (Host.join directory name)).getLast? = some "." := by
    rw [hnames, List.getLast?_append]
    simpa using hname.not_dot
  have hwanted : ((names (Host.join directory name)).reverse.dropWhile (· == "")).reverse =
      front ++ [name] := by
    rw [hnames, List.reverse_append, List.reverse_singleton, List.singleton_append,
      List.dropWhile_cons_of_neg (by simpa using hname.nonempty), List.reverse_cons,
      List.reverse_reverse]
  rw [Disk.createDirectories, hresolve]
  dsimp only
  rw [hwanted, ← hnames, if_neg (by simpa using hlast), hnames, makeAll_append h.isDirectory hwalk,
    makeAll, ← hfollow]
  dsimp only
  rw [hfree]
  dsimp only
  rw [makeAll, entryAt?_put_self]

end LeadsTo

/-- A path leads to a directory with nothing in it. -/
structure LeadsToEmpty (disk : Disk) (path : String) (location : List String) : Prop extends
    disk.LeadsTo path location where
  empty : ∀ rest, rest ≠ [] → disk.entryAt? (location ++ rest) = none

end Disk
end EdmCommands
