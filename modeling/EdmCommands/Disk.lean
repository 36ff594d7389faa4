import EdmCommands.Host

/-!
# EdmCommands.Disk

A file tree in memory. Locations are lists of names from the root on; a path is followed one name
at a time, and each name needs a directory to be looked up in.

* `Disk.resolve`: the location that a path leads to, whether something is there or not.
* `Disk.readFile`, `Disk.createDirectories`, `Disk.writeFile`.
* `Disk.files`: every file with its path, in ascending order of path.
-/

namespace EdmCommands

/-- What can be at a location. -/
inductive DiskEntry where
  | directory
  | file (content : String)
deriving Repr, DecidableEq

/-- A file tree: what is at which location. The root is a directory and is not listed. -/
structure Disk where
  entries : List (List String × DiskEntry) := []
deriving Repr, DecidableEq

namespace Disk

/-- The names between the slashes of a path. -/
def names (path : String) : List String :=
  (path.toList.splitOn '/').map String.ofList

/-- The most bytes that a name can have. -/
def longestName : Nat := 255

variable (disk : Disk)

def entryAt? (location : List String) : Option DiskEntry :=
  if location.isEmpty then some .directory else disk.entries.lookup location

/-- The tree with something put at a location. -/
def put (location : List String) (entry : DiskEntry) : Disk :=
  ⟨(location, entry) :: disk.entries.filter (·.1 ≠ location)⟩

/-- The location that a name leads to from another one, which must be a directory. An empty name
and a dot stay there. -/
def follow (location : List String) (name : String) : Except SystemFault (List String) :=
  match disk.entryAt? location with
  | none => .error .notFound
  | some (.file _) => .error .notDirectory
  | some .directory =>
    if name == "" || name == "." then .ok location
    else if name == ".." then .ok location.dropLast
    else if name.utf8ByteSize > longestName then .error .nameTooLong
    else .ok (location ++ [name])

def resolve (path : String) : Except SystemFault (List String) :=
  if path.isEmpty then .error .notFound
  else if path.toList.contains '\x00' then .error .zeroInName
  else (names path).foldlM disk.follow []

def readFile (path : String) : Except SystemFault String :=
  match disk.resolve path with
  | .error reason => .error reason
  | .ok location =>
    match disk.entryAt? location with
    | none => .error .notFound
    | some .directory => .error .isDirectory
    | some (.file content) => .ok content

/-- The tree with a file written. Its directory must exist. -/
def writeFile (path content : String) : Except SystemFault Disk :=
  match disk.resolve path with
  | .error reason => .error reason
  | .ok location =>
    match disk.entryAt? location with
    | some .directory => .error .isDirectory
    | _ => .ok (disk.put location (.file content))

/-- The tree with the directories made that a list of names leads through. -/
def makeAll (disk : Disk) (location : List String) : List String → Except SystemFault Disk
  | [] =>
    match disk.entryAt? location with
    | some (.file _) => .error .exists
    | _ => .ok disk
  | name :: rest =>
    match disk.follow location name with
    | .error reason => .error reason
    | .ok next =>
      match disk.entryAt? next with
      | none => makeAll (disk.put next .directory) next rest
      | some _ => makeAll disk next rest

/-- The tree with a directory and all those above it made, as far as they are not there. A path
that ends in a dot must lead to a directory already. -/
def createDirectories (path : String) : Except SystemFault Disk :=
  match disk.resolve path with
  | .error .zeroInName => .error .zeroInName
  | target =>
    let wanted := ((names path).reverse.dropWhile (· == "")).reverse
    if wanted.getLast? == some "." then
      match target with
      | .error reason => .error reason
      | .ok _ => .ok disk
    else makeAll disk [] wanted

/-- Every file with its path, in ascending order of path. -/
def files : List (String × String) :=
  let found := disk.entries.filterMap fun (location, entry) =>
    match entry with
    | .file content => some ("/".intercalate location, content)
    | .directory => none
  found.mergeSort fun a b => a.1 ≤ b.1

end Disk
end EdmCommands
