import EdmCommands.Disk

/-!
# EdmCommands.Host.InMemory

A host without effects: files are kept in a `Disk` and what is said is kept as text.
-/

namespace EdmCommands
namespace Host

structure Memory where
  disk : Disk := {}
  said : String := ""
deriving Repr, DecidableEq

/-- A computation whose only effects are on a memory. -/
abbrev InMemory : Type → Type :=
  StateM Memory

namespace InMemory

def change (act : Disk → Except SystemFault Disk) : InMemory (Except SystemFault Unit) :=
  fun memory =>
    match act memory.disk with
    | .ok disk => (.ok (), { memory with disk := disk })
    | .error reason => (.error reason, memory)

instance : Host InMemory where
  readFile path := fun memory => (memory.disk.readFile path, memory)
  createDirectories path := change fun disk => disk.createDirectories path
  writeFile path content := change fun disk => disk.writeFile path content
  say line := fun memory => ((), { memory with said := memory.said ++ line ++ "\n" })

end InMemory
end Host
end EdmCommands
