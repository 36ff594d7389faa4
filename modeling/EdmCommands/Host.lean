import EdmCommands.Fault

/-!
# EdmCommands.Host

What the work needs of its surroundings: reading a file, making directories, writing a file, and a
place for lines to the reader. Everything that reads or writes is written for any such host.
-/

namespace EdmCommands

class Host (m : Type → Type) where
  readFile : (path : String) → m (Except SystemFault String)
  createDirectories : (path : String) → m (Except SystemFault Unit)
  writeFile : (path content : String) → m (Except SystemFault Unit)
  say : (line : String) → m Unit

namespace Host

/-- A path inside a directory. -/
def join (directory name : String) : String :=
  if directory.isEmpty || directory.toList.getLast? == some '/' then directory ++ name
  else directory ++ "/" ++ name

def pathNames (path : String) : List String :=
  (path.splitOn "/").filter fun name => name != "" && name != "."

variable {m : Type → Type} [Monad m] [Host m]

/-- Does something, with a fault of the system as a fault of the work. -/
def attempt {α : Type} (act : m (Except SystemFault α)) (cause : SystemFault → Fault) :
    ExceptT Fault m α :=
  ExceptT.mk do
    match ← act with
    | .ok a => return .ok a
    | .error reason => return .error (cause reason)

end Host
end EdmCommands
