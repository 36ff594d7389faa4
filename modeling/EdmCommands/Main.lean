import EdmCommands.Cli

/-!
# EdmCommands.Main

The program: the command line run on the file system and the standard streams of the process.
-/

namespace EdmCommands

/-- What an error of the system means for the work. -/
def systemFault : IO.Error → SystemFault
  | .noFileOrDirectory _ _ _ => .notFound
  | .alreadyExists _ _ _ => .exists
  | .inappropriateType _ 20 _ => .notDirectory
  | .inappropriateType _ 21 _ => .isDirectory
  | .resourceExhausted _ 36 _ => .nameTooLong
  | other => .other (toString other)

/-- The result of an action, or what stopped it. -/
def caught {α : Type} (act : IO α) : IO (Except SystemFault α) := do
  match ← act.toBaseIO with
  | .ok a => return .ok a
  | .error e => return .error (systemFault e)

instance : Host IO where
  readFile path := do
    match ← caught (IO.FS.readBinFile path) with
    | .error reason => return .error reason
    | .ok bytes =>
      match String.fromUTF8? bytes with
      | some text => return .ok text
      | none => return .error .notText
  createDirectories path := caught (IO.FS.createDirAll path)
  writeFile path content := caught (IO.FS.writeFile path content)
  say := IO.println

end EdmCommands

open EdmCommands in
def main (args : List String) : IO UInt32 := do
  let outcome ← Cli.run args
  match outcome with
  | .failed failure => IO.eprintln failure.report
  | .misused => IO.eprintln "usage: odata-cmdgen [options] routes|commands|generate --schema FILE"
  | .done => pure ()
  return outcome.code.toUInt32
