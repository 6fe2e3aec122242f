import UnitPropagation.CommandLine.Run

namespace UnitPropagation.CommandLine

/-! The program in the surroundings of an operating system. -/

/-- The reason that an operating system gives.  Its code may come with either sign. -/
def systemReason (reason : IO.Error) : FileError :=
  match reason with
  | .noFileOrDirectory .. => .missing
  | .inappropriateType _ code _ => decode code
  | .invalidArgument _ code _ => decode code
  | .resourceExhausted _ code _ => decode code
  | .noSuchThing _ code _ => decode code
  | .permissionDenied .. => .other "Permission denied (os error 13)"
  | other => .other (toString other)
where
  decode (code : UInt32) : FileError :=
    if code = 6 || -code = 6 then .noDevice
    else if code = 20 || -code = 20 then .notDirectory
    else if code = 21 || -code = 21 then .isDirectory
    else if code = 28 || -code = 28 then .noSpace
    else if code = 36 || -code = 36 then .nameTooLong
    else .other (toString reason)

/-- Runs an action and gives the reason if it fails. -/
def attempt {α : Type} (action : IO α) : IO (Except FileError α) := do
  try
    return .ok (← action)
  catch reason =>
    return .error (systemReason reason)

/-- The surroundings of an operating system as a host. -/
def Host.system : Host IO where
  print text := do
    IO.print text
    (← IO.getStdout).flush
  printError := IO.eprint
  isDirectory path := (System.mkFilePath [path]).isDir
  isFile path := do
    try
      return (← (System.mkFilePath [path]).metadata).type == .file
    catch _ =>
      return false
  children path := do
    try
      let entries ← (System.mkFilePath [path]).readDir
      entries.toList.mapM fun entry => do
        return (entry.fileName, (← entry.path.symlinkMetadata).type == .dir)
    catch _ =>
      return []
  read path := attempt do
    return (← IO.FS.readBinFile path).data.toList
  write path text := attempt do
    let handle ← IO.FS.Handle.mk path .write
    handle.putStr text
    handle.flush

end UnitPropagation.CommandLine

def main (arguments : List String) : IO UInt32 := do
  return UInt32.ofNat (← UnitPropagation.CommandLine.execute .system arguments)
