import Nullness.Command.Run

/-!
# The program

The command on the machine that the program runs on.
-/

namespace Nullness

namespace Command

/-- The number and the name of a failure of the operating system. -/
def OsError.ofError (e : IO.Error) : OsError :=
  match e with
  | .alreadyExists _ c t | .interrupted _ c t | .noFileOrDirectory _ c t
  | .invalidArgument _ c t | .permissionDenied _ c t | .resourceExhausted _ c t
  | .inappropriateType _ c t => ⟨c.toNat, t⟩
  | .otherError c t | .resourceBusy c t | .resourceVanished c t | .unsupportedOperation c t
  | .hardwareFault c t | .unsatisfiedConstraints c t | .illegalOperation c t
  | .protocolError c t | .timeExpired c t | .noSuchThing _ c t => ⟨c.toNat, t⟩
  | .unexpectedEof => ⟨0, "unexpected end of file"⟩
  | .userError t => ⟨0, t⟩

/-- The machine that the program runs on. It has no exporter, so no spans are sent. -/
def thisMachine : Machine IO where
  isThere path := do
    try
      let _ ← IO.FS.Handle.mk path .read
      return true
    catch e =>
      let code := (OsError.ofError e).code
      return code ≠ OsError.notFound.code && code ≠ OsError.notDirectory.code
  read path := do
    try
      let bytes ← IO.FS.readBinFile path
      match String.fromUTF8? bytes with
      | some s => return .ok s
      | none => return .error .notText
    catch e => return .error (.os (.ofError e))
  save sink text := do
    let opened : Except OsError IO.FS.Stream ←
      match sink with
      | .standard => pure (.ok (← IO.getStdout))
      | .file path =>
        try
          let h ← IO.FS.Handle.mk path .write
          pure (.ok (IO.FS.Stream.ofHandle h))
        catch e => pure (.error (OsError.ofError e))
    match opened with
    | .error e => return .error (.opening e)
    | .ok stream =>
      try
        stream.putStr text
        stream.flush
        return .ok ⟨⟩
      catch e => return .error (.writing (.ofError e))
  tell text := do
    let stream ← IO.getStderr
    stream.putStr text
  clock := IO.monoMsNow
  connect _ := return .ok ()
  disconnect := return .ok ()

end Command

end Nullness

/-- Runs the command. -/
def main (args : List String) : IO UInt32 := do
  return (← Nullness.Command.run Nullness.Command.thisMachine args).toUInt32
