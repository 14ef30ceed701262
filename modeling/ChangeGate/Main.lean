import ChangeGate.Log.Filter
import ChangeGate.Program.Run

/-! # The program

The computer itself as a host, and the entry point. Everything that is decided, is decided elsewhere;
here files are read and written and the standard streams are used. This host has no access to a
network, so that every exchange breaks down, and it does not read the objects of a repository, so a run
that needs them ends with an error. -/

namespace ChangeGate

/-- A program that runs on the computer, with the filter of its log. -/
abbrev Console := ReaderT Log.Filter IO

namespace Console

/-- The number of an error of the operating system and what it says, where it comes from there. -/
def systemError? : IO.Error → Option (Nat × String)
  | .alreadyExists _ code phrase => some (code.toNat, phrase)
  | .otherError code phrase => some (code.toNat, phrase)
  | .resourceBusy code phrase => some (code.toNat, phrase)
  | .resourceVanished code phrase => some (code.toNat, phrase)
  | .unsupportedOperation code phrase => some (code.toNat, phrase)
  | .hardwareFault code phrase => some (code.toNat, phrase)
  | .unsatisfiedConstraints code phrase => some (code.toNat, phrase)
  | .illegalOperation code phrase => some (code.toNat, phrase)
  | .protocolError code phrase => some (code.toNat, phrase)
  | .timeExpired code phrase => some (code.toNat, phrase)
  | .interrupted _ code phrase => some (code.toNat, phrase)
  | .noFileOrDirectory _ code phrase => some (code.toNat, phrase)
  | .invalidArgument _ code phrase => some (code.toNat, phrase)
  | .permissionDenied _ code phrase => some (code.toNat, phrase)
  | .resourceExhausted _ code phrase => some (code.toNat, phrase)
  | .inappropriateType _ code phrase => some (code.toNat, phrase)
  | .noSuchThing _ code phrase => some (code.toNat, phrase)
  | .unexpectedEof => none
  | .userError _ => none

/-- The causes that have a number of their own. -/
def numbered : List Files.Cause :=
  [.absent, .notDirectory, .directory, .tooLong, .tooManyLinks, .noRoom]

/-- The cause that an error of the operating system stands for. -/
def causeOf (number : Nat) (phrase : String) : Files.Cause :=
  (numbered.find? fun c => c.number? == some number).getD (.system number phrase.toList)

/-- Carries out an action on a file; every error of the operating system is a cause. -/
def onFile {α : Type} (action : IO α) : Console (Except Files.Cause α) := fun _ => do
  match ← action.toBaseIO with
  | .ok a => pure (.ok a)
  | .error e =>
    match systemError? e with
    | some (number, phrase) => pure (.error (causeOf number phrase))
    | none => throw e

/-- The bytes of a list. -/
def toArray (bytes : Text.Bytes) : ByteArray := ⟨bytes.toArray⟩

/-- The content of a file. -/
def content (path : Text) : IO Text.Bytes := do
  pure (← IO.FS.readBinFile (String.ofList path)).toList

/-- Pieces added one after another at the end of a file; none waits in a buffer when the next one is
written. -/
def addTo (path : Text) (pieces : List Text.Bytes) : IO Unit := do
  let handle ← IO.FS.Handle.mk (String.ofList path) .append
  for piece in pieces do
    handle.write (toArray piece)
    handle.flush

/-- What is left on a stream. -/
partial def drain (stream : IO.FS.Stream) (read : ByteArray) : IO ByteArray := do
  let more ← stream.read 65536
  if more.isEmpty then pure read else drain stream (read ++ more)

/-- A text written on a stream. -/
def write (stream : IO.FS.Stream) (t : Text) : IO Unit := do
  stream.putStr (String.ofList t)
  stream.flush

end Console

instance : Host Console where
  lookup name := fun _ => do
    pure ((← IO.getEnv (String.ofList name)).map String.toList)
  workdir := fun _ => do pure (← IO.currentDir).toString.toList
  readFile path := Console.onFile (Console.content path)
  isFile path := do pure (← Console.onFile (Console.content path)).toBool
  isOccupied path := do
    pure (← Console.onFile (IO.FS.Handle.mk (String.ofList path) .read)).toBool
  appendFile path pieces := Console.onFile (Console.addTo path pieces)
  readInput := fun _ => do
    pure (← Console.drain (← IO.getStdin) ByteArray.empty).toList
  inRepository := throw (IO.userError "the repository cannot be read")
  changedSince _ := throw (IO.userError "the repository cannot be read")
  send _ := pure (.error ⟨"the server cannot be reached".toList, []⟩)
  isTerminal := fun _ => do (← IO.getStdout).isTty
  print t := fun _ => do Console.write (← IO.getStdout) t
  complain t := fun _ => do Console.write (← IO.getStderr) t
  log e := fun filter => do
    if filter.shows e then Console.write (← IO.getStderr) e.line

/-- Runs the program on the computer; an error that the program does not foresee ends it as trouble. -/
def runOnConsole (arguments : List Text) : IO ExitStatus := do
  let filter := Log.Filter.ofVariable ((← IO.getEnv "PATHGATE_LOG").map String.toList)
  try
    let program : Console ExitStatus := Program.run arguments
    program.run filter
  catch e => do
    Console.write (← IO.getStderr) ("pathgate: ".toList ++ e.toString.toList ++ ['\n'])
    pure .trouble

end ChangeGate

/-- The entry point. -/
def main (arguments : List String) : IO UInt32 := do
  let status ← ChangeGate.runOnConsole (arguments.map String.toList)
  pure status.code.toUInt32
