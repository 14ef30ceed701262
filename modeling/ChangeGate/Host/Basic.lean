import ChangeGate.Files.Path
import ChangeGate.Http.Exchange
import ChangeGate.Log.Event
import ChangeGate.Repository.Changes

/-! # Hosts

A **host** is what the program runs on: it gives access to environment variables, files, a repository,
a server and the standard streams. The program itself only decides what to ask of its host and in
which order. What a host may refuse, it refuses with a cause. Three things are taken for granted: the
working directory is known, standard input can be read to its end, and standard output and standard
error take all that is written on them. -/

namespace ChangeGate

/-- The actions that a program may ask of its host. -/
class Host (m : Type → Type) where
  /-- The value of an environment variable. -/
  lookup : Text → m (Option Text)
  /-- The path of the working directory, which every host knows. -/
  workdir : m Text
  /-- The content of the file at a path. -/
  readFile : Text → m (Except Files.Cause Text.Bytes)
  /-- Whether there is a file at a path. -/
  isFile : Text → m Bool
  /-- Whether there is anything at a path. -/
  isOccupied : Text → m Bool
  /-- Pieces written one after another at the end of a file, which is made if it is absent. The first one
  that cannot be written to its end is the last one; what was written before it stays. -/
  appendFile : Text → List Text.Bytes → m (Except Files.Cause Unit)
  /-- All that is given on standard input. -/
  readInput : m Text.Bytes
  /-- Whether the working directory belongs to a repository. -/
  inRepository : m Bool
  /-- The files that changed since a revision, in the repository of the working directory. -/
  changedSince : Text → m (Except Repository.ChangesError (List Text))
  /-- The response of the server to a request, if the exchange does not break down; an exchange without an
  end does so when the time that the settings allow is over. -/
  send : Http.Request → m (Except Http.Breakdown Http.Response)
  /-- Whether standard output is shown on a terminal. -/
  isTerminal : m Bool
  /-- A text written on standard output. -/
  print : Text → m Unit
  /-- A text written on standard error. -/
  complain : Text → m Unit
  /-- An event that the log may show. -/
  log : Log.Event → m Unit

/-- The text of the file at a path. -/
def Host.readText {m : Type → Type} [Monad m] [Host m] (path : Text) :
    m (Except Files.Cause Text) := do
  match ← Host.readFile path with
  | .error e => pure (.error e)
  | .ok bytes => pure ((Text.decode? bytes).elim (.error .notText) .ok)

/-- Events that the log may show, in order. -/
def Host.logAll {m : Type → Type} [Monad m] [Host m] : List Log.Event → m Unit
  | [] => pure ()
  | e :: rest => do Host.log e; Host.logAll rest

end ChangeGate
