import ChangeGate.Files.Disk
import ChangeGate.Host.Basic
import ChangeGate.Log.Filter

/-! # Machines

A **machine** is a host whose whole state is a value: environment variables, a file tree, a disk,
standard input and a server are given, and what the program writes and asks is recorded. A **session**
is a program that runs on a machine, so what a run does is a function of the machine. -/

namespace ChangeGate

/-- The state of a host. -/
structure Machine where
  /-- The environment variables. -/
  environment : List (Text × Text)
  /-- The file tree. -/
  tree : Files.Tree
  /-- What stops writes to files. -/
  disk : Files.Disk
  /-- The number of the next write to a file. -/
  writes : Nat
  /-- The place of the working directory. -/
  cwd : Path
  /-- What is given on standard input. -/
  input : Text.Bytes
  /-- Whether standard output is shown on a terminal. -/
  terminal : Bool
  /-- How the server answers. -/
  server : Http.Server
  /-- What was written on standard output. -/
  output : Text
  /-- What was written on standard error. -/
  errors : Text
  /-- The requests that were sent. -/
  requests : List Http.Request

/-- A program that runs on a machine. -/
abbrev Session := StateM Machine

namespace Machine

/-- A machine on which nothing was run yet, with the disk of a computer. -/
def start (environment : List (Text × Text)) (tree : Files.Tree) (cwd : Path) (input : Text.Bytes)
    (server : Http.Server) : Machine :=
  ⟨environment, Files.Disk.withDevices tree, .usual, 0, cwd, input, false, server, [], [], []⟩

/-- The value of an environment variable. -/
def valueOf (w : Machine) (name : Text) : Option Text := w.environment.lookup name

/-- The name of the variable that filters the log. -/
def filterVariable : Text := "PATHGATE_LOG".toList

/-- The filter of the log. -/
def filter (w : Machine) : Log.Filter := .ofVariable (w.valueOf filterVariable)

/-- The working directory as a text. -/
def workdir (w : Machine) : Text := Files.absolute w.cwd

/-- What comes of writing pieces to the file at a place. -/
def written (w : Machine) (place : Path) (pieces : List Text.Bytes) : Files.Written :=
  Files.Disk.writeAll (w.disk place) w.writes pieces

/-- A machine after pieces were written at the end of the file at a place. -/
def afterWriting (w : Machine) (place : Path) (pieces : List Text.Bytes) : Machine :=
  { w with
    tree := w.tree.addTo place (w.written place pieces).bytes
    writes := (w.written place pieces).next }

/-- A machine after an attempt to write pieces at the end of a file. -/
def appendFile (w : Machine) (path : Text) (pieces : List Text.Bytes) :
    Except Files.Cause Unit × Machine :=
  match w.tree.opened w.cwd path with
  | .error e => (.error e, w)
  | .ok place =>
    ((w.written place pieces).fault.elim (.ok ()) .error, w.afterWriting place pieces)

/-- A machine after a request, with what came of it. -/
def send (w : Machine) (r : Http.Request) : Except Http.Breakdown Http.Response × Machine :=
  (w.server w.requests r, { w with requests := w.requests ++ [r] })

/-- A machine after an event. -/
def log (w : Machine) (e : Log.Event) : Machine :=
  if w.filter.shows e then { w with errors := w.errors ++ e.line } else w

end Machine

instance : Host Session where
  lookup name := fun w => (w.valueOf name, w)
  workdir := fun w => (w.workdir, w)
  readFile path := fun w => (w.tree.read w.cwd path, w)
  isFile path := fun w => (w.tree.isFile w.cwd path, w)
  isOccupied path := fun w => (w.tree.occupied w.cwd path, w)
  appendFile path pieces := fun w => w.appendFile path pieces
  readInput := fun w => (w.input, w)
  inRepository := fun w => (Repository.isRepository w.tree w.cwd w.workdir, w)
  changedSince base := fun w => (Repository.changedFiles w.tree w.cwd w.workdir base, w)
  send r := fun w => w.send r
  isTerminal := fun w => (w.terminal, w)
  print t := fun w => ((), { w with output := w.output ++ t })
  complain t := fun w => ((), { w with errors := w.errors ++ t })
  log e := fun w => ((), w.log e)

end ChangeGate
