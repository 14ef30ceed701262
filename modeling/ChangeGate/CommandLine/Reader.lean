import ChangeGate.CommandLine.Flag

/-! # Reading a command line

**scan** goes through the arguments of one level from left to right and collects the options that are
given; at the top level a command ends the scan, and its own level is read before the options of the
top level are settled. An option whose value is the next argument is only settled when the next option
or operand comes, so that an argument that is unknown is told first. -/

namespace ChangeGate.CommandLine

/-- The arguments of one level so far. -/
structure Scan where
  /-- The options that are settled, with their values. -/
  given : List (Flag × Text)
  /-- The last option, if it is not settled, with its value if that is known. -/
  pending : Option (Flag × Option Text)
  /-- The operands. -/
  operands : List Text
  /-- Whether only operands may follow. -/
  trailing : Bool
deriving DecidableEq, Repr

namespace Scan

/-- Nothing so far. -/
def empty : Scan := ⟨[], none, [], false⟩

/-- The value of an option that is settled. -/
def value? (s : Scan) (f : Flag) : Option Text := s.given.lookup f

/-- An option settled with a value. -/
def settle (s : Scan) (f : Flag) (v : Text) : Except Stop Scan :=
  if (s.value? f).isSome then .error (.refused .conflict)
  else if !f.accepts v then .error (.refused .invalidValue)
  else .ok { s with given := s.given ++ [(f, v)] }

/-- The pending option settled. -/
def resolve (s : Scan) : Except Stop Scan :=
  match s.pending with
  | none => .ok s
  | some (_, none) => .error (.refused .invalidValue)
  | some (f, some v) => { s with pending := none }.settle f v

/-- An option settled after the pending one. -/
def give (s : Scan) (f : Flag) (v : Text) : Except Stop Scan := s.resolve.bind fun r => r.settle f v

/-- An option whose value is still to come. -/
def await (s : Scan) (f : Flag) : Except Stop Scan :=
  s.resolve.map fun r => { r with pending := some (f, none) }

/-- The option that waits for its value. -/
def awaiting? (s : Scan) : Option Flag :=
  match s.pending with
  | some (f, none) => some f
  | _ => none

/-- An option that takes no value. -/
def giveBare (l : Level) (s : Scan) (f : Flag) : Except Stop Scan :=
  match f with
  | .help => s.resolve.bind fun _ => .error (.help (.level l))
  | .version => s.resolve.bind fun _ => .error (.version l)
  | _ => s.give f []

/-- An option given by its name and perhaps a value behind an equals sign. -/
def named (l : Level) (s : Scan) (name : Text) (v : Option Text) : Except Stop Scan :=
  match l.named? name with
  | none => .error (.refused .unknownArgument)
  | some f =>
    if f.takesValue then
      match v with
      | some t => s.give f t
      | none => s.await f
    else if v.isSome then .error (.refused .needlessValue)
    else s.giveBare l f

/-- Options given by their letters; what follows one that takes a value is the value. -/
def lettered (l : Level) (s : Scan) : Text → Except Stop Scan
  | [] => .ok s
  | c :: rest =>
    match l.lettered? c with
    | none => .error (.refused .unknownArgument)
    | some f =>
      if f.takesValue then
        match rest with
        | [] => s.await f
        | '=' :: v => s.give f v
        | v => s.give f v
      else
        match s.giveBare l f with
        | .error e => .error e
        | .ok r => lettered l r rest

/-- An operand; only one level takes any. -/
def operand (l : Level) (s : Scan) (t : Text) : Except Stop Scan :=
  match l with
  | .match_ => s.resolve.map fun r => { r with operands := r.operands ++ [t] }
  | .detect => .error (.refused .unknownArgument)
  | .top =>
    -- a command after `--` is an argument too many, and no unknown command
    if s.trailing && (t == "help".toList || (Level.ofCommand? t).isSome) then
      .error (.refused .unknownArgument)
    else .error (.refused .unknownCommand)

/-- One argument that is no command. -/
def argument (l : Level) (s : Scan) (t : Text) : Except Stop Scan :=
  if s.trailing then s.operand l t
  else
    let value (f : Flag) : Except Stop Scan := .ok { s with pending := some (f, some t) }
    let plain : Except Stop Scan :=
      match s.awaiting? with
      | some f => value f
      | none => s.operand l t
    match s.awaiting? with
    | some f =>
      -- even `--` is the value of an option whose values may start with dashes
      if f.takesDashes then value f
      else
        -- otherwise a dash starts the next option, and the one that waits has no value
        match t with
        | ['-', '-'] => .ok { s with trailing := true }
        | '-' :: '-' :: body => named l s (body.takeWhile (· != '=')) ((body.dropWhile (· != '=')).tail?)
        | '-' :: c :: body => lettered l s (c :: body)
        | _ => plain
    | none =>
      match t with
      | ['-', '-'] => .ok { s with trailing := true }
      | '-' :: '-' :: body => named l s (body.takeWhile (· != '=')) ((body.dropWhile (· != '=')).tail?)
      | '-' :: c :: body => lettered l s (c :: body)
      | _ => plain

end Scan

/-- A request for help about the commands that are named. -/
def helpAbout : List Text → Stop
  | [] => .help (.level .top)
  | [t] =>
    if t = "help".toList then .help .help
    else (Level.ofCommand? t).elim (.refused .unknownCommand) fun l => .help (.level l)
  | _ => .refused .unknownCommand

/-- The arguments of a level, up to a command, and what follows the command. -/
def scan (l : Level) (s : Scan) : List Text → Except Stop (Scan × Option (Level × List Text))
  | [] => .ok (s, none)
  | t :: rest =>
    if l = .top ∧ s.trailing = false ∧ s.awaiting?.isNone ∧ t = "help".toList then
      .error (helpAbout rest)
    else
      match (if l = .top ∧ s.trailing = false ∧ s.awaiting?.isNone then Level.ofCommand? t else none) with
      | some below => .ok (s, some (below, rest))
      | none =>
        match s.argument l t with
        | .error e => .error e
        | .ok r => scan l r rest

/-! ## Environment and defaults -/

/-- The value of an option on a level: the one that is given, or else the one of a variable. -/
def valueOf (lookup : Text → Option Text) (l : Level) (s : Scan) (f : Flag) : Option Text :=
  (s.value? f).or ((f.standIn? l).bind lookup)

/-- Whether every variable that stands in for an option of a level has a value that the option may
have. -/
def acceptsVariables (lookup : Text → Option Text) (l : Level) (s : Scan) : Bool :=
  l.flags.all fun f => (valueOf lookup l s f).all f.accepts

/-- The arguments of a level once all of them are read. -/
def finish (lookup : Text → Option Text) (l : Level) (s : Scan) : Except Stop Scan :=
  match s.resolve with
  | .error e => .error e
  | .ok r => if acceptsVariables lookup l r then .ok r else .error (.refused .invalidValue)

/-- The command of a level. -/
def commandOf (lookup : Text → Option Text) (l : Level) (s : Scan) : Except Stop (Option Command) :=
  match l with
  | .top => .ok none
  | .detect =>
    .ok (some (.detect
      ⟨valueOf lookup l s .patterns, valueOf lookup l s .outputFile, s.value? .outputKey,
        valueOf lookup l s .address, (s.value? .strict).isSome⟩))
  | .match_ =>
    match s.value? .patterns, s.value? .patternsFile, s.operands, s.value? .base with
    | some _, some _, _, _ => .error (.refused .conflict)
    | _, _, _ :: _, some _ => .error (.refused .conflict)
    | none, none, _, _ => .error (.refused .missing)
    | some t, none, files, base => .ok (some (.match_ ⟨.given t, source files base, exitCode⟩))
    | none, some p, files, base => .ok (some (.match_ ⟨.file p, source files base, exitCode⟩))
where
  source (files : List Text) (base : Option Text) : FileSource :=
    match files with
    | t :: rest => .given t rest
    | [] => base.elim .input .changedSince
  exitCode : Bool := (s.value? .exitCode).isSome

/-- The format of a name. -/
def formatOf (t : Option Text) : Format := if t = some "json".toList then .json else .text

/-- What a command line asks for, given the values of environment variables. Of an option that is
given on both levels, the inner one counts. -/
def read (lookup : Text → Option Text) (arguments : List Text) : Except Stop Invocation :=
  match scan .top .empty arguments with
  | .error e => .error e
  | .ok (top, none) =>
    (finish lookup .top top).map fun s =>
      ⟨valueOf lookup .top s .config, formatOf (s.value? .output), none⟩
  | .ok (top, some (l, rest)) =>
    match scan l .empty rest with
    | .error e => .error e
    | .ok (below, _) =>
      match finish lookup l below with
      | .error e => .error e
      | .ok inner =>
        match commandOf lookup l inner with
        | .error e => .error e
        | .ok command =>
          (finish lookup .top top).map fun outer =>
            ⟨(inner.value? .config).or (valueOf lookup .top outer .config),
              formatOf ((inner.value? .output).or (outer.value? .output)), command⟩

end ChangeGate.CommandLine
