import FatInstall.Fault
import FatInstall.Host.Edit
import FatInstall.Journal

/-!
# Runs

A run of the program takes place in a world: the host's files, the journal, and the trace of what
the program has done so far, in order. What the other programs of the host do when they are
started is given from outside, as a function of the earlier starts, the start itself and the host.

A run ends with a result or with a failure, and leaves a world in both cases. The lists of started
commands, of journal records, and the texts written to the standard streams are views of the
trace.
-/

namespace FatInstall

/-- A command that is started. -/
structure Start where
  argv : List Text
  /-- The text on its standard input; nothing is there if none is given. -/
  input : Option String
  /-- The directory it is started in, if not the current one. -/
  cwd : Option String
  /-- Changes to the environment. -/
  env : List (String × String)
  deriving DecidableEq, Repr

/-- How a start ends. -/
inductive Reply
  /-- The command ran to its end. A negative status is the number of the signal that ended it. -/
  | exited (status : Int) (out err : String)
  /-- The command could not be started. -/
  | unstarted (why : Host.Refusal)
  /-- The command ran and wrote something that is no text. -/
  | garbled
  /-- The user interrupted it and this program. -/
  | interrupted
  deriving DecidableEq, Repr

/-- The other programs of the host: what a start does, given the earlier starts, the oldest
first. -/
abbrev Programs := List Start → Start → Host → Reply × Host

/-- What the program does, one thing after the other. -/
inductive Event
  /-- A command was started, and ended. -/
  | started (start : Start) (reply : Reply)
  /-- A record was kept. -/
  | logged (record : Journal.Record)
  /-- A text was written to standard output. -/
  | printed (text : Text)
  /-- A text was written to standard error. -/
  | complained (text : Text)
  /-- The program looked whether the path leads to something. -/
  | sought (path : Path) (found : Bool)
  /-- The program is about to make a directory at the path, with those above it. -/
  | making (path : Path)
  /-- The program is about to remove what the path names. -/
  | removing (path : Path)
  deriving DecidableEq, Repr

namespace Event

/-- The start of an event. -/
def start? : Event → Option Start
  | started s _ => some s
  | _ => none

/-- The record of an event. -/
def record? : Event → Option Journal.Record
  | logged r => some r
  | _ => none

/-- What an event adds to standard output. -/
def output : Event → Text
  | printed t => t
  | _ => .empty

/-- What an event adds to standard error. -/
def complaint : Event → Text
  | complained t => t
  | _ => .empty

end Event

/-- The commands started in a trace. -/
def startsOf (trace : List Event) : List Start := trace.filterMap Event.start?

/-- The records kept in a trace. -/
def recordsOf (trace : List Event) : List Journal.Record := trace.filterMap Event.record?

/-- What a trace writes to standard output. -/
def outputOf (trace : List Event) : Text := Text.join (trace.map Event.output)

/-- What a trace writes to standard error. -/
def complaintsOf (trace : List Event) : Text := Text.join (trace.map Event.complaint)

/-- The world of a run. -/
structure World where
  host : Host
  journal : Journal
  /-- What was done so far, the oldest first. -/
  trace : List Event
  deriving DecidableEq, Repr

/-- A run that ends with a result of the given type or with a failure. -/
def Run (α : Type) := Programs → World → Except Failure α × World

namespace Run

variable {α β : Type}

/-- The run that does nothing. -/
def done (a : α) : Run α := fun _ w => (.ok a, w)

/-- One run after the other; a failure ends both. -/
def andThen (r : Run α) (k : α → Run β) : Run β := fun programs w =>
  match r programs w with
  | (.ok a, w') => k a programs w'
  | (.error f, w') => (.error f, w')

instance : Monad Run where
  pure := done
  bind := andThen

/-- The run that fails. -/
def fail (f : Failure) : Run α := fun _ w => (.error f, w)

/-- The run with its failure as a result. -/
def attempt (r : Run α) : Run (Except Failure α) := fun programs w =>
  let (e, w') := r programs w
  (.ok e, w')

/-- The result, or the failure, of a computation that touches nothing. -/
def ofExcept (e : Except Failure α) : Run α := fun _ w => (e, w)

/-- A look at the host. -/
def look (f : Host → Except Host.Refusal α) : Run α := fun _ w =>
  ((f w.host).mapError Failure.refused, w)

/-- A change of the host that succeeds or fails. -/
def alter (f : Host → Except Failure α × Host) : Run α := fun _ w =>
  let (e, h) := f w.host
  (e, { w with host := h })

/-- A change of the host, or its refusal. -/
def change (f : Host → Except Host.Refusal α × Host) : Run α :=
  alter fun h => ((f h).1.mapError Failure.refused, (f h).2)

/-- Adds an event to the trace. -/
def note (e : Event) : Run Unit := fun _ w => (.ok (), { w with trace := w.trace ++ [e] })

/-- Writes a line to standard output. -/
def print (line : Text) : Run Unit := note (.printed (line ++ "\n"))

/-- Writes a line to standard error. -/
def complain (line : Text) : Run Unit := note (.complained (line ++ "\n"))

/-- Starts a command and waits for its end. -/
def start (s : Start) : Run Reply := fun programs w =>
  let (reply, h) := programs (startsOf w.trace) s w.host
  (.ok reply, { w with host := h, trace := w.trace ++ [.started s reply] })

/-- Looks whether the path leads to something. -/
def seek (p : Path) : Run Bool := do
  let found ← look (·.doesExist p)
  note (.sought p found)
  return found

/-- Makes a directory and those above it that are missing. -/
def make (p : Path) : Run Unit := do
  note (.making p)
  change (·.makeDirectory p)

/-- Removes what the path leads to in the given way: a directory with all that is below it, or a
file. -/
def discardBy (r : Host.TreeRemoval Failure) (p : Path) : Run Unit := do
  let isDirectory ← look (·.isDirectory p)
  note (.removing p)
  if isDirectory then alter (·.removeTreeBy r p) else alter (·.unlinkBy r p)

/-- Removes what the path leads to on a host where every entry may be removed. -/
def discard (p : Path) : Run Unit := discardBy (.plain .refused) p

/-- Sends a record to a sink. A log file takes only what has a form in UTF-8. -/
def sendTo (r : Journal.Record) (w : World) : Journal.Sink → World
  | .console => { w with trace := w.trace ++ [.complained (w.journal.lines r)] }
  | .file none => w
  | .file (some number) =>
    match (w.journal.lines r).string? with
    | some s =>
      { w with host := { w.host with tree := w.host.tree.append number s.toUTF8.toList } }
    | none => w

/-- Keeps a record and sends it to all sinks, unless it is below the threshold. -/
def write (r : Journal.Record) : Run Unit := fun _ w =>
  if w.journal.accepts r.level then
    (.ok (), w.journal.sinks.foldl (sendTo r) { w with trace := w.trace ++ [.logged r] })
  else (.ok (), w)

/-- Writes a message to a channel of the journal. -/
def log (level : Journal.Level) (channel : Journal.Channel) (message : Text) : Run Unit :=
  write ⟨level, channel.name, message, false⟩

end Run

end FatInstall
