import FatInstall.Shell.Find
import FatInstall.Shell.Signal
import FatInstall.Shell.State
import FatInstall.Utility.Filter

/-!
# Streams

Where the streams of a command go, and what stays of a command that is run on a copy of the shell.

This serves runs of real processes only (`World.Processes`).
-/

namespace FatInstall.Shell

/-- Runs something aside: the shell is afterwards as it was, but for the files, the texts that are
collected and what is left of the input. -/
def aside (act : Act Unit) : Act Unit := fun s =>
  match act.run s with
  | (r, s') =>
    let back :=
      { s with host := { s'.host with here := s.host.here }, texts := s'.texts, input := s'.input }
    match r with
    | .ok () => (.ok (), { back with status := s'.status })
    | .error (.leave n) | .error (.returned n) => (.ok (), { back with status := n })
    | .error (.broken _) | .error (.continued _) => (.ok (), { back with status := s'.status })
    | .error f => (.error f, back)

/-- Runs something whose output is collected apart, and gives what was collected. -/
def collecting (act : Act Unit) : Act ByteArray := do
  let s ← get
  let number := s.texts.size
  set { s with
    texts := s.texts.push ByteArray.empty
    sinks := (1, .text number) :: s.sinks.filter fun e => e.1 != 1 }
  act
  modify fun t => { t with sinks := s.sinks }
  return (← get).texts.getD number ByteArray.empty

/-- Runs a round of a loop. Says whether the loop goes on. -/
def round (act : Act Unit) : Act Bool := do
  let outside := (← get).loops
  modify fun s => { s with loops := outside + 1 }
  let goes ← tryCatch (do
    act
    return true) fun
    | .broken n => do
      modify fun s => { s with loops := outside }
      if n ≤ 1 then return false else throw (.broken (n - 1))
    | .continued n => do
      modify fun s => { s with loops := outside }
      if n ≤ 1 then return true else throw (.continued (n - 1))
    | f => do
      modify fun s => { s with loops := outside }
      throw f
  modify fun s => { s with loops := outside }
  return goes

/-- The message of a file that cannot be opened. -/
def openMessage (name : String) (toRead : Bool) (cause : Host.Cause) : String :=
  let verb := if toRead then "open" else "create"
  let reason :=
    if isAbsence cause then if toRead then "No such file" else "Directory nonexistent"
    else cause.text
  s!"cannot {verb} {name}: {reason}"

/-- Opens a file to write to. -/
def openSink (name : String) (appends : Bool) : Act (Option Sink) := do
  let s ← get
  match s.host.openToAppend (Path.ofString name) with
  | (.ok none, _) => return some .nowhere
  | (.ok (some n), h) =>
    let h :=
      if appends then h
      else match h.locate true (Path.ofString name) with
        | .ok place => { h with tree := h.tree.put place (.file n []) }
        | .error _ => h
    set { s with host := h }
    return some (.file n)
  | (.error (.system cause _), _) =>
    complain (openMessage name false cause)
    return none
  | (.error _, _) =>
    complain (openMessage name false .missing)
    return none

/-- Sends a stream to a sink. -/
def redirectTo (stream : Nat) (sink : Sink) : Act Unit :=
  modify fun s => { s with sinks := (stream, sink) :: s.sinks.filter fun e => e.1 != stream }

/-- Redirects a stream; says whether that could be done. -/
def redirect (stream : Nat) (kind : Redirection) (target : String) : Act Bool := do
  let s ← get
  match kind with
  | .document =>
    set { s with input := Utility.bytesOf target }
    return true
  | .input =>
    match Utility.contentOf s.host [] (if target = "-" then "./-" else target) with
    | .ok bytes =>
      set { s with input := bytes }
      return true
    | .error _ =>
      let cause := match s.host.node true (Path.ofString target) with
        | .error cause => cause
        | .ok _ => .isDirectory
      if cause = .isDirectory then
        set { s with input := [] }
        return true
      complain (openMessage target true cause)
      return false
  | .duplicate =>
    if target = "-" then redirectTo stream .nowhere
    else if let some n := target.toNat? then
      redirectTo stream ((s.sinks.lookup n).getD .nowhere)
    return true
  | .output | .append =>
    match ← openSink target (kind == .append) with
    | some sink =>
      redirectTo stream sink
      return true
    | none => return false

/-- The process number of the first shell. -/
def firstProcess : Nat := 4242

/-- How a program ends. -/
inductive Ending
  | status (n : Nat)
  | signal (number : Nat)
  deriving DecidableEq, Repr

/-- Says what ended a program, if a signal did. -/
def reportEnding : Ending → Act Unit
  | .status n => setStatus n
  | .signal n => do
    let said := ((signals.lookup n).map Prod.snd).getD ""
    if said ≠ "" then writeTo 2 (Utility.bytesOf (said ++ "\n"))
    setStatus (128 + n)

end FatInstall.Shell
