import FatInstall.Shell.Grammar
import FatInstall.Utility.Basic

/-!
# The state of a running shell

A shell works on the files of the host. It has variables, parameters and a status, reads from one
input, and writes to numbered streams, each of which goes to a sink: one of the texts that are
collected, or an open file.

This serves runs of real processes only (`World.Processes`).
-/

namespace FatInstall.Shell

/-- Where a stream goes. -/
inductive Sink
  /-- One of the collected texts; the first two are the shell's own output and complaints. -/
  | text (number : Nat)
  | file (number : Nat)
  | nowhere
  deriving DecidableEq, Repr

/-- The state of a running shell. -/
structure State where
  host : Host
  /-- The values of the variables. -/
  held : List (String × String)
  exported : List String
  functions : List (String × Command)
  /-- The name of the shell in messages, and its parameters. -/
  name : String
  args : List String
  status : Nat
  /-- The number of the line that is run. -/
  line : Nat
  /-- The number of loops that are being run around. -/
  loops : Nat
  process : Nat
  texts : Array ByteArray
  sinks : List (Nat × Sink)
  input : List UInt8
  /-- Does a command that fails end the shell? -/
  stopsOnFailure : Bool
  /-- Does a variable without value end the shell? -/
  stopsOnUnset : Bool
  /-- What is to be run on a signal, or at the end for the number zero. -/
  traps : List (Nat × String)

/-- How a shell leaves its usual course. -/
inductive Flow
  | leave (status : Nat)
  | signalled (number : Nat)
  | broken (levels : Nat)
  | continued (levels : Nat)
  | returned (status : Nat)
  /-- The run takes too long. -/
  | stuck
  deriving DecidableEq, Repr

/-- An action of the shell. -/
abbrev Act (α : Type) := ExceptT Flow (StateM State) α

namespace State

/-- The value of a variable. -/
def lookup? (s : State) (name : String) : Option String := s.held.lookup name

/-- The state with a variable set. -/
def setVariable (s : State) (name value : String) : State :=
  { s with held := (name, value) :: s.held.filter fun v => v.1 != name }

/-- The variables that programs get. -/
def environment (s : State) : List (String × String) :=
  s.held.filter fun v => s.exported.contains v.1

/-- The characters that separate fields. -/
def separators (s : State) : List Char := ((s.lookup? "IFS").getD " \t\n").toList

/-- The value of a parameter or a variable. -/
def value? (s : State) (name : String) : Option String :=
  match name.toList with
  | ['?'] => some (toString s.status)
  | ['$'] => some (toString s.process)
  | ['#'] => some (toString s.args.length)
  | ['0'] => some s.name
  | ['-'] => some ((if s.stopsOnFailure then "e" else "") ++ if s.stopsOnUnset then "u" else "")
  | ['@'] | ['*'] => if s.args = [] then none else some (String.intercalate " " s.args)
  | c :: _ =>
    if c.isDigit then
      match name.toNat? with
      | some n => if n = 0 then some s.name else s.args[n - 1]?
      | none => none
    else s.lookup? name
  | [] => none

end State

/-- Sets the status. -/
def setStatus (n : Nat) : Act Unit := modify fun s => { s with status := n }

/-- Writes to a stream. -/
def writeTo (stream : Nat) (bytes : List UInt8) : Act Unit :=
  modify fun s =>
    match (s.sinks.lookup stream).getD .nowhere with
    | .text n =>
      { s with texts := s.texts.modify n fun t => t ++ ⟨bytes.toArray⟩ }
    | .file n => { s with host := { s.host with tree := s.host.tree.append n bytes } }
    | .nowhere => s

/-- Complains, naming the shell and the line. -/
def complain (text : String) : Act Unit := do
  let s ← get
  writeTo 2 (Utility.bytesOf s!"{s.name}: {s.line}: {text}\n")

/-- The status of a shell that met an error. -/
def statusError : Nat := 2

/-- Complains and ends the shell. -/
def stop {α : Type} (text : String) : Act α := do
  complain text
  throw (.leave statusError)

end FatInstall.Shell
