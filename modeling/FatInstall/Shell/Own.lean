import FatInstall.Shell.Find
import FatInstall.Shell.Signal
import FatInstall.Shell.State

/-!
# Commands of the shell itself

Commands that change the shell, and the small programs that it has itself.

This serves runs of real processes only (`World.Processes`).
-/

namespace FatInstall.Shell

/-- The end of a small program taken over by the shell. -/
def finish (e : Utility.Ended) : Act Unit := do
  modify fun s => { s with host := e.host, input := e.input, status := e.status }
  writeTo 1 e.out
  writeTo 2 e.err

/-- Runs a small program, under a name for its messages. -/
def callAs (name : String) (program : Utility.Program) (args : List String) : Act Unit := do
  let s ← get
  finish (program ⟨name, args, s.host, s.environment, s.input⟩)

/-- The message of a condition's fault. -/
def conditionMessage : Utility.ConditionFault → String
  | .illegalNumber w => s!"Illegal number: {w}"
  | .operandMissing w => s!"{w}: unexpected operator"
  | .bracketMissing => "missing ]"

/-- The message of a fault in a format. -/
def printMessage : Utility.PrintFault → String
  | .notNumeric w => s!"{w}: expected numeric value"
  | .partlyNumeric w => s!"{w}: not completely converted"
  | .noDirective d => s!"{d}: invalid directive"

/-- The small programs that the shell has itself. -/
def ownPrograms : List (String × Utility.Program) :=
  [("echo", Utility.echoEscaped), ("printf", Utility.printf fun _ f => printMessage f),
    ("true", fun c => c.ended 0),
    ("false", fun c => c.ended 1), (":", fun c => c.ended 0),
    ("test", Utility.test conditionMessage false), ("[", Utility.test conditionMessage true),
    ("wait", fun c => c.ended 0), ("umask", fun c => c.prints "0022\n")]

/-- The whole number that a word of a command writes. -/
def countOf (command word : String) : Act Nat :=
  match word.toNat? with
  | some n => return n
  | none => stop s!"{command}: Illegal number: {word}"

/-- Changes the current directory. -/
def changeDirectory (args : List String) : Act Unit := do
  let s ← get
  let target := match args with
    | "--" :: t :: _ => t
    | t :: _ => t
    | [] => (s.lookup? "HOME").getD ""
  let p := Path.ofString target
  match s.host.directory p with
  | .ok place =>
    let from_ := Path.ofString ((s.lookup? "PWD").getD "/")
    let now := (Path.absolute from_.parts p).string
    set { s.setVariable "PWD" now with host := { s.host with here := place }, status := 0 }
  | .error _ =>
    complain s!"cd: can't cd to {target}"
    setStatus 2

/-- Gives up variables or functions. -/
def unset (args : List String) : Act Unit :=
  modify fun s =>
    { s with
      held := s.held.filter fun v => !args.contains v.1
      functions := s.functions.filter fun f => !(args.contains "-f" && args.contains f.1)
      status := 0 }

/-- The name and the value of a word that sets a variable. -/
def splitSetting (w : String) : String × Option String :=
  let cs := w.toList
  match cs.dropWhile (· ≠ '=') with
  | [] => (w, none)
  | _ :: value => (String.ofList (cs.takeWhile (· ≠ '=')), some (String.ofList value))

/-- Sets variables, and hands them on to programs if asked to. -/
def declare (exports : Bool) (args : List String) : Act Unit := do
  for w in args.filter fun w => !w.startsWith "-" do
    let (name, value) := splitSetting w
    if let some v := value then modify (·.setVariable name v)
    if exports then modify fun s => { s with exported := name :: s.exported }
  setStatus 0

/-- Sets options and parameters. -/
def setOptions : List String → Act Unit
  | [] => setStatus 0
  | w :: ws => do
    let flag (on : Bool) (cs : List Char) : Act Unit := do
      if cs.contains 'e' then modify fun s => { s with stopsOnFailure := on }
      if cs.contains 'u' then modify fun s => { s with stopsOnUnset := on }
    match w.toList with
    | ['-', '-'] => modify fun s => { s with args := ws, status := 0 }
    | '-' :: cs =>
      flag true cs
      setOptions ws
    | '+' :: cs =>
      flag false cs
      setOptions ws
    | _ => modify fun s => { s with args := w :: ws, status := 0 }

/-- Drops parameters. -/
def shift (args : List String) : Act Unit := do
  let n ← match args with
    | [] => pure 1
    | w :: _ => countOf "shift" w
  let s ← get
  if s.args.length < n then stop "shift: can't shift that many"
  set { s with args := s.args.drop n, status := 0 }

/-- The pieces of a line for so many variables; the last gets all that is left. -/
def linePieces (separators : List Char) : Nat → List Char → List String
  | 0, _ => []
  | 1, cs =>
    let cs := cs.dropWhile (separators.contains ·)
    [String.ofList (cs.reverse.dropWhile (separators.contains ·)).reverse]
  | n + 1, cs =>
    let cs := cs.dropWhile (separators.contains ·)
    let piece := cs.takeWhile (!separators.contains ·)
    String.ofList piece :: linePieces separators n (cs.drop (piece.length + 1))

/-- Reads a line into variables. -/
def readInto (args : List String) : Act Unit := do
  let s ← get
  let names := args.filter fun w => !w.startsWith "-"
  let line := s.input.takeWhile (· != 10)
  let rest := s.input.drop line.length
  let values := linePieces s.separators names.length (Utility.textOf line).toList
  set { s with input := rest.drop 1 }
  for (name, value) in names.zip values do modify (·.setVariable name value)
  setStatus (if rest = [] then 1 else 0)

/-- Leaves the shell with a status. -/
def leave (args : List String) : Act Unit := do
  match args with
  | [] => throw (.leave (← get).status)
  | w :: _ => throw (.leave ((← countOf "exit" w) % 256))

/-- Notes what is to be run on signals. -/
def setTraps (args : List String) : Act Unit := do
  match args with
  | action :: names =>
    let numbers := names.filterMap signalNumber?
    modify fun s =>
      let kept := s.traps.filter fun t => !numbers.contains t.1
      { s with
        traps := if action = "-" then kept else numbers.map (·, action) ++ kept
        status := 0 }
  | [] => setStatus 0

/-- Says where a command comes from. -/
def describe (args : List String) : Act Unit := do
  let s ← get
  let names := args.filter fun w => !w.startsWith "-"
  let own := ["cd", "exit", "export", "unset", "set", "shift", "read", "eval", "exec", ".", "kill",
    "trap", "return", "break", "continue", "command", "pwd", "local"]
  let isOwn (n : String) : Bool := own.contains n || (ownPrograms.lookup n).isSome
  let isFunction (n : String) : Bool := (s.functions.lookup n).isSome
  let known := names.map fun n =>
    if isFunction n || isOwn n then some n
    else match findProgram s.host "/usr/bin" n with
      | .ok p => some (if n.toList.contains '/' then n else "/usr/bin/" ++ p)
      | .error _ => none
  writeTo 1 (Utility.bytesOf (String.join (known.filterMap fun k => k.map (· ++ "\n"))))
  setStatus (if known.all Option.isSome then 0 else 127)

/-- The signal and the processes of a `kill`. -/
def killWords : List String → String × List String
  | "-s" :: sig :: ps => (sig, ps)
  | w :: ps =>
    match w.toList with
    | '-' :: cs => (String.ofList cs, ps)
    | _ => ("TERM", w :: ps)
  | [] => ("TERM", [])

end FatInstall.Shell
