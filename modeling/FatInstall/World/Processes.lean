import FatInstall.Shell.Run
import FatInstall.Text.Line
import FatInstall.World

/-!
# Programs that are there

The shell and the small programs of the host, started as the program starts its commands: in a
directory, with an environment, with a text to read. What they write is taken as text, with all
line ends made one.

They stand for executables that the program knows nothing about, and serve runs of real processes
only: what is proved about runs holds for any programs, and is said of these by no theorem of their
own.
-/

namespace FatInstall.Processes

/-- The environment that programs are started in. -/
def usualEnvironment : List (String × String) :=
  [("PATH", "/usr/local/bin:/usr/local/sbin:/usr/local/bin:/usr/sbin:/usr/bin:/sbin:/bin"),
    ("LANG", "C.UTF-8"), ("HOME", "/root"), ("COLUMNS", "80")]

/-- The environment after changes. -/
def changed (environment changes : List (String × String)) : List (String × String) :=
  changes ++ environment.filter fun v => (changes.lookup v.1).isNone

/-- Is there a character in the words of a start that no word can have? -/
def isMalformed (argv : List String) (s : Start) : Bool :=
  let hasNul (w : String) : Bool := w.toList.contains '\x00'
  argv.any hasNul || (s.cwd.map hasNul).getD false ||
    s.env.any fun v => hasNul v.1 || hasNul v.2 || v.1.toList.contains '='

/-- The place that a start takes place in. -/
def placeOf (h : Host) : Option String → Except Host.Refusal Host.Place
  | none => .ok h.here
  | some "" => .error (.system .missing "")
  | some dir => (h.directory (Path.ofString dir)).mapError fun cause => .system cause dir

/-- What a program wrote, as text. -/
def textOf? (t : ByteArray) : Option String :=
  (String.fromUTF8? t).map fun s => String.ofList (Text.unifyLineEnds s.toList)

/-- The number of steps after which a program is taken for one that does not end. -/
def patience : Nat := 200000

/-- How a finished program is seen by the one that started it. -/
def replyOf (status : Int) (texts : Array ByteArray) : Reply :=
  match textOf? (texts.getD 0 .empty), textOf? (texts.getD 1 .empty) with
  | some out, some err => .exited status out err
  | _, _ => .garbled

/-- The state that a program is started in. -/
def stateOf (argv : List String) (s : Start) (environment : List (String × String)) (h : Host) :
    Shell.State where
  host := h
  held := environment
  exported := environment.map Prod.fst
  functions := []
  name := argv.headD ""
  args := []
  status := 0
  line := 0
  loops := 0
  process := Shell.firstProcess - 1
  texts := #[.empty, .empty]
  sinks := [(1, .text 0), (2, .text 1)]
  input := Utility.bytesOf (s.input.getD "")
  stopsOnFailure := false
  stopsOnUnset := false
  traps := []

/-- Runs a program. One that does not end has to be interrupted. -/
def runProgram (argv : List String) (s : Start) (environment : List (String × String)) (h : Host) :
    Reply × Host :=
  match (Shell.program patience argv).run (stateOf argv s environment h) with
  | (.ok (.status n), t) => (replyOf n t.texts, t.host)
  | (.ok (.signal n), t) => (replyOf (-(n : Int)) t.texts, t.host)
  | (.error _, t) => (.interrupted, t.host)

/-- Starts a program whose words are the given ones. -/
def startProgram (environment : List (String × String)) (argv : List String) (s : Start)
    (h : Host) : Reply × Host :=
  if isMalformed argv s then (.unstarted .nulInPath, h)
  else
    let environment := changed environment s.env
    match placeOf h s.cwd with
    | .error why => (.unstarted why, h)
    | .ok place =>
      let there := { h with here := place }
      let name := argv.headD ""
      match Shell.findProgram there ((environment.lookup "PATH").getD "") name with
      | .error cause => (.unstarted (.system cause name), h)
      | .ok _ =>
        let (reply, h') := runProgram argv s environment there
        (reply, { h' with here := h.here })

/-- The programs of a host whose environment is the given one. They take words that have a form in
UTF-8. -/
def programs (environment : List (String × String)) : Programs := fun _ s h =>
  match s.argv.mapM Text.string? with
  | some argv => startProgram environment argv s h
  | none => (.unstarted .notEncodable, h)

end FatInstall.Processes
