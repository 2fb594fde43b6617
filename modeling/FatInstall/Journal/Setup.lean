import FatInstall.CommandLine.Given
import FatInstall.World

/-!
# Setting up the journal

The journal is set up once: a log file if one is asked for, and the console. A log file that
cannot be opened gives way to a file of a fixed name in the current directory. Later calls change
the threshold and nothing else.
-/

namespace FatInstall.Journal

/-- The name of the log file that is taken instead of one that cannot be opened. -/
def fallbackName : Text := "image-updater.log"

/-- The path of the log file that is taken instead. -/
def fallbackPath (h : Host) : Path := ⟨.root, h.here ++ [fallbackName]⟩

/-- Opens a log file under its own path, with the directories above it. -/
def openFile (path : Text) : Run (Option Nat) := do
  Run.change (·.makeDirectory (Path.ofText path).parent)
  Run.change fun h => h.openToAppend ((Path.ofText path).absolute h.here)

/-- Opens a log file, or the one that is taken instead. Gives its number and its path. -/
def openLog (path : Text) : Run (Option Nat × Text) := do
  match ← Run.attempt (openFile path) with
  | .ok number => return (number, path)
  | .error (.refused why) =>
    if !why.isBySystem then Run.fail (.refused why)
    let fallback ← Run.look fun h => .ok (fallbackPath h)
    return (← Run.change (·.openToAppend fallback), fallback.text)
  | .error f => Run.fail f

/-- Changes the journal of the world. -/
def modifyJournal (f : Journal → Journal) : Run Unit := fun _ w =>
  (.ok (), { w with journal := f w.journal })

/-- What the journal was set up with, if it was. -/
def setUpBefore : Run (Option (Option Text)) := fun _ w => (.ok w.journal.setUp, w)

/-- What is asked of the journal. -/
structure Request where
  /-- The log file; an empty path asks for none. -/
  path : Option Text
  /-- How the journal says which log file was asked for. -/
  shown : Text := path.getD "None"
  threshold : Level
  /-- Are the records to go to the console? -/
  console : Bool
  deriving DecidableEq, Repr

/-- The log file that is asked for, if one is. -/
def Request.file? (r : Request) : Option Text := r.path.filter fun p => !p.isEmpty

/-- Sets up the journal, unless that was done before, and sets its threshold. Gives the log file in
use. -/
def setUpBy (r : Request) : Run (Option Text) := do
  modifyJournal fun j => { j with threshold := r.threshold }
  match ← setUpBefore with
  | some path => return path
  | none =>
    let opened ← match r.file? with
      | some path => pure (some (← openLog path))
      | none => pure none
    let file := (opened.map fun o => [Sink.file o.1]).getD []
    let path := opened.map Prod.snd
    let sinks := file ++ if r.console then [.console] else []
    modifyJournal fun j => { j with sinks := j.sinks ++ sinks, setUp := some path }
    Run.log .info .journal
      ("Logging initialized (requested=" ++ r.shown ++ ", actual=" ++ path.getD "None" ++ ")")
    return path

/-- Sets up the journal as the command line asks for it. -/
def configure (requested : Given) (threshold : Level) (console : Bool) : Run (Option Text) :=
  setUpBy
    { path := requested.word?.map Text.ofString, shown := requested.text, threshold, console }

end FatInstall.Journal
