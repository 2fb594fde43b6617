import FatInstall.Value.Text
import FatInstall.World

/-!
# Running commands

Every command that the program runs is written to the journal first, as a line that a shell reads
back, and what it writes is kept in the journal too. A command is *checked* when its failure ends
the run; a dry run writes to the journal only and takes each command for a success.
-/

namespace FatInstall.Command

/-- What is left of a command that ended. -/
structure Result where
  argv : List Text
  status : Int
  out : String
  err : String
  deriving DecidableEq, Repr

/-- Did the command succeed? -/
def Result.ok (r : Result) : Bool := r.status == 0

/-- The failure that a checked command reports. -/
def Result.fault (r : Result) : CommandFault := ⟨r.argv, r.status, r.err⟩

/-- How a command is to be run. -/
structure Mode where
  check : Bool := true
  dryRun : Bool := false
  input : Option String := none
  cwd : Option String := none
  env : List (String × String) := []
  deriving DecidableEq, Repr

/-- The status by which a shell reports a command that does not exist. -/
def statusMissing : Int := 127

/-- Keeps what a command wrote, if it wrote anything. -/
def logOutput (label text : String) : Run Unit :=
  if text = "" then pure ()
  else Run.log .debug .command (s!"{label} " ++ Text.strip text)

/-- Runs a command. -/
def run (argv : List Text) (mode : Mode) : Run Result := do
  Run.log .info .command ("CMD " ++ Shell.render argv)
  if mode.dryRun then return ⟨argv, 0, "", ""⟩
  match argv with
  | [] => Run.fail .emptyCommand
  | name :: _ =>
    match ← Run.start ⟨argv, mode.input, mode.cwd, mode.env⟩ with
    | .unstarted (.system .missing path) =>
      let result : Result := ⟨argv, statusMissing, "", Host.Refusal.message (.system .missing path)⟩
      if mode.check then Run.fail (.command result.fault)
      else
        Run.log .debug .command ("Executable not found: " ++ name)
        return result
    | .unstarted why => Run.fail (.refused why)
    | .garbled => Run.fail (.value .undecodable)
    | .interrupted => Run.fail .interrupted
    | .exited status out err =>
      logOutput "STDOUT" out
      logOutput "STDERR" err
      let result : Result := ⟨argv, status, out, err⟩
      if mode.check && status != 0 then Run.fail (.command result.fault)
      else return result

/-- Runs a command whose words are values, each standing for its text. -/
def runValues (argv : List Value) (mode : Mode) : Run Result :=
  match argv.mapM Value.text? with
  | some words => run words mode
  | none => Run.fail (.value .noSuchValue)

end FatInstall.Command
