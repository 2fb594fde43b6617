import FatInstall.CommandLine.Words
import FatInstall.Journal.Setup
import FatInstall.Settings.Load
import FatInstall.Update

/-!
# The program

The program reads its command line, sets up the journal, gathers the settings and does the update.
Failures of its own end it with a message and the status of their kind, an interrupt with a status
of its own; any other failure leaves the program.
-/

namespace FatInstall.Program

open CommandLine (Options)

/-- The status of a command line that is not understood. -/
def statusUsage : Nat := 2

/-- The status of a run that the user interrupted. -/
def statusInterrupted : Nat := 130

/-- The threshold of the journal for a wish for detail. -/
def thresholdOf (verbose : Nat) : Journal.Level :=
  if 2 ≤ verbose then .debug else if verbose = 1 then .info else .warning

/-- The value of a setting that was given on the command line. -/
def settingOf : Given → Value
  | .absent => .null
  | .word w => .text w
  | .nothing => .list []

/-- The settings that the command line asks for. -/
def changes (o : Options) : List (Text × Value) :=
  [("image", settingOf o.image), ("mount_dir", settingOf o.mountDir),
    ("dest_dir", settingOf o.destDir),
    ("use_sudo", if o.noSudo then .bool false else .null),
    ("dry_run", if o.dryRun then .bool true else .null)]

/-- The settings of the file that is given, if one is. -/
def settingsOf (o : Options) : Run Settings :=
  match o.config.word? with
  | some path => fun _ w => (Settings.load path w.host, w)
  | none => pure Settings.empty

/-- Does what the command line asks for. -/
def perform (o : Options) (tools : Option Tools) : Run Placement := do
  match o.files with
  | [file] =>
    let settings ← settingsOf o
    update (Path.ofString file) (settings.withOverrides (changes o)) tools
  | _ => Run.fail (.update .usage)

/-- Reads the command line; where it ends the program, its text is written. -/
def readWords (words : List String) : Run Options :=
  match CommandLine.parse words with
  | .ok o => pure o
  | .error .help => do
    Run.note (.printed CommandLine.helpText)
    Run.fail (.exit 0)
  | .error (.fault f) => do
    Run.note (.complained (CommandLine.faultText f))
    Run.fail (.exit statusUsage)

/-- Runs the program: its exit status. The channel is the one that it writes to itself. -/
def run (words : List String) (tools : Option Tools) (channel : Journal.Channel) : Run Nat := do
  let o ← readWords words
  let _ ← Journal.configure o.log (thresholdOf o.verbose) true
  match ← Run.attempt (perform o tools) with
  | .ok _ => return 0
  | .error (.update f) =>
    Run.write ⟨.debug, channel.name, "Update failed", true⟩
    Run.complain f.message
    return f.exitStatus
  | .error .interrupted => return statusInterrupted
  | .error f => Run.fail f

end FatInstall.Program
