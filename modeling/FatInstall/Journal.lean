import FatInstall.Text.Basic

/-!
# The journal

Records of what the program does, each with a level and the channel it comes from. A record below
the threshold is dropped; the others go to every sink: the console, or an open log file.
-/

namespace FatInstall.Journal

/-- Levels of importance. -/
abbrev Level := Int

namespace Level

def debug : Level := 10
def info : Level := 20
def warning : Level := 30
def error : Level := 40
def critical : Level := 50

/-- The name of a level. -/
def name (l : Level) : String :=
  if l = debug then "DEBUG"
  else if l = info then "INFO"
  else if l = warning then "WARNING"
  else if l = error then "ERROR"
  else if l = critical then "CRITICAL"
  else s!"Level {l}"

end Level

/-- The channels that the parts of the program write to. -/
inductive Channel
  | command
  | tools
  | scratch
  | mounted
  | offline
  | update
  | journal
  /-- The command line, when the program is used as a library function. -/
  | program
  /-- The command line, when the program is started as such. -/
  | script
  deriving DecidableEq, Repr

/-- The name of a channel in the journal. -/
def Channel.name : Channel → String
  | command => "image_updater.lib.command"
  | tools => "image_updater.lib.tools"
  | scratch => "image_updater.context"
  | mounted => "image_updater.strategies.mount"
  | offline => "image_updater.strategies.offline"
  | update => "image_updater.updater"
  | journal => "image_updater.logging_utils"
  | program => "image_updater.main"
  | script => "__main__"

/-- A record. -/
structure Record where
  level : Level
  channel : String
  message : Text
  /-- Does an account of a failure come with it? -/
  hasAccount : Bool
  deriving DecidableEq, Repr

/-- A record in short. -/
def Record.text (r : Record) : Text := s!"{r.level.name} {r.channel}: " ++ r.message

/-- Where records go. -/
inductive Sink
  | console
  /-- An open log file, by its number; a device has none. -/
  | file (number : Option Nat)
  deriving DecidableEq, Repr

end Journal

/-- The state of the journal. -/
structure Journal where
  threshold : Journal.Level
  sinks : List Journal.Sink
  /-- Once the journal is set up: the log file in use, if there is one. -/
  setUp : Option (Option Text)
  /-- The stamp at the start of each line, which stands for the time of the record. -/
  stamp : String
  /-- The line that stands for an account of a failure. -/
  account : String
  deriving DecidableEq, Repr

namespace Journal

/-- Is a record of this level kept? -/
def accepts (j : Journal) (l : Level) : Bool := 0 < l && j.threshold ≤ l

/-- The lines that a sink gets for a record. -/
def lines (j : Journal) (r : Record) : Text :=
  s!"{j.stamp} " ++ r.text ++ "\n" ++ if r.hasAccount then j.account ++ "\n" else ""

end Journal

end FatInstall
