import FatInstall.Shell.Word
import FatInstall.Text.Blank

/-!
# Failed commands

A command that was to succeed and did not is reported with its words, its exit status and what it
wrote to standard error.
-/

namespace FatInstall

/-- A command that failed. A negative status is the number of the signal that ended it. -/
structure CommandFault where
  argv : List Text
  status : Int
  stderr : Text
  deriving DecidableEq, Repr

/-- The message of a failed command: its words as shell text, then what it wrote to standard error
without blank edges, if anything is left. -/
def CommandFault.message (f : CommandFault) : Text :=
  let head := s!"Command failed ({f.status}): " ++ Shell.render f.argv
  let said := Text.strip f.stderr
  if said.isEmpty then head else head ++ "\n" ++ said

end FatInstall
