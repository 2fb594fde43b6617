import FatInstall.World

/-!
# Programs that follow a script

A script lists, for each command name, how the starts of that command end, one after the other;
the last entry stays in force. It says nothing about `sudo` itself unless it has an entry for it:
the command after `sudo` is the one that is meant.
-/

namespace FatInstall

/-- How one start of a command ends. -/
inductive Ending
  | exits (status : Int) (out err : String)
  /-- There is no such program. -/
  | missing
  /-- The program may not be started. -/
  | denied
  /-- The user interrupts. -/
  | interrupt
  deriving DecidableEq, Repr

/-- One entry of a script: what the command does to the files, and how it ends. -/
structure Response where
  edits : List Host.Edit
  ending : Ending
  deriving DecidableEq, Repr

/-- The responses of each command. -/
abbrev Script := List (String × List Response)

namespace Script

/-- The responses of a command, if there are any. -/
def responses? (s : Script) (name : Text) : Option (List Response) :=
  (s.find? fun e => Text.ofString e.1 = name).map Prod.snd

/-- The command that runs another one with privileges. -/
def privilegeCommand : Text := "sudo"

/-- The name of a command in the script. -/
def commandName (s : Script) : List Text → Text
  | [] => .empty
  | [name] => name
  | first :: second :: _ =>
    if first = privilegeCommand ∧ (s.responses? privilegeCommand).isNone then second else first

/-- The response to the start with the given number of earlier ones of its name. -/
def responseAt : List Response → Nat → Response
  | [], _ => ⟨[], .exits 0 "" ""⟩
  | [r], _ => r
  | r :: _, 0 => r
  | _ :: rs, n + 1 => responseAt rs n

/-- The end of a start, told from the command's first word. -/
def reply (argv : List Text) : Ending → Reply
  | .exits status out err => .exited status out err
  | .missing => .unstarted (.system .missing (argv.headD .empty))
  | .denied => .unstarted (.system .denied (argv.headD .empty))
  | .interrupt => .interrupted

/-- The programs that follow the script, from the start with the given number on. -/
def programs (s : Script) (from_ : Nat) : Programs := fun earlier start h =>
  let name := s.commandName start.argv
  let count := ((earlier.drop from_).filter fun e => s.commandName e.argv == name).length
  let response := responseAt ((s.responses? name).getD []) count
  (reply start.argv response.ending, response.edits.foldl Host.edit h)

end Script

end FatInstall
