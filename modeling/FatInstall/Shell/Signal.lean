/-!
# Signals

The signals that end a program, with their numbers and names.

This serves runs of real processes only (`World.Processes`).
-/

namespace FatInstall.Shell

/-- The signals: number, name, and what a shell says of a program that one ended. -/
def signals : List (Nat × String × String) :=
  [(1, "HUP", "Hangup"), (2, "INT", ""), (3, "QUIT", "Quit"), (4, "ILL", "Illegal instruction"),
    (5, "TRAP", "Trace/breakpoint trap"), (6, "ABRT", "Aborted"), (7, "BUS", "Bus error"),
    (8, "FPE", "Floating point exception"), (9, "KILL", "Killed"),
    (10, "USR1", "User defined signal 1"), (11, "SEGV", "Segmentation fault"),
    (12, "USR2", "User defined signal 2"), (13, "PIPE", ""), (14, "ALRM", "Alarm clock"),
    (15, "TERM", "Terminated"), (17, "CHLD", ""), (18, "CONT", ""), (23, "URG", ""),
    (28, "WINCH", "")]

/-- The number of a signal that is given by its number or its name. -/
def signalNumber? (w : String) : Option Nat :=
  match w.toNat? with
  | some n => some n
  | none => if w = "EXIT" then some 0 else (signals.find? fun s => s.2.1 == w).map Prod.fst

/-- Is the signal one that does nothing unless it is asked for? -/
def isHarmless (n : Nat) : Bool := [0, 17, 18, 23, 28].contains n

end FatInstall.Shell
