/-!
# The language of the shell

A script is a list of commands. The words of a command are made of parts: text inside or outside
quotes, and places where a value is put in when the command is run.

This serves runs of real processes only (`World.Processes`).
-/

namespace FatInstall.Shell

/-- What stands in for a variable, or for its value. -/
inductive Substitute
  /-- The value itself, or a text if there is none. -/
  | fallback
  /-- As `fallback`, and the variable is set to the text. -/
  | assigned
  /-- A text if there is a value. -/
  | instead
  /-- The value itself; the shell stops if there is none. -/
  | required
  /-- The value without what a pattern fits at its start or its end. -/
  | withoutStart (longest : Bool)
  | withoutEnd (longest : Bool)
  deriving DecidableEq, Repr

/-- How a stream is redirected. -/
inductive Redirection
  | input
  | output
  | append
  /-- To where another stream goes. -/
  | duplicate
  /-- From a text in the script. -/
  | document
  deriving DecidableEq, Repr

mutual

/-- A part of a word. -/
inductive Part
  /-- Text outside quotes. -/
  | plain (s : String)
  /-- Text that stands for itself. -/
  | literal (s : String)
  /-- Parts between double quotes. -/
  | quoted (parts : List Part)
  /-- The value of a variable or of a parameter. -/
  | value (name : String)
  /-- The length of a value. -/
  | length (name : String)
  /-- A value or what stands in for it; `orEmpty` if an empty value counts as none. -/
  | substitute (name : String) (rule : Substitute) (orEmpty : Bool) (parts : List Part)
  /-- What a script writes. -/
  | output (script : List Command)
  /-- The value of an arithmetic expression. -/
  | number (parts : List Part)

/-- A redirection of the stream with the given number. -/
inductive Redirect
  | mk (stream : Nat) (kind : Redirection) (target : List Part)

/-- A command. -/
inductive Command
  | simple (settings : List (String × List Part)) (words : List (List Part))
      (redirects : List Redirect)
  | andThen (first second : Command)
  | orElse (first second : Command)
  | negated (body : Command)
  | pipe (first second : Command)
  /-- Run aside, without waiting. -/
  | aside (body : Command)
  | group (body : List Command) (redirects : List Redirect)
  | subshell (body : List Command) (redirects : List Redirect)
  | conditional (branches : List (List Command × List Command)) (otherwise : List Command)
      (redirects : List Redirect)
  /-- A loop, as long as its test succeeds or until it does. -/
  | loop (whileTrue : Bool) (test body : List Command) (redirects : List Redirect)
  /-- A loop over words, or over the parameters. -/
  | each (name : String) (words : Option (List (List Part))) (body : List Command)
      (redirects : List Redirect)
  | select (word : List Part) (arms : List (List (List Part) × List Command))
      (redirects : List Redirect)
  | define (name : String) (body : Command)

end

end FatInstall.Shell
