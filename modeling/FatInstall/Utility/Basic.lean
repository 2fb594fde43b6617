import FatInstall.Host.Edit

/-!
# Small programs

Every host has a number of small programs that print, read and move files. A call of one is its
words, the environment, the files and what it can read; it ends with a status, and with what it
wrote.

This serves runs of real processes only (`World.Processes`).
-/

namespace FatInstall.Utility

/-- A text as bytes. -/
def bytesOf (s : String) : List UInt8 := s.toUTF8.toList

/-- The text that bytes are; bytes that are no text give none. -/
def textOf (bs : List UInt8) : String := (String.fromUTF8? ⟨bs.toArray⟩).getD ""

/-- A call of a program. -/
structure Call where
  /-- The program, as it was called. -/
  name : String
  args : List String
  host : Host
  environment : List (String × String)
  input : List UInt8
  deriving Repr

/-- The end of a program. -/
structure Ended where
  host : Host
  /-- What it left unread. -/
  input : List UInt8
  out : List UInt8
  err : List UInt8
  status : Nat
  deriving Repr

/-- A program. -/
abbrev Program := Call → Ended

namespace Call

/-- The program ended having done nothing. -/
def ended (c : Call) (status : Nat) : Ended := ⟨c.host, c.input, [], [], status⟩

/-- A complaint of the program. -/
def complaint (c : Call) (text : String) : List UInt8 := bytesOf s!"{c.name}: {text}\n"

/-- The program ended with a complaint. -/
def fails (c : Call) (status : Nat) (text : String) : Ended :=
  { c.ended status with err := c.complaint text }

/-- The program ended having printed a text. -/
def prints (c : Call) (text : String) : Ended := { c.ended 0 with out := bytesOf text }

end Call

/-- Does the environment ask for texts of more than the plain characters? -/
def isUnicode (environment : List (String × String)) : Bool :=
  let value := ["LC_ALL", "LC_CTYPE", "LANG"].findSome? fun name =>
    match environment.lookup name with
    | some "" | none => none
    | some v => some v
  match value with
  | some v => (v.toLower.splitOn "utf").length > 1
  | none => false

/-- A text between the quotes of the environment. -/
def Call.inQuotes (c : Call) (s : String) : String :=
  if isUnicode c.environment then s!"‘{s}’" else "'" ++ s ++ "'"

/-- One step after the other on a list of names: what was written is joined, and the status is the
given one if any step failed. -/
def forAll (failed : Nat) (step : Host → String → Host × List UInt8 × List UInt8 × Bool)
    (c : Call) (names : List String) : Ended :=
  names.foldl (fun e name =>
    let (h, out, err, ok) := step e.host name
    { e with
      host := h, out := e.out ++ out, err := e.err ++ err
      status := if ok then e.status else failed }) (c.ended 0)

/-- The options of one letter before the other words; two dashes end them. -/
def letters : List String → List Char × List String
  | [] => ([], [])
  | w :: ws =>
    if w = "--" then ([], ws)
    else match w.toList with
      | '-' :: c :: cs =>
        let (more, rest) := letters ws
        (c :: cs ++ more, rest)
      | _ => ([], w :: ws)

end FatInstall.Utility
