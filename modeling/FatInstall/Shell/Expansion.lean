import FatInstall.Shell.Fields

/-!
# Putting values in

How a value is put in the place of a part of a word, whole or without what a pattern fits.

This serves runs of real processes only (`World.Processes`).
-/

namespace FatInstall.Shell

/-- What is said of a variable that has no value and needs one. -/
def unsetText : String := "parameter not set"

/-- How words are expanded. -/
structure Expansion where
  isQuoted : Bool
  /-- Are values cut into fields? -/
  splits : Bool

/-- A value put into the fields. -/
def Expansion.put (e : Expansion) (separators : List Char) (f : Fields) (v : String) : Fields :=
  if e.isQuoted ∨ !e.splits then f.add e.isQuoted v else f.split separators v

/-- The text of bytes that a command wrote, without the line ends at its end. -/
def trimmed (t : ByteArray) : String :=
  let cs := (Utility.textOf t.toList).toList
  String.ofList (cs.reverse.dropWhile (· == '\n')).reverse

/-- The value without the longest or shortest start that the pattern fits. -/
def withoutStart (longest : Bool) (pattern : List Mark) (v : String) : String :=
  let cs := v.toList
  let lengths := List.range (cs.length + 1)
  let lengths := if longest then lengths.reverse else lengths
  match lengths.find? fun n => Pattern.fits pattern (cs.take n) with
  | some n => String.ofList (cs.drop n)
  | none => v

/-- The value without the longest or shortest end that the pattern fits. -/
def withoutEnd (longest : Bool) (pattern : List Mark) (v : String) : String :=
  let cs := v.toList
  let starts := List.range (cs.length + 1)
  let starts := if longest then starts else starts.reverse
  match starts.find? fun n => Pattern.fits pattern (cs.drop n) with
  | some n => String.ofList (cs.take n)
  | none => v

end FatInstall.Shell
