import FatInstall.Text.Basic

/-!
# Words of a shell command

A command is shown as one line that a shell reads back as the same words: a word made of plain
characters stands for itself, any other is put in single quotes, and a single quote inside it is
written as a double-quoted piece of its own.
-/

namespace FatInstall.Shell

/-- The characters that mean nothing to a shell: ASCII letters, digits and a few signs. -/
def isPlain (c : Char) : Bool :=
  c.isAlphanum || "-_@%+=:,./".toList.contains c

/-- The quote that keeps all that follows up to the next one. -/
def singleQuote : CodePoint := .char '\''

/-- The quote that a single quote is put between. -/
def doubleQuote : CodePoint := .char '"'

/-- A code point between single quotes. A quote ends the piece, stands in double quotes, and opens
the next piece. -/
def escapeQuote (p : CodePoint) : List CodePoint :=
  if p = singleQuote then [singleQuote, doubleQuote, singleQuote, doubleQuote, singleQuote]
  else [p]

/-- One word as a shell reads it. -/
def quoteWord (w : List CodePoint) : List CodePoint :=
  if w ≠ [] ∧ w.all (·.is isPlain) then w
  else singleQuote :: w.flatMap escapeQuote ++ [singleQuote]

/-- The words as one line of shell text. -/
def joinWords : List (List CodePoint) → List CodePoint
  | [] => []
  | [w] => quoteWord w
  | w :: ws => quoteWord w ++ .char ' ' :: joinWords ws

/-- A command line as shell text. -/
def render (argv : List Text) : Text := ⟨joinWords (argv.map Text.points)⟩

end FatInstall.Shell
