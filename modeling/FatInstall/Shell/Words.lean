import FatInstall.Shell.Word

/-!
# Reading words back

How a shell cuts a line without expansions into words: blanks separate words, single quotes keep
all that is between them, double quotes keep all but a backslash before a few characters, and a
backslash outside quotes keeps the character after it. A line that ends inside quotes or after a
backslash is no list of words.

* `split? (render ws) = some ws` is the sense in which a rendered command can be pasted back.
-/

namespace FatInstall.Shell

/-- The quotes around a place in a line. -/
inductive Quotes
  | none
  | single
  | double
  deriving DecidableEq, Repr

/-- Does the character separate words? -/
def separatesWords (c : Char) : Bool := c == ' ' || c == '\t' || c == '\n'

/-- Does a backslash between double quotes keep the character from its meaning? -/
def isEscapedInDouble (c : Char) : Bool := "$`\"\\\n".toList.contains c

/-- The sign that keeps the character after it from its meaning. -/
def backslash : CodePoint := .char '\\'

/-- The word so far after the code point that a backslash stands before: a line end is dropped. -/
def keepEscaped (p : CodePoint) (word : List CodePoint) : List CodePoint :=
  if p = .char '\n' then word else p :: word

/-- The words of a line, from inside a word whose code points so far are given, the last first;
`none` stands for a place between words. -/
def wordsFrom : Quotes → Option (List CodePoint) → List CodePoint → Option (List (List CodePoint))
  | .none, word, [] => some (word.map List.reverse).toList
  | _, _, [] => .none
  | .single, word, p :: r =>
    if p = singleQuote then wordsFrom .none word r
    else wordsFrom .single (some (p :: word.getD [])) r
  | .double, word, p :: r =>
    if p = doubleQuote then wordsFrom .none word r
    else if p = backslash then
      match r with
      | [] => .none
      | q :: r' =>
        if q.is isEscapedInDouble then wordsFrom .double (some (keepEscaped q (word.getD []))) r'
        else wordsFrom .double (some (p :: word.getD [])) (q :: r')
    else wordsFrom .double (some (p :: word.getD [])) r
  | .none, word, p :: r =>
    if p.is separatesWords then
      (wordsFrom .none .none r).map ((word.map List.reverse).toList ++ ·)
    else if p = singleQuote then wordsFrom .single (some (word.getD [])) r
    else if p = doubleQuote then wordsFrom .double (some (word.getD [])) r
    else if p = backslash then
      match r with
      | [] => .none
      | q :: r' =>
        if q = .char '\n' then wordsFrom .none word r'
        else wordsFrom .none (some (q :: word.getD [])) r'
    else wordsFrom .none (some (p :: word.getD [])) r

/-- The words of a line. -/
def words? (line : List CodePoint) : Option (List (List CodePoint)) := wordsFrom .none .none line

/-- The words of a line, as texts. -/
def split? (line : Text) : Option (List Text) := (words? line.points).map (List.map Text.mk)

end FatInstall.Shell
