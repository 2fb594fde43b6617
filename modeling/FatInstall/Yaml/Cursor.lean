import FatInstall.Fault

/-!
# A position in a document

A document is read from left to right. A cursor is what is left of it, with the place reached:
the number of characters before it, and the line and the column, which decide what belongs
together in the block form.
-/

namespace FatInstall.Yaml

/-- Why a document has no value. -/
inductive Fault
  /-- The text is not one well-formed document. -/
  | malformed
  /-- A scalar is unusable. -/
  | value (fault : ValueFault)
  deriving DecidableEq, Repr

/-- Does the character end a line? -/
def isBreak (c : Char) : Bool :=
  c == '\n' || c == '\r' || c == '\x85' || c == '\u2028' || c == '\u2029'

/-- Is the character a space or the end of a line? -/
def isSpaceOrBreak (c : Char) : Bool := c == ' ' || isBreak c

/-- Is the character a space, a tab or the end of a line? -/
def isGap (c : Char) : Bool := c == '\t' || isSpaceOrBreak c

/-- A property of the next character, if there is one; the end of the text has it too. -/
def orEnd (p : Char → Bool) : Option Char → Bool
  | none => true
  | some c => p c

/-- Can the character stand in a name? -/
def isNameChar (c : Char) : Bool := c.isAlphanum || c == '-' || c == '_'

/-- May the character stand in a document at all? -/
def isAllowed (c : Char) : Bool :=
  let n := c.toNat
  n == 0x9 || n == 0xA || n == 0xD || (0x20 ≤ n && n ≤ 0x7E) || n == 0x85 ||
    (0xA0 ≤ n && n ≤ 0xFFFD) || 0x10000 ≤ n

/-- What is left of a document, and the place reached. -/
structure Cursor where
  rest : List Char
  index : Nat
  line : Nat
  column : Nat
  deriving DecidableEq, Repr

namespace Cursor

/-- The start of a document. -/
def ofText (cs : List Char) : Cursor := ⟨cs, 0, 0, 0⟩

/-- The next character. -/
def peek (c : Cursor) : Option Char := c.rest.head?

/-- The character after so many others. -/
def peekAt (c : Cursor) (n : Nat) : Option Char := c.rest[n]?

/-- The cursor after the next character. A byte order mark takes no column. -/
def next (c : Cursor) : Cursor :=
  match c.rest with
  | [] => c
  | ch :: r =>
    if ch = '\n' ∨ ch = '\x85' ∨ ch = '\u2028' ∨ ch = '\u2029' ∨ (ch = '\r' ∧ r.head? ≠ some '\n')
    then ⟨r, c.index + 1, c.line + 1, 0⟩
    else ⟨r, c.index + 1, c.line, if ch = '\ufeff' then c.column else c.column + 1⟩

/-- The cursor after so many characters. -/
def skip : Nat → Cursor → Cursor
  | 0, c => c
  | n + 1, c => skip n c.next

/-- The characters of the class that come next, and the cursor after them. -/
def span (c : Cursor) (p : Char → Bool) : List Char × Cursor :=
  let taken := c.rest.takeWhile p
  (taken, c.skip taken.length)

/-- The cursor after the characters of the class that come next. -/
def skipWhile (c : Cursor) (p : Char → Bool) : Cursor := (c.span p).2

/-- Reads the end of a line, if it is next. The line and paragraph separators stand for
themselves, the others for a line feed. -/
def lineBreak (c : Cursor) : List Char × Cursor :=
  match c.rest with
  | '\r' :: '\n' :: _ => (['\n'], c.skip 2)
  | ch :: _ =>
    if ch = '\u2028' ∨ ch = '\u2029' then ([ch], c.next)
    else if isBreak ch then (['\n'], c.next)
    else ([], c)
  | [] => ([], c)

/-- Is a mark next that ends or starts a document, three dashes or dots with a gap after them? -/
def atMark (c : Cursor) (sign : Char) : Bool :=
  c.rest.take 3 == [sign, sign, sign] && orEnd isGap (c.peekAt 3)

/-- Is any mark next that ends or starts a document? -/
def atDocumentMark (c : Cursor) : Bool := c.atMark '-' || c.atMark '.'

/-- The cursor at the end of a line that holds nothing but spaces and a comment. -/
def endOfLine (c : Cursor) : Except Fault Cursor :=
  let c := c.skipWhile (· == ' ')
  let c := if c.peek = some '#' then c.skipWhile (!isBreak ·) else c
  if orEnd isBreak c.peek then .ok c.lineBreak.2 else .error .malformed

end Cursor

end FatInstall.Yaml
