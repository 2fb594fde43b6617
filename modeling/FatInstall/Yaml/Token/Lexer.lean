import FatInstall.Yaml.Token.Plain
import FatInstall.Yaml.Token.BlockScalar
import FatInstall.Yaml.Token.Mark

/-!
# The tokens of a document

The lexer keeps the columns of the open block collections, the depth of open brackets, and for
each depth the place of a node that may turn out to be a key: it does if a colon follows it on the
same line within 1024 characters, and the tokens of a key are put in front of it then.

A fault in the text ends the tokens. A token that starts a possible key is not final before it is
known whether a colon follows, so a reader meets the fault there already if it is still possible.
-/

namespace FatInstall.Yaml

/-- A node that may turn out to be a key. -/
structure KeyPlace where
  /-- The number of tokens before the node. -/
  token : Nat
  /-- It must be a key, since it stands at the column of the keys of an open mapping. -/
  required : Bool
  index : Nat
  line : Nat
  column : Nat
  deriving DecidableEq, Repr

/-- The state of the lexer. -/
structure Lexer where
  cursor : Cursor
  /-- The number of open brackets. -/
  depth : Nat
  /-- The column of the innermost open block collection, and of those around it. -/
  indent : Int
  outer : List Int
  /-- May a key without a question mark start here? -/
  keyAllowed : Bool
  /-- The nodes that may turn out to be keys, by depth. -/
  places : List (Nat × KeyPlace)
  /-- The tokens so far, the last first, and their number. -/
  tokens : List Token
  count : Nat
  finished : Bool
  deriving DecidableEq, Repr

namespace Lexer

/-- The lexer at the start of a document. -/
def ofText (cs : List Char) : Lexer where
  cursor := .ofText cs
  depth := 0
  indent := -1
  outer := []
  keyAllowed := true
  places := []
  tokens := []
  count := 0
  finished := false

/-- The distance within which the colon of a key must follow. -/
def maxKey : Nat := 1024

/-- The lexer with a token more. -/
def emit (l : Lexer) (t : Token) : Lexer := { l with tokens := t :: l.tokens, count := l.count + 1 }

/-- The lexer with a token put in after the first `n` tokens. -/
def emitAt (l : Lexer) (n : Nat) (t : Token) : Lexer :=
  let late := l.count - n
  { l with
    tokens := l.tokens.take late ++ t :: l.tokens.drop late
    count := l.count + 1 }

/-- The lexer with a one-character token read. -/
def take (l : Lexer) (t : Token) : Lexer := { l.emit t with cursor := l.cursor.next }

/-- Is the lexer outside all brackets? -/
def inBlock (l : Lexer) : Bool := l.depth == 0

/-- Forgets the places whose colon did not come in time. -/
def dropStale (l : Lexer) : Except Fault Lexer :=
  let isStale (p : KeyPlace) : Bool :=
    p.line != l.cursor.line || maxKey < l.cursor.index - p.index
  if l.places.any fun e => isStale e.2 && e.2.required then .error .malformed
  else .ok { l with places := l.places.filter fun e => !isStale e.2 }

/-- Forgets the place at the current depth. -/
def dropPlace (l : Lexer) : Except Fault Lexer :=
  match l.places.lookup l.depth with
  | none => .ok l
  | some p =>
    if p.required then .error .malformed
    else .ok { l with places := l.places.filter fun e => e.1 != l.depth }

/-- Remembers that the next node may be a key. -/
def savePlace (l : Lexer) : Except Fault Lexer := do
  if !l.keyAllowed then return l
  let l ← l.dropPlace
  let place : KeyPlace :=
    { token := l.count
      required := l.inBlock && l.indent == (l.cursor.column : Int)
      index := l.cursor.index
      line := l.cursor.line
      column := l.cursor.column }
  return { l with places := (l.depth, place) :: l.places }

/-- Closes the block collections that stand to the right of the column. -/
def unwindTo (column : Int) : List Int → Lexer → Lexer
  | [], l => l
  | i :: outer, l =>
    if column < l.indent then unwindTo column outer { l.emit .blockEnd with indent := i, outer }
    else l

/-- Closes the block collections that stand to the right of the column; there are none to close
inside brackets. -/
def unwind (l : Lexer) (column : Int) : Lexer :=
  if l.inBlock then unwindTo column l.outer l else l

/-- Opens a block collection at the column, unless one is open there: its token is put in after
the first `n` tokens. -/
def openBlock (l : Lexer) (column n : Nat) (t : Token) : Lexer :=
  if l.indent < (column : Int) then
    { l.emitAt n t with outer := l.indent :: l.outer, indent := column }
  else l

/-- Skips spaces, comments and line ends. Outside brackets a key may start on a new line. -/
def skipGaps : Nat → Lexer → Lexer
  | 0, l => l
  | fuel + 1, l =>
    let c := l.cursor.skipWhile (· == ' ')
    let c := if c.peek = some '#' then c.skipWhile (!isBreak ·) else c
    match c.lineBreak with
    | ([], _) => { l with cursor := c }
    | (_, c) => skipGaps fuel { l with cursor := c, keyAllowed := l.keyAllowed || l.inBlock }

/-- Reads the end of the text. -/
def finish (l : Lexer) : Except Fault Lexer := do
  let l ← (l.unwind (-1)).dropPlace
  return { l.emit .streamEnd with keyAllowed := false, places := [], finished := true }

/-- Reads a directive. -/
def readDirective (l : Lexer) : Except Fault Lexer := do
  let l ← (l.unwind (-1)).dropPlace
  let (t, c) ← Mark.directive l.cursor
  return { l.emit t with keyAllowed := false, cursor := c }

/-- Reads a mark of a document. -/
def readMark (l : Lexer) (t : Token) : Except Fault Lexer := do
  let l ← (l.unwind (-1)).dropPlace
  return { l.emit t with keyAllowed := false, cursor := l.cursor.skip 3 }

/-- Reads an opening bracket. -/
def openFlow (l : Lexer) (t : Token) : Except Fault Lexer := do
  let l ← l.savePlace
  return { l.take t with depth := l.depth + 1, keyAllowed := true }

/-- Reads a closing bracket. -/
def closeFlow (l : Lexer) (t : Token) : Except Fault Lexer := do
  if l.inBlock then .error .malformed
  let l ← l.dropPlace
  return { l.take t with depth := l.depth - 1, keyAllowed := false }

/-- Reads a comma between brackets. -/
def readComma (l : Lexer) : Except Fault Lexer := do
  let l ← { l with keyAllowed := true }.dropPlace
  return l.take .flowEntry

/-- Opens a block collection at the current column, where one may start. -/
def openHere (l : Lexer) (t : Token) : Except Fault Lexer :=
  if !l.inBlock then .ok l
  else if !l.keyAllowed then .error .malformed
  else .ok (l.openBlock l.cursor.column l.count t)

/-- Reads the dash of an entry. -/
def readDash (l : Lexer) : Except Fault Lexer := do
  let l ← l.openHere .blockSequenceStart
  let l ← { l with keyAllowed := true }.dropPlace
  return l.take .blockEntry

/-- Reads the question mark of a key. -/
def readQuestion (l : Lexer) : Except Fault Lexer := do
  let l ← l.openHere .blockMappingStart
  let l ← { l with keyAllowed := l.inBlock }.dropPlace
  return l.take .key

/-- Reads the colon of a value. If a node is waiting for it, that node is the key. -/
def readColon (l : Lexer) : Except Fault Lexer := do
  match l.places.lookup l.depth with
  | some p =>
    let l := { l with places := l.places.filter fun e => e.1 != l.depth }
    let l := l.emitAt p.token .key
    let l := if l.inBlock then l.openBlock p.column p.token .blockMappingStart else l
    return { l with keyAllowed := false }.take .value
  | none =>
    let l ← l.openHere .blockMappingStart
    let l ← { l with keyAllowed := l.inBlock }.dropPlace
    return l.take .value

/-- Reads a node that takes up no more than its own characters. -/
def readNode (l : Lexer) (scan : Cursor → Except Fault (Token × Cursor)) : Except Fault Lexer := do
  let l ← l.savePlace
  let (t, c) ← scan l.cursor
  return { l.emit t with keyAllowed := false, cursor := c }

/-- Reads a block scalar. -/
def readBlockScalar (l : Lexer) (folded : Bool) : Except Fault Lexer := do
  let l ← { l with keyAllowed := true }.dropPlace
  let (t, c) ← BlockScalar.scan folded l.indent l.cursor
  return { l.emit t with cursor := c }

/-- Reads a plain scalar. -/
def readPlain (l : Lexer) : Except Fault Lexer := do
  let l ← l.savePlace
  let (t, atNewLine, c) := Plain.scan (!l.inBlock) (l.indent + 1) l.cursor
  return { l.emit t with keyAllowed := atNewLine, cursor := c }

/-- May a plain scalar start with the character, before the one after it? -/
def startsPlain (l : Lexer) (c : Char) (after : Option Char) : Bool :=
  !(isGap c || "-?:,[]\x7b\x7d#&*!|>'\"%@`".toList.contains c) ||
    (!orEnd isGap after && (c == '-' || (l.inBlock && (c == '?' || c == ':'))))

/-- Reads a token that starts with the character. -/
def readToken (l : Lexer) (c : Char) : Except Fault Lexer :=
  let after := l.cursor.peekAt 1
  let gapAfter := orEnd isGap after
  if c = '%' ∧ l.cursor.column = 0 then l.readDirective
  else if l.cursor.column = 0 ∧ l.cursor.atMark '-' then l.readMark .documentStart
  else if l.cursor.column = 0 ∧ l.cursor.atMark '.' then l.readMark .documentEnd
  else if c = '[' then l.openFlow .flowSequenceStart
  else if c = '\x7b' then l.openFlow .flowMappingStart
  else if c = ']' then l.closeFlow .flowSequenceEnd
  else if c = '\x7d' then l.closeFlow .flowMappingEnd
  else if c = ',' then l.readComma
  else if c = '-' ∧ gapAfter then l.readDash
  else if c = '?' ∧ (!l.inBlock ∨ gapAfter) then l.readQuestion
  else if c = ':' ∧ (!l.inBlock ∨ gapAfter) then l.readColon
  else if c = '*' then l.readNode fun c => (Mark.anchorName c).map fun r => (.alias r.1, r.2)
  else if c = '&' then l.readNode fun c => (Mark.anchorName c).map fun r => (.anchor r.1, r.2)
  else if c = '!' then l.readNode Mark.tag
  else if c = '|' ∧ l.inBlock then l.readBlockScalar false
  else if c = '>' ∧ l.inBlock then l.readBlockScalar true
  else if c = '\'' then l.readNode (QuotedScalar.scan false)
  else if c = '"' then l.readNode (QuotedScalar.scan true)
  else if l.startsPlain c after then l.readPlain
  else .error .malformed

/-- Reads the next token. -/
def step (l : Lexer) : Except Fault Lexer := do
  let l ← (skipGaps (l.cursor.rest.length + 1) l).dropStale
  let l := l.unwind l.cursor.column
  match l.cursor.peek with
  | none => l.finish
  | some c => l.readToken c

/-- The number of tokens that are final: those before the first one that may still turn out to
start a key. -/
def final (l : Lexer) : Nat :=
  match l.dropStale with
  | .ok l' => (l'.places.map fun e => e.2.token).foldl min l.count
  | .error _ => l.count

/-- Reads at most so many tokens: the tokens, and the fault that ends them, if one does, with the
number of tokens that can be read before it is met. -/
def run : Nat → Lexer → List Token × Option (Nat × Fault)
  | 0, l => (l.tokens.reverse, none)
  | fuel + 1, l =>
    if l.finished then (l.tokens.reverse, none)
    else match l.step with
      | .ok l' => run fuel l'
      | .error f => (l.tokens.reverse, some (l.final, f))

end Lexer

/-- The tokens of a text, and the fault that ends them, if one does, with the number of tokens that
can be read before it is met. A byte order mark at the start is no part of the document. -/
def tokens (cs : List Char) : List Token × Option (Nat × Fault) :=
  let c := Cursor.ofText cs
  let start := if c.peek = some '\ufeff' then c.next else c
  ({ Lexer.ofText cs with cursor := start }).run (cs.length + 2)

end FatInstall.Yaml
