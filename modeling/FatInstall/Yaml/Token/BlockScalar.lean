import FatInstall.Yaml.Token.Basic

/-!
# Block scalars

A block scalar is the lines below its header that are indented enough. In the literal form the
lines stand as they are; in the folded form the end of a line before and after which no blank
stands is a space. The header may give the indentation and say what becomes of the last line ends.
-/

namespace FatInstall.Yaml.BlockScalar

/-- What becomes of the line ends at the end of a scalar. -/
inductive Chomping
  /-- One is kept. -/
  | clip
  /-- None is kept. -/
  | strip
  /-- All are kept. -/
  | keep
  deriving DecidableEq, Repr

/-- The chomping that a sign stands for. -/
def chompingOf? : Option Char → Option Chomping
  | some '+' => some .keep
  | some '-' => some .strip
  | _ => none

/-- The indentation that a digit stands for; zero is refused. -/
def increment? (c : Cursor) : Except Fault (Option Nat × Cursor) :=
  match c.peek with
  | some d =>
    if d = '0' then .error .malformed
    else if d.isDigit then .ok (some (d.toNat - '0'.toNat), c.next)
    else .ok (none, c)
  | none => .ok (none, c)

/-- The sign and the digit of a header, in either order. -/
def header (c : Cursor) : Except Fault (Chomping × Option Nat × Cursor) := do
  let (chomping, increment, c) ← match chompingOf? c.peek with
    | some chomping => do
      let (increment, c) ← increment? c.next
      pure (chomping, increment, c)
    | none => do
      let (increment, c) ← increment? c
      match increment, chompingOf? c.peek with
      | some n, some chomping => pure (chomping, some n, c.next)
      | _, _ => pure (Chomping.clip, increment, c)
  if orEnd isSpaceOrBreak c.peek then return (chomping, increment, c) else .error .malformed

/-- Empty lines before the first line of the scalar: their ends, and the widest indentation among
them. -/
def leading : Nat → List Char → Nat → Cursor → List Char × Nat × Cursor
  | 0, found, widest, c => (found, widest, c)
  | fuel + 1, found, widest, c =>
    if c.peek = some ' ' then leading fuel found (max widest c.next.column) c.next
    else match c.lineBreak with
      | ([], _) => (found, widest, c)
      | (b, c) => leading fuel (found ++ b) widest c

/-- The cursor after the spaces up to the given column. -/
def toColumn (indent : Nat) (c : Cursor) : Cursor :=
  let spaces := (c.rest.takeWhile (· == ' ')).length
  c.skip (min spaces (indent - c.column))

/-- Empty lines between lines of the scalar: their ends. -/
def between (indent : Nat) : Nat → List Char → Cursor → List Char × Cursor
  | 0, found, c => (found, c)
  | fuel + 1, found, c =>
    let c := toColumn indent c
    match c.lineBreak with
    | ([], _) => (found, c)
    | (b, c) => between indent fuel (found ++ b) c

/-- Does a line start with a blank? -/
def startsBlank (c : Cursor) : Bool := c.peek == some ' ' || c.peek == some '\t'

/-- The lines of the scalar. `breaks` are the ends of the empty lines before the next one. Gives
the text, the end of the last line and the ends of the empty lines after it. -/
def lines (folded : Bool) (indent : Nat) :
    Nat → List Char → List Char → Cursor → List Char × List Char × List Char × Cursor
  | 0, done, breaks, c => (done, [], breaks, c)
  | fuel + 1, done, breaks, c =>
    if c.column ≠ indent ∨ c.peek = none then (done, [], breaks, c)
    else
      let blank := startsBlank c
      let (text, c) := c.span (!isBreak ·)
      let done := done ++ breaks ++ text
      let (last, c) := c.lineBreak
      let (breaks, c) := between indent (c.rest.length + 1) [] c
      if c.column = indent ∧ c.peek ≠ none then
        let joint :=
          if folded ∧ last = ['\n'] ∧ !blank ∧ !startsBlank c then
            if breaks = [] then [' '] else []
          else last
        lines folded indent fuel (done ++ joint) breaks c
      else (done, last, breaks, c)

/-- Reads a block scalar whose parent is indented by so much. -/
def scan (folded : Bool) (parent : Int) (c : Cursor) : Except Fault (Token × Cursor) := do
  let (chomping, increment, c) ← header c.next
  let c ← c.endOfLine
  let least : Nat := max 1 (parent + 1).toNat
  let (indent, breaks, c) := match increment with
    | none =>
      let (breaks, widest, c) := leading (c.rest.length + 1) [] 0 c
      (max least widest, breaks, c)
    | some n =>
      let indent := least + n - 1
      let (breaks, c) := between indent (c.rest.length + 1) [] c
      (indent, breaks, c)
  let (text, last, breaks, c) := lines folded indent (c.rest.length + 1) [] breaks c
  let ending := match chomping with
    | .clip => last
    | .strip => []
    | .keep => last ++ breaks
  return (.scalar (Text.ofList (text ++ ending)) false, c)

end FatInstall.Yaml.BlockScalar
