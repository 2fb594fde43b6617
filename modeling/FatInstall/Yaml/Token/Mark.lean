import FatInstall.Yaml.Token.QuotedScalar
import FatInstall.Decimal.Numeral

/-!
# Anchors, tags and directives

Names for nodes, and what is said about their kind. A tag is a handle and the rest, a whole name
in angle brackets, or a lone exclamation mark. A directive is a line before a document.
-/

namespace FatInstall.Yaml.Mark

/-- A name. -/
def name (c : Cursor) : Except Fault (String × Cursor) :=
  match c.span isNameChar with
  | ([], _) => .error .malformed
  | (cs, c) => .ok (String.ofList cs, c)

/-- Reads the name of an anchor or an alias, after its sign. -/
def anchorName (c : Cursor) : Except Fault (String × Cursor) := do
  let (n, c) ← name c.next
  if orEnd (fun ch => isGap ch || "?:,]\x7d%@`".toList.contains ch) c.peek then return (n, c)
  else .error .malformed

/-- Can the character stand in the rest of a tag? -/
def isTagChar (c : Char) : Bool := c.isAlphanum || "-;/?:@&=+$,_.!~*'()[]%".toList.contains c

/-- Bytes written as escapes, each a percent sign and two hexadecimal digits. -/
def escapedBytes : Nat → List UInt8 → Cursor → Except Fault (List UInt8 × Cursor)
  | 0, done, c => .ok (done, c)
  | fuel + 1, done, c =>
    if c.peek ≠ some '%' then .ok (done, c)
    else
      match c.rest.drop 1 with
      | a :: b :: _ =>
        match QuotedScalar.hexNumber? [a, b] with
        | some n => escapedBytes fuel (done ++ [UInt8.ofNat n]) (c.skip 3)
        | none => .error .malformed
      | _ => .error .malformed

/-- The rest of a tag, at least one character or escape. -/
def tagRest : Nat → List Char → Cursor → Except Fault (List Char × Cursor)
  | 0, _, _ => .error .malformed
  | fuel + 1, done, c =>
    let (taken, c) := c.span fun ch => isTagChar ch && ch != '%'
    let done := done ++ taken
    if c.peek = some '%' then do
      let (bytes, c) ← escapedBytes c.rest.length [] c
      match String.fromUTF8? ⟨bytes.toArray⟩ with
      | some s =>
        let done := done ++ s.toList
        if orEnd (!isTagChar ·) c.peek then return (done, c) else tagRest fuel done c
      | none => .error .malformed
    else if done = [] then .error .malformed
    else return (done, c)

/-- The rest of a tag. -/
def tagName (c : Cursor) : Except Fault (String × Cursor) := do
  let (cs, c) ← tagRest (c.rest.length + 1) [] c
  return (String.ofList cs, c)

/-- The handle of a tag: one exclamation mark, or a name between two. -/
def tagHandle (c : Cursor) : Except Fault (String × Cursor) :=
  if c.peek ≠ some '!' then .error .malformed
  else
    let after := c.next
    if after.peek = some ' ' then .ok ("!", after)
    else
      let (cs, after) := after.span isNameChar
      if after.peek = some '!' then .ok (String.ofList ('!' :: cs ++ ['!']), after.next)
      else .error .malformed

/-- Is there a second exclamation mark before the next space? -/
def hasHandle (c : Cursor) : Bool :=
  ((c.rest.drop 1).takeWhile fun ch => !isSpaceOrBreak ch).contains '!'

/-- Reads a tag. -/
def tag (c : Cursor) : Except Fault (Token × Cursor) := do
  let (token, c) ←
    if c.peekAt 1 = some '<' then do
      let (rest, c) ← tagName (c.skip 2)
      if c.peek ≠ some '>' then .error .malformed
      pure (Token.tag none rest, c.next)
    else if orEnd isGap (c.peekAt 1) then pure (Token.tag none "!", c.next)
    else do
      let (handle, c) ← if hasHandle c then tagHandle c else pure ("!", c.next)
      let (rest, c) ← tagName c
      pure (Token.tag (some handle) rest, c)
  if orEnd isSpaceOrBreak c.peek then return (token, c) else .error .malformed

/-- A row of digits. -/
def number (c : Cursor) : Except Fault (Nat × Cursor) :=
  match c.span Char.isDigit with
  | ([], _) => .error .malformed
  | (cs, c) =>
    if Decimal.maxDigits < cs.length then .error (.value .noSuchValue)
    else .ok (Decimal.digitsValue cs, c)

/-- The version of a document. -/
def version (c : Cursor) : Except Fault (Directive × Cursor) := do
  let (major, c) ← number (c.skipWhile (· == ' '))
  if c.peek ≠ some '.' then .error .malformed
  let (_, c) ← number c.next
  if orEnd isSpaceOrBreak c.peek then return (.version major, c) else .error .malformed

/-- A handle and what it stands for. -/
def handle (c : Cursor) : Except Fault (Directive × Cursor) := do
  let (handle, c) ← tagHandle (c.skipWhile (· == ' '))
  if c.peek ≠ some ' ' then .error .malformed
  let (start, c) ← tagName (c.skipWhile (· == ' '))
  if orEnd isSpaceOrBreak c.peek then return (.handle handle start, c) else .error .malformed

/-- Reads a directive. -/
def directive (c : Cursor) : Except Fault (Token × Cursor) := do
  let (n, c) ← name c.next
  if !orEnd isSpaceOrBreak c.peek then .error .malformed
  let (d, c) ←
    if n = "YAML" then version c
    else if n = "TAG" then handle c
    else pure (Directive.other, c.skipWhile (!isBreak ·))
  return (.directive d, ← c.endOfLine)

end FatInstall.Yaml.Mark
