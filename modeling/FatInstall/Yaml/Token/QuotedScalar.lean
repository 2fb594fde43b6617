import FatInstall.Yaml.Token.Basic

/-!
# Quoted scalars

Between single quotes every character stands for itself, and a quote is written twice. Between
double quotes a backslash starts an escape. In both, the end of a line with the blanks around it
stands for a space, or for the empty lines that follow it.
-/

namespace FatInstall.Yaml.QuotedScalar

/-- What a backslash and a letter stand for. -/
def replacement? : Char → Option Char
  | '0' => some '\x00'
  | 'a' => some '\x07'
  | 'b' => some '\x08'
  | 't' | '\t' => some '\t'
  | 'n' => some '\n'
  | 'v' => some '\x0b'
  | 'f' => some '\x0c'
  | 'r' => some '\r'
  | 'e' => some '\x1b'
  | ' ' => some ' '
  | '"' => some '"'
  | '\\' => some '\\'
  | '/' => some '/'
  | 'N' => some '\x85'
  | '_' => some '\xa0'
  | 'L' => some '\u2028'
  | 'P' => some '\u2029'
  | _ => none

/-- The number of hexadecimal digits after a backslash and a letter. -/
def codeLength? : Char → Option Nat
  | 'x' => some 2
  | 'u' => some 4
  | 'U' => some 8
  | _ => none

/-- The value of a hexadecimal digit. -/
def hexValue? (c : Char) : Option Nat :=
  if c.isDigit then some (c.toNat - '0'.toNat)
  else if 'a' ≤ c ∧ c ≤ 'f' then some (c.toNat - 'a'.toNat + 10)
  else if 'A' ≤ c ∧ c ≤ 'F' then some (c.toNat - 'A'.toNat + 10)
  else none

/-- The number that hexadecimal digits write. -/
def hexNumber? (cs : List Char) : Option Nat :=
  cs.foldlM (fun n c => (hexValue? c).map (n * 16 + ·)) 0

/-- The largest number of a character that fits a machine word. -/
def maxWord : Nat := 0x7FFFFFFF

/-- The code point of a number. The numbers of surrogates are code points too, and two of them
stay two. -/
def pointOf (n : Nat) : Except Fault CodePoint :=
  if maxWord < n then .error (.value .characterTooLarge)
  else if 0x10FFFF < n then .error (.value .noSuchValue)
  else .ok (CodePoint.ofNat n)

/-- Blanks and empty lines inside a scalar: the ends of the empty lines. -/
def emptyLines : Nat → List Char → Cursor → Except Fault (List Char × Cursor)
  | 0, found, c => .ok (found, c)
  | fuel + 1, found, c =>
    if c.atDocumentMark then .error .malformed
    else
      let c := c.skipWhile fun ch => ch == ' ' || ch == '\t'
      match c.lineBreak with
      | ([], _) => .ok (found, c)
      | (b, c) => emptyLines fuel (found ++ b) c

/-- An escape, after its backslash. -/
def escape (c : Cursor) : Except Fault (List CodePoint × Cursor) :=
  match c.peek with
  | none => .error .malformed
  | some ch =>
    match replacement? ch, codeLength? ch with
    | some r, _ => .ok ([.char r], c.next)
    | none, some n => do
      let digits := (c.rest.drop 1).take n
      if digits.length ≠ n then .error .malformed
      match hexNumber? digits with
      | none => .error .malformed
      | some code => return ([← pointOf code], c.skip (n + 1))
    | none, none =>
      if isBreak ch then
        let c := c.lineBreak.2
        (emptyLines (c.rest.length + 1) [] c).map fun r => (r.1.map .char, r.2)
      else .error .malformed

/-- A blank or the end of a line inside a scalar, as it stands for. -/
def gap (c : Cursor) : Except Fault (List Char × Cursor) :=
  let (blanks, c) := c.span fun ch => ch == ' ' || ch == '\t'
  match c.lineBreak with
  | ([], _) => if c.peek = none then .error .malformed else .ok (blanks, c)
  | (first, c) => do
    let (more, c) ← emptyLines (c.rest.length + 1) [] c
    if first ≠ ['\n'] then return (first ++ more, c)
    else if more = [] then return ([' '], c)
    else return (more, c)

/-- The scalar from inside its quotes to its end. -/
def body (isDouble : Bool) :
    Nat → List CodePoint → Cursor → Except Fault (List CodePoint × Cursor)
  | 0, _, _ => .error .malformed
  | fuel + 1, done, c =>
    match c.rest with
    | [] => .error .malformed
    | ch :: r =>
      if !isDouble ∧ ch = '\'' ∧ r.head? = some '\'' then
        body isDouble fuel (done ++ [.char '\'']) (c.skip 2)
      else if ch = (if isDouble then '"' else '\'') then .ok (done, c.next)
      else if isDouble ∧ ch = '\\' then do
        let (more, c) ← escape c.next
        body isDouble fuel (done ++ more) c
      else if isGap ch then do
        let (more, c) ← gap c
        body isDouble fuel (done ++ more.map .char) c
      else
        let (taken, c) := c.span fun d => !isGap d && d != '\'' && d != '"' && d != '\\'
        if taken = [] then body isDouble fuel (done ++ [.char ch]) c.next
        else body isDouble fuel (done ++ taken.map .char) c

/-- Reads a quoted scalar. -/
def scan (isDouble : Bool) (c : Cursor) : Except Fault (Token × Cursor) := do
  let (text, c) ← body isDouble (c.rest.length + 1) [] c.next
  return (.scalar ⟨text⟩ false, c)

end FatInstall.Yaml.QuotedScalar
