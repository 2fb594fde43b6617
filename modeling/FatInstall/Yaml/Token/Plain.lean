import FatInstall.Yaml.Token.Basic

/-!
# Plain scalars

A plain scalar runs until something that cannot be part of it: a colon or a number sign with a gap
beside it, a bracket or comma in the flow form, or a line that is indented too little. Its lines
are joined by spaces.
-/

namespace FatInstall.Yaml.Plain

/-- Does a colon end the scalar, before these characters? -/
def colonEnds (inFlow : Bool) (r : List Char) : Bool :=
  orEnd (fun c => isGap c || (inFlow && ",[]\x7b\x7d".toList.contains c)) r.head?

/-- The characters up to the next gap or the end of the scalar. -/
def run (inFlow : Bool) : List Char → List Char
  | [] => []
  | c :: r =>
    if isGap c || (c == ':' && colonEnds inFlow r) ||
        (inFlow && ",?[]\x7b\x7d".toList.contains c) then []
    else c :: run inFlow r

/-- Empty lines and indentation after the end of a line: the ends of the empty lines, or `none` if
the document ends there. -/
def emptyLines : Nat → List Char → Cursor → Option (List Char) × Cursor
  | 0, found, c => (some found, c)
  | fuel + 1, found, c =>
    if c.peek = some ' ' then emptyLines fuel found c.next
    else match c.lineBreak with
      | ([], _) => (some found, c)
      | (b, c) => if c.atDocumentMark then (none, c) else emptyLines fuel (found ++ b) c

/-- The gap after a run, as it stands in the scalar, and whether a line ended in it. -/
def gap (c : Cursor) : List Char × Bool × Cursor :=
  let (spaces, c) := c.span (· == ' ')
  match c.lineBreak with
  | ([], _) => (spaces, false, c)
  | (first, c) =>
    if c.atDocumentMark then ([], true, c)
    else match emptyLines c.rest.length [] c with
      | (none, c) => ([], true, c)
      | (some more, c) =>
        if first ≠ ['\n'] then (first ++ more, true, c)
        else if more = [] then ([' '], true, c)
        else (more, true, c)

/-- Runs and gaps up to the end of the scalar. `space` is the gap before the next run; it is
dropped if no run follows. -/
def scanRuns (inFlow : Bool) (indent : Int) :
    Nat → List Char → List Char → Bool → Cursor → List Char × Bool × Cursor
  | 0, done, _, atNewLine, c => (done, atNewLine, c)
  | fuel + 1, done, space, atNewLine, c =>
    if c.peek = some '#' then (done, atNewLine, c)
    else match run inFlow c.rest with
      | [] => (done, atNewLine, c)
      | taken =>
        let done := done ++ space ++ taken
        let (space, atNewLine, c) := gap (c.skip taken.length)
        if space = [] ∨ c.peek = some '#' ∨ (!inFlow ∧ (c.column : Int) < indent) then
          (done, atNewLine, c)
        else scanRuns inFlow indent fuel done space atNewLine c

/-- Reads a plain scalar. Also says whether it ended at the end of a line. -/
def scan (inFlow : Bool) (indent : Int) (c : Cursor) : Token × Bool × Cursor :=
  let (text, atNewLine, c) := scanRuns inFlow indent (c.rest.length + 1) [] [] false c
  (.scalar (Text.ofList text) true, atNewLine, c)

end FatInstall.Yaml.Plain
