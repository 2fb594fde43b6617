/-!
# Line ends

A text read from a file or from another program has one kind of line end: a carriage return, with
or without a line feed after it, is read as a line feed.
-/

namespace FatInstall.Text

/-- The text with each line end, however it is written, as a line feed. -/
def unifyLineEnds : List Char → List Char
  | [] => []
  | '\r' :: '\n' :: r => '\n' :: unifyLineEnds r
  | c :: r => (if c = '\r' then '\n' else c) :: unifyLineEnds r

end FatInstall.Text
