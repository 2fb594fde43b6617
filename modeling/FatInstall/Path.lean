import FatInstall.Text.Blank

/-!
# Paths as they are written

A path is an anchor and a list of pieces. Writing a path down and reading it again loses what does
not matter: repeated slashes, pieces that are a single dot, a slash at the end. It keeps `..`,
since what is above a symbolic link is not known from the text, and it keeps a start of exactly
two slashes apart from one slash.
-/

namespace FatInstall

/-- The pieces of a list between the occurrences of a separator. -/
def splitAt {α : Type} [DecidableEq α] (sep : α) : List α → List (List α)
  | [] => [[]]
  | c :: r =>
    if c = sep then [] :: splitAt sep r
    else match splitAt sep r with
      | [] => [[c]]
      | p :: ps => (c :: p) :: ps

/-- The pieces of a text between slashes. -/
def slashPieces (t : Text) : List Text :=
  (splitAt (.char '/') t.points).map Text.mk

/-- Where a path starts. -/
inductive Anchor
  /-- At the current directory. -/
  | relative
  /-- At the root. -/
  | root
  /-- At the root, written with two slashes. -/
  | doubleRoot
  deriving DecidableEq, Repr

/-- A path: an anchor and pieces, none of them empty or a single dot. -/
structure Path where
  anchor : Anchor
  parts : List Text
  deriving DecidableEq, Repr

namespace Path

/-- The anchor of a path with so many slashes at its start. -/
def anchorOfSlashes : Nat → Anchor
  | 0 => .relative
  | 2 => .doubleRoot
  | _ => .root

/-- Does the piece lead somewhere? -/
def isStep (piece : Text) : Bool := !piece.isEmpty && piece != "."

/-- The path that a text names. -/
def ofText (t : Text) : Path where
  anchor := anchorOfSlashes (t.points.takeWhile Text.isSlash).length
  parts := (slashPieces t).filter isStep

/-- The path that a string names. -/
def ofString (s : String) : Path := ofText s

/-- The slashes at the start of a path. -/
def anchorText : Anchor → String
  | .relative => ""
  | .root => "/"
  | .doubleRoot => "//"

/-- The path written down; the current directory is a dot. -/
def text (p : Path) : Text :=
  if p.anchor = .relative ∧ p.parts = [] then "."
  else anchorText p.anchor ++ Text.intercalate "/" p.parts

/-- The path written down as a string. -/
def string (p : Path) : String := p.text.replaced

/-- Is the path written from the root? -/
def isAbsolute (p : Path) : Bool := p.anchor != .relative

/-- The last piece, empty for a path without pieces. -/
def name (p : Path) : Text := p.parts.getLast?.getD .empty

/-- The path without its last piece. -/
def parent (p : Path) : Path := { p with parts := p.parts.dropLast }

/-- The second path taken from the first; one from the root replaces it. -/
def join (p q : Path) : Path :=
  if q.isAbsolute then q else { p with parts := p.parts ++ q.parts }

/-- The end of a file name from its last dot on. A name that starts or ends with its last dot has
no suffix. -/
def suffixOf (name : List CodePoint) : List CodePoint :=
  let tail := (name.reverse.takeWhile (· ≠ .char '.')).reverse
  if tail.length + 1 < name.length ∧ tail ≠ [] then .char '.' :: tail else []

/-- The suffix of the last piece. -/
def suffix (p : Path) : Text := ⟨suffixOf p.name.points⟩

/-- The name that leads to the directory above. -/
def parentName : Text := ".."

/-- Pieces with each `..` taken against the piece before it; at the root it leads nowhere. -/
def collapse : List Text → List Text → List Text
  | done, [] => done.reverse
  | done, p :: ps => if p = parentName then collapse done.tail ps else collapse (p :: done) ps

/-- The path from the root, without `..`, that a path names by its text alone when the current
directory is at the given pieces. -/
def absolute (here : List Text) (p : Path) : Path :=
  if p.isAbsolute then { p with parts := collapse [] p.parts }
  else { anchor := .root, parts := collapse [] (here ++ p.parts) }

end Path

end FatInstall
