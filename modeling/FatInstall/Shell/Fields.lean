import FatInstall.Shell.Pattern
import FatInstall.Utility.Files

/-!
# Fields

The words of a command are put together from the parts of the script. A value outside quotes is
cut into fields, and a field that is a pattern stands for the paths that it fits.

This serves runs of real processes only (`World.Processes`).
-/

namespace FatInstall.Shell

/-- Fields that are put together: those that are complete, and the one that is open. -/
structure Fields where
  complete : List (List Mark)
  current : Option (List Mark)

namespace Fields

/-- No fields. -/
def empty : Fields := ⟨[], none⟩

/-- The text added to the open field. -/
def add (f : Fields) (isQuoted : Bool) (s : String) : Fields :=
  { f with current := some (f.current.getD [] ++ s.toList.map (·, isQuoted)) }

/-- The open field completed. -/
def close (f : Fields) : Fields :=
  match f.current with
  | some ms => ⟨f.complete ++ [ms], none⟩
  | none => f

/-- The value added, cut into fields at the separators. -/
def split (separators : List Char) (f : Fields) (s : String) : Fields :=
  s.toList.foldl (fun f c =>
    if separators.contains c then
      if c = ' ' ∨ c = '\t' ∨ c = '\n' then f.close
      else ⟨f.complete ++ [f.current.getD []], none⟩
    else f.add false c.toString) f

/-- The values added as fields of their own, the first to the open field. -/
def addAll (add : Fields → String → Fields) : Fields → List String → Fields
  | f, [] => f
  | f, [v] => add f v
  | f, v :: vs => addAll add (add f v).close vs

/-- All fields. -/
def all (f : Fields) : List (List Mark) := f.close.complete

end Fields

/-- The text of a field. -/
def textOfMarks (ms : List Mark) : String := String.ofList (ms.map Prod.fst)

/-- The pieces of a field between slashes. -/
def pathMarks : List Mark → List (List Mark)
  | [] => [[]]
  | m :: r =>
    if m.1 = '/' then [] :: pathMarks r
    else match pathMarks r with
      | [] => [[m]]
      | p :: ps => (m :: p) :: ps

/-- The paths that a pattern of pieces fits, from a text that is known. -/
def matches_ (h : Host) : String → List (List Mark) → List String
  | known, [] => [known]
  | known, piece :: rest =>
    let slash := if rest = [] then "" else "/"
    if piece.any Pattern.isSpecial then
      let dir := if known = "" then "." else known
      match h.directory (Path.ofString dir) with
      | .error _ => []
      | .ok place =>
        let hidden := (piece.head?.map Prod.fst) == some '.'
        let names := (Utility.namesIn h place hidden).filter fun n => Pattern.fits piece n.toList
        names.flatMap fun n => matches_ h (known ++ n ++ slash) rest
    else matches_ h (known ++ textOfMarks piece ++ slash) rest

/-- The texts of a field: the paths that it fits if it is a pattern, or the field itself. -/
def pathsOf (h : Host) (ms : List Mark) : List String :=
  if ms.any Pattern.isSpecial then
    let stands (p : String) : Bool := match h.node false (Path.ofString p) with
      | .ok _ => true
      | .error _ => false
    match (matches_ h "" (pathMarks ms)).filter stands with
    | [] => [textOfMarks ms]
    | ps => ps
  else [textOfMarks ms]

end FatInstall.Shell
