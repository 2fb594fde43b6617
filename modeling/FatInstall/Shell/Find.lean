import FatInstall.Utility.Table

/-!
# Finding programs

A program is called by a path, or by a name that is looked for in a list of directories.

This serves runs of real processes only (`World.Processes`).
-/

namespace FatInstall.Shell

/-- The directories of the small programs. -/
def programDirectories : List Host.Place := [["bin"], ["usr", "bin"]]

/-- The programs that run other programs. -/
def runners : List String := ["sh", "dash", "env"]

/-- The program at a path. -/
def programAt (h : Host) (path : String) : Except Host.Cause String :=
  match h.locate true (Path.ofString path) with
  | .error cause => .error cause
  | .ok place =>
    let name := (place.getLast?.getD .empty).replaced
    if programDirectories.contains place.dropLast ∧
        (runners.contains name ∨ (Utility.programs.lookup name).isSome) then .ok name
    else match h.tree.get? place with
      | none => .error .missing
      | some .directory => .error .denied
      | some _ => if path.endsWith "/" then .error .notDirectory else .error .denied

/-- The paths under which a program is looked for. -/
def candidates (path name : String) : List String :=
  if name.toList.contains '/' then [name]
  else (path.splitOn ":").map fun d => if d = "" then name else d ++ "/" ++ name

/-- Does the cause say that there is no program at all? -/
def isAbsence : Host.Cause → Bool
  | .missing | .notDirectory => true
  | _ => false

/-- The program with a name. Of several causes that there is none the last counts, but one that
is more than absence counts most. -/
def findProgram (h : Host) (path name : String) : Except Host.Cause String :=
  let found := (candidates path name).map (programAt h)
  match found.findSome? Except.toOption with
  | some program => .ok program
  | none =>
    let causes := found.filterMap fun
      | .error cause => some cause
      | .ok _ => none
    let grave := causes.filter fun c => !isAbsence c
    .error ((grave.getLast?.or causes.getLast?).getD .missing)

end FatInstall.Shell
