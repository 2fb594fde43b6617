import FatInstall.Host.Tree
import FatInstall.Host.Error

/-!
# Finding the place of a path

A path is followed name by name from the root or the current directory. Symbolic links on the way
are replaced by their targets, at most forty of them; the last name may be a link that is meant
itself. The walk ends at a place, whether or not something stands there, as long as the way to it
exists. A link whose target is written as a directory leads to a directory or nowhere.

The current directory may have been removed. Then `..` still leads up from it, and nothing else
leads anywhere. There are no permissions: whatever stands on the way of a path can be looked at.
-/

namespace FatInstall.Host

/-- The longest name, in bytes. -/
def maxName : Nat := 255

/-- The length, in bytes, from which on a path is refused. -/
def maxPath : Nat := 4096

/-- The number of links that one walk follows. -/
def maxLinks : Nat := 40

/-- One walk down a list of names. A link is handed to `follow`, with the place its target is
taken from and the names still to come. -/
def walkNames (t : Tree) (followLast : Bool)
    (follow : String → Place → List Text → Except Cause Place) :
    Place → List Text → Except Cause Place
  | here, [] => .ok here
  | here, name :: rest =>
    if name = Path.parentName then walkNames t followLast follow here.dropLast rest
    else if maxName < name.byteSize then .error .nameTooLong
    else match t.get? (here ++ [name]) with
      | none => if rest = [] then .ok (here ++ [name]) else .error .missing
      | some .directory => walkNames t followLast follow (here ++ [name]) rest
      | some (.link target) =>
        if rest = [] ∧ followLast = false then .ok (here ++ [name])
        else follow target here rest
      | some _ => if rest = [] then .ok (here ++ [name]) else .error .notDirectory

/-- Is the target of a link written as that of a directory, with a slash or a dot at its end? -/
def isWrittenAsDirectory (target : String) : Bool := target.endsWith "/" || target.endsWith "/."

/-- The place of a directory, if that is what stands there. -/
def directoryAt (t : Tree) (place : Place) : Except Cause Place :=
  match t.get? place with
  | some .directory => .ok place
  | some _ => .error .notDirectory
  | none => .error .missing

/-- A walk that follows at most so many links. -/
def walk (t : Tree) (followLast : Bool) : Nat → Place → List Text → Except Cause Place
  | 0 => walkNames t followLast fun _ _ _ => .error .linkLoop
  | links + 1 => walkNames t followLast fun target here rest => do
      let p := Path.ofString target
      let start := if p.isAbsolute then [] else here
      let place ← walk t followLast links start (p.parts ++ rest)
      if rest = [] ∧ isWrittenAsDirectory target then directoryAt t place else return place

end FatInstall.Host

namespace FatInstall

/-- The part of the host that paths are about: its files and the current directory. -/
structure Host where
  tree : Host.Tree
  here : Host.Place
  deriving DecidableEq, Repr

namespace Host

/-- The place where a path from the host's current directory starts. -/
def start (h : Host) (p : Path) : Place := if p.isAbsolute then [] else h.here

/-- A piece of a path as the host has it. -/
def entryName (piece : Text) : Text := piece.fileName?.getD piece

/-- The place that the names `..` at the beginning of a list lead to. -/
def climb : Place → List Text → Place
  | here, [] => here
  | here, name :: rest => if name = Path.parentName then climb here.dropLast rest else here

/-- The place from which a path leads down, or where it ends if it does not. -/
def foothold (h : Host) (p : Path) : Place := climb (h.start p) (p.parts.map entryName)

/-- The place that a path names. -/
def locate (h : Host) (followLast : Bool) (p : Path) : Except Cause Place :=
  if maxPath ≤ p.text.byteSize then .error .nameTooLong
  else if h.tree.get? (h.foothold p) = none then .error .missing
  else walk h.tree followLast maxLinks (h.start p) (p.parts.map entryName)

/-- The node that a path names. -/
def node (h : Host) (followLast : Bool) (p : Path) : Except Cause Node := do
  match h.tree.get? (← h.locate followLast p) with
  | some n => .ok n
  | none => .error .missing

/-- The place of the directory that a path names. -/
def directory (h : Host) (p : Path) : Except Cause Place := do
  directoryAt h.tree (← h.locate true p)

/-- Why the host cannot even be asked about a path, if it cannot. -/
def unspeakable? (p : Path) : Option Refusal :=
  if p.parts.any fun piece => piece.bytes?.isNone then some .notEncodable
  else if p.parts.any fun piece => piece.points.contains (.char '\x00') then some .nulInPath
  else none

/-- What stands at the end of the path, if the path leads anywhere. Only a path that is too long
is refused. -/
def look (h : Host) (p : Path) : Except Refusal (Option Node) :=
  if (unspeakable? p).isSome then .ok none
  else match h.node true p with
    | .ok n => .ok (some n)
    | .error .missing | .error .notDirectory | .error .linkLoop => .ok none
    | .error c => .error (.system c p.text)

/-- Does the path lead to something? -/
def doesExist (h : Host) (p : Path) : Except Refusal Bool :=
  (h.look p).map Option.isSome

/-- Does the path lead to a regular file? -/
def isFile (h : Host) (p : Path) : Except Refusal Bool :=
  (h.look p).map fun
    | some (.file _ _) => true
    | _ => false

/-- Does the path lead to a directory? -/
def isDirectory (h : Host) (p : Path) : Except Refusal Bool :=
  (h.look p).map fun
    | some .directory => true
    | _ => false

end Host

end FatInstall
