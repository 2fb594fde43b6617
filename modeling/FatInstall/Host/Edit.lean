import FatInstall.Host.Removal

/-!
# Changing the file tree

Making directories, reading, adding to files, and the changes that other programs make. Each
operation gives the host afterwards also when it is refused, since a refusal in the middle leaves
what was done before it.

There are no permissions. An interpreter that makes the directories above another by calling itself
can do so only for so many; that limit is left out here, while the reader of documents has one
(`Yaml.Reader`).
-/

namespace FatInstall.Host

/-- Makes one directory. -/
def makeOne (h : Host) (p : Path) : Except Cause Host :=
  match splitLast p with
  | none => .error .present
  | some (above, name) => do
    if maxPath ≤ p.text.byteSize then .error .nameTooLong
    let place ← h.directory above
    if name = Path.parentName then .error .present
    else if maxName < name.byteSize then .error .nameTooLong
    else match h.tree.get? (place ++ [name]) with
      | some _ => .error .present
      | none => .ok { h with tree := h.tree.put (place ++ [name]) .directory }

/-- The outcome of an attempt to make a directory that was refused: no harm if one is there. -/
def settle (h : Host) (p : Path) (c : Cause) : Except Refusal Unit × Host :=
  match h.isDirectory p with
  | .ok true => (.ok (), h)
  | .ok false => (.error (.system c p.text), h)
  | .error r => (.error r, h)

/-- Makes a directory and those above it that are missing, at most so many. -/
def makeUpTo : Nat → Path → Host → Except Refusal Unit × Host
  | levels, p, h =>
    match h.makeOne p with
    | .ok h' => (.ok (), h')
    | .error .missing =>
      match levels with
      | 0 => (.error (.system .missing p.text), h)
      | levels + 1 =>
        match makeUpTo levels p.parent h with
        | (.error r, h') => (.error r, h')
        | (.ok (), h') =>
          match h'.makeOne p with
          | .ok h'' => (.ok (), h'')
          | .error .missing => (.error (.system .missing p.text), h')
          | .error c => h'.settle p c
    | .error c => h.settle p c

/-- Makes a directory and those above it that are missing; one that is there already is fine. -/
def makeDirectory (h : Host) (p : Path) : Except Refusal Unit × Host :=
  match unspeakable? p with
  | some why => (.error why, h)
  | none => makeUpTo p.parts.length p h

/-- The content of a file. -/
def read (h : Host) (p : Path) : Except Refusal (List UInt8) :=
  match unspeakable? p, h.node true p with
  | some why, _ => .error why
  | none, .ok (.file _ content) => .ok content
  | none, .ok .device => .ok []
  | none, .ok _ => .error (.system .isDirectory p.text)
  | none, .error c => .error (.system c p.text)

/-- Opens a file for adding to it, making it if it is missing, and gives its number; a device has
none. -/
def openToAppend (h : Host) (p : Path) : Except Refusal (Option Nat) × Host :=
  match unspeakable? p, h.locate true p with
  | some why, _ => (.error why, h)
  | none, .error c => (.error (.system c p.text), h)
  | none, .ok place =>
    match h.tree.get? place with
    | some (.file number _) => (.ok (some number), h)
    | some .device => (.ok none, h)
    | some _ => (.error (.system .isDirectory p.text), h)
    | none => (.ok (some h.tree.next), { h with tree := h.tree.create place [] })

/-- A change to the files that some other program makes. -/
inductive Edit
  /-- Write a file, with the directories above it. -/
  | write (path : Path) (content : List UInt8)
  /-- Make a directory, with those above it. -/
  | makeDirectory (path : Path)
  /-- Make a symbolic link, with the directories above it. -/
  | link (path : Path) (target : String)
  /-- Remove a file, a link or a directory tree, if it is there. -/
  | remove (path : Path)
  deriving DecidableEq, Repr

/-- The tree with the file's content replaced; the file stays the same one. -/
def overwrite (t : Tree) (place : Place) (content : List UInt8) : Tree :=
  match t.get? place with
  | some (.file number _) => t.put place (.file number content)
  | _ => t.create place content

/-- The host after a change; one that the host refuses changes nothing more. -/
def edit (h : Host) : Edit → Host
  | .write path content =>
    let h' := (h.makeDirectory path.parent).2
    match h'.locate true path with
    | .ok place => { h' with tree := overwrite h'.tree place content }
    | .error _ => h'
  | .makeDirectory path => (h.makeDirectory path).2
  | .link path target =>
    let h' := (h.makeDirectory path.parent).2
    match h'.locate false path with
    | .ok place =>
      if h'.tree.get? place = none then { h' with tree := h'.tree.put place (.link target) }
      else h'
    | .error _ => h'
  | .remove path =>
    match h.locate false path with
    | .ok place =>
      match h.tree.get? place with
      | some .directory => { h with tree := (h.tree.eraseBelow place).erase place }
      | _ => { h with tree := h.tree.erase place }
    | .error _ => h

end FatInstall.Host
