import FatInstall.Utility.Basic

/-!
# Programs that change files

Making, removing, copying and moving files and directories, and listing them.

This serves runs of real processes only (`World.Processes`).
-/

namespace FatInstall.Utility

/-- The text of a refusal. -/
def causeText : Host.Refusal → String
  | .system cause _ => cause.text
  | r => r.message

/-- A change of the files by one name, with the complaint it ends in if it is refused. -/
def change (c : Call) (complaint : String → String)
    (f : Host → Path → Except Host.Refusal Unit × Host) (h : Host) (name : String) :
    Host × List UInt8 × List UInt8 × Bool :=
  match f h (Path.ofString name) with
  | (.ok (), h') => (h', [], [], true)
  | (.error r, h') => (h', [], c.complaint s!"{complaint name}: {causeText r}", false)

/-- A cause in place of a refusal. -/
def refuse (h : Host) (p : Path) (cause : Host.Cause) : Except Host.Refusal Unit × Host :=
  (.error (.system cause p.text), h)

/-- The outcome of an operation that changes nothing when it is refused. -/
def settle (h : Host) (p : Path) : Except Host.Cause Host → Except Host.Refusal Unit × Host
  | .ok h' => (.ok (), h')
  | .error cause => refuse h p cause

/-- Makes directories. -/
def mkdir (c : Call) : Ended :=
  let (options, names) := letters c.args
  let make (h : Host) (p : Path) : Except Host.Refusal Unit × Host :=
    if options.contains 'p' then h.makeDirectory p else settle h p (h.makeOne p)
  forAll 1 (change c (fun name => "cannot create directory " ++ c.inQuotes name) make) c names

/-- Removes empty directories. -/
def rmdir (c : Call) : Ended :=
  forAll 1 (change c (fun name => s!"failed to remove '{name}'")
    fun h p => settle h p (h.removeEmpty p)) c (letters c.args).2

/-- Makes files that are missing. -/
def touch (c : Call) : Ended :=
  forAll 1 (change c (fun name => s!"cannot touch '{name}'") fun h p =>
    match h.node true p with
    | .ok _ => (.ok (), h)
    | .error _ =>
      let (r, h') := h.openToAppend p
      (r.map fun _ => (), h')) c (letters c.args).2

/-- Removes files, and directory trees if asked to. -/
def rm (c : Call) : Ended :=
  let (options, names) := letters c.args
  let isForced := options.contains 'f'
  let isTree := options.contains 'r' || options.contains 'R'
  let remove (h : Host) (p : Path) : Except Host.Refusal Unit × Host :=
    match h.node false p with
    | .error .missing => if isForced then (.ok (), h) else refuse h p .missing
    | .error cause => refuse h p cause
    | .ok .directory =>
      if isTree then h.removeTree p
      else if options.contains 'd' then settle h p (h.removeEmpty p)
      else refuse h p .isDirectory
    | .ok _ => h.unlink p
  forAll 1 (change c (fun name => s!"cannot remove '{name}'") remove) c names

/-- The path under which a source goes to a target, which may be a directory to put it in. -/
def targetOf (h : Host) (source target : Path) : Path :=
  match h.isDirectory target with
  | .ok true => target.join ⟨.relative, [source.name]⟩
  | _ => target

/-- The sources and the target of a program that takes several sources. -/
def sourcesAndTarget (names : List String) : Option (List String × String) :=
  match names.reverse with
  | target :: source :: more => some ((source :: more).reverse, target)
  | _ => none

/-- Copies one file. -/
def copyFile (h : Host) (source target : Path) : Except Host.Refusal Unit × Host :=
  match h.read source with
  | .error r => (.error r, h)
  | .ok bytes =>
    let target := targetOf h source target
    match h.directory target.parent with
    | .error cause => refuse h target cause
    | .ok _ => (.ok (), h.edit (.write target bytes))

/-- The entries of a subtree moved or copied to another place. -/
def copyTree (t : Host.Tree) (source target : Host.Place) : Host.Tree :=
  let inside := t.entries.filter fun e => Host.Tree.isBelow source e.1
  inside.foldl (fun t e =>
    let place := target ++ e.1.drop source.length
    match e.2 with
    | .file _ content => t.create place content
    | n => t.put place n) (t.put target .directory)

/-- Copies files, and directory trees if asked to. -/
def cp (c : Call) : Ended :=
  let (options, names) := letters c.args
  let isTree := options.any fun o => o == 'r' || o == 'R' || o == 'a'
  match sourcesAndTarget names with
  | none => c.fails 1 "missing file operand"
  | some (sources, target) =>
    forAll 1 (fun h name =>
      let source := Path.ofString name
      let goal := Path.ofString target
      match h.node true source with
      | .error cause => (h, [], c.complaint s!"cannot stat '{name}': {cause.text}", false)
      | .ok .directory =>
        if isTree then
          match h.locate true source, h.locate true (targetOf h source goal) with
          | .ok a, .ok b => ({ h with tree := copyTree h.tree a b }, [], [], true)
          | _, _ => (h, [], c.complaint s!"cannot create directory '{target}'", false)
        else (h, [], c.complaint s!"-r not specified; omitting directory '{name}'", false)
      | .ok _ =>
        change c (fun _ => s!"cannot create regular file '{target}'")
          (fun h _ => copyFile h source goal) h name) c sources

/-- The tree with a node and all below it under another place. -/
def moveTree (t : Host.Tree) (source target : Host.Place) : Host.Tree :=
  let kept := t.entries.filter fun e => !(e.1 == target || Host.Tree.isBelow target e.1)
  { t with entries := kept.map fun e =>
      if source.isPrefixOf e.1 then (target ++ e.1.drop source.length, e.2) else e }

/-- Moves files and directories. -/
def mv (c : Call) : Ended :=
  match sourcesAndTarget (letters c.args).2 with
  | none => c.fails 1 "missing file operand"
  | some (sources, target) =>
    forAll 1 (fun h name =>
      let source := Path.ofString name
      match h.node false source, h.locate false source,
          h.locate false (targetOf h source (Path.ofString target)) with
      | .error cause, _, _ | _, .error cause, _ =>
        (h, [], c.complaint s!"cannot stat '{name}': {cause.text}", false)
      | _, _, .error cause =>
        (h, [], c.complaint s!"cannot move '{name}' to '{target}': {cause.text}", false)
      | .ok _, .ok a, .ok b => ({ h with tree := moveTree h.tree a b }, [], [], true)) c sources

/-- Makes symbolic links. -/
def ln (c : Call) : Ended :=
  let (options, names) := letters c.args
  match names with
  | [target] => link options target (Path.ofString target).name.replaced
  | [target, name] => link options target name
  | _ => c.fails 1 "missing file operand"
where
  link (options : List Char) (target name : String) : Ended :=
    let p := targetOf c.host (Path.ofString target) (Path.ofString name)
    let h := if options.contains 'f' then c.host.edit (.remove p) else c.host
    if !options.contains 's' then c.fails 1 s!"failed to create hard link '{name}'"
    else match h.locate false p with
      | .error cause => c.fails 1 s!"failed to create symbolic link '{name}': {cause.text}"
      | .ok place =>
        match h.tree.get? place with
        | some _ => c.fails 1 s!"failed to create symbolic link '{p.string}': File exists"
        | none => { c.ended 0 with host := { h with tree := h.tree.put place (.link target) } }

/-- The names in a directory, in order. -/
def namesIn (h : Host) (place : Host.Place) (hidden : Bool) : List String :=
  let names := (h.tree.childNames place).map Text.replaced
  (names.filter fun n => hidden || !n.startsWith ".").mergeSort (· ≤ ·)

/-- Lists directories. -/
def ls (c : Call) : Ended :=
  let (options, names) := letters c.args
  let hidden := options.contains 'a' || options.contains 'A'
  let dots := if options.contains 'a' then [".", ".."] else []
  let names := if names = [] then ["."] else names
  let isDirectory (name : String) : Bool :=
    !options.contains 'd' && (c.host.isDirectory (Path.ofString name)).toOption.getD false
  let stands (name : String) : Bool :=
    match c.host.node false (Path.ofString name) with
    | .ok _ => true
    | .error _ => false
  let missing := (names.filter fun n => !stands n).mergeSort (· ≤ ·)
  let files := (names.filter fun n => stands n && !isDirectory n).mergeSort (· ≤ ·)
  let directories := (names.filter fun n => stands n && isDirectory n).mergeSort (· ≤ ·)
  let listing (name : String) : List String :=
    match c.host.directory (Path.ofString name) with
    | .ok place => dots ++ namesIn c.host place hidden
    | .error _ => []
  let linesOf (ns : List String) : String := String.join (ns.map (· ++ "\n"))
  let blocks := directories.map fun name =>
    (if names.length ≤ 1 then "" else name ++ ":\n") ++ linesOf (listing name)
  let fileBlock := if files = [] then [] else [linesOf files]
  let err := missing.flatMap fun name =>
    let cause := match c.host.node false (Path.ofString name) with
      | .error cause => cause.text
      | .ok _ => ""
    c.complaint s!"cannot access '{name}': {cause}"
  { c.ended (if missing = [] then 0 else 2) with
    out := bytesOf (String.intercalate "\n" (fileBlock ++ blocks)), err }

/-- Prints the current directory. -/
def pwd (c : Call) : Ended :=
  c.prints (Path.string ⟨.root, c.host.here⟩ ++ "\n")

/-- Prints the target of a link, or the place of a path. -/
def readlink (c : Call) : Ended :=
  match letters c.args with
  | (['f'], [name]) =>
    match c.host.locate true (Path.ofString name) with
    | .ok place => c.prints (Path.string ⟨.root, place⟩ ++ "\n")
    | .error _ => c.ended 1
  | (_, [name]) =>
    match c.host.node false (Path.ofString name) with
    | .ok (.link target) => c.prints (target ++ "\n")
    | _ => c.ended 1
  | _ => c.fails 1 "missing operand"

end FatInstall.Utility
