import FatInstall.Program

/-!
# The command line

The program on the files of this host. It starts no other programs: every command is answered as
one that is not installed, so that a run is of use to see with `--dry-run` what would be done.
Only the files that the command line or the settings can mean are read, and only files and
directories that the run adds or changes are written.
-/

namespace FatInstall.Main

/-- A host without any programs. -/
def noPrograms : Programs := fun _ s h => (.unstarted (.system .missing (s.argv.headD "")), h)

/-- The files that the words of a command line can mean, with the usual image. -/
def namedFiles (words : List String) : List String :=
  let values := words.filterMap fun w => (CommandLine.splitValue w.toList).2
  words ++ values.map String.ofList ++ ["disk.img"]

/-- The image that a settings file names. -/
def imageOf (h : Host) (path : String) : Option String :=
  match Settings.load path h with
  | .ok s => s.imagePath.toOption.bind fun p => p.text.string?
  | .error _ => none

/-- The content of a file of this host, if it can be read. -/
def contentOf (path : String) : IO (Option (List UInt8)) := do
  try
    return some (← IO.FS.readBinFile path).toList
  catch _ =>
    return none

/-- The host with the files of the given names. -/
def withFiles (h : Host) (names : List String) : IO Host :=
  names.foldlM (fun h name => do
    match ← contentOf name with
    | some content => return h.edit (.write (Path.ofString name) content)
    | none => return h) h

/-- The files of this host that the words can mean. -/
def hostFor (words : List String) : IO Host := do
  let here := (Path.ofString (toString (← IO.currentDir))).parts
  let root : Host := ⟨.empty, []⟩
  let empty := { (root.makeDirectory ⟨.root, here⟩).2 with here }
  let h ← withFiles empty (namedFiles words)
  withFiles h ((namedFiles words).filterMap (imageOf h))

/-- Writes what the run added or changed. -/
def keep (before after : Host.Tree) : IO Unit :=
  for (place, node) in after.entries.reverse do
    if before.get? place ≠ some node then
      let path := (Path.mk .root place).string
      match node with
      | .directory => IO.FS.createDirAll path
      | .file _ content =>
        IO.FS.createDirAll (Path.mk .root place.dropLast).string
        IO.FS.writeBinFile path ⟨content.toArray⟩
      | _ => pure ()

/-- Writes what an event shows. -/
def display : Event → IO Unit
  | .printed text => IO.print text.replaced
  | .complained text => IO.eprint text.replaced
  | _ => pure ()

/-- The exit status of a run, and a message if it ended with a failure that has no status. -/
def statusOf : Except Failure Nat → Nat × Option String
  | .ok n => (n, none)
  | .error (.exit n) => (n, none)
  | .error .interrupted => (Program.statusInterrupted, none)
  | .error f => (1, some f.message.replaced)

/-- Runs the program with the given words. -/
def runWords (words : List String) : IO UInt32 := do
  let host ← hostFor words
  let stamp := s!"[{← IO.monoMsNow} ms]"
  let journal : Journal :=
    { threshold := .warning, sinks := [], setUp := none, stamp, account := "" }
  let (r, w) := Program.run words none .script noPrograms ⟨host, journal, []⟩
  w.trace.forM display
  keep host.tree w.host.tree
  let (status, message) := statusOf r
  message.forM IO.eprintln
  return UInt32.ofNat status

end FatInstall.Main

/-- Runs the program. -/
def main (words : List String) : IO UInt32 := FatInstall.Main.runWords words
