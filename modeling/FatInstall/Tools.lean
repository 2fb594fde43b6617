import FatInstall.Command.Basic

/-!
# The tools

The external programs that the update delegates to: mounting and unmounting, copying on the host,
and editing a FAT image without mounting it. Commands that need privileges go through `sudo` if
the tools are set so.
-/

namespace FatInstall

/-- A path inside an image as the FAT tools take it: a drive, and the path from its root. -/
def drivePath (path : Text) : Text := "::/" ++ Text.stripSlashes path

/-- A drive path of a directory to copy into; it ends in a slash. -/
def driveDirectory (dir : Text) : Text := Text.stripSlashesEnd (drivePath dir) ++ "/"

/-- How the tools are run. -/
structure Tools where
  useSudo : Bool
  dryRun : Bool
  deriving DecidableEq, Repr

namespace Tools

/-- A command that needs privileges. -/
def privileged (t : Tools) (argv : List Text) : List Text :=
  if t.useSudo then "sudo" :: argv else argv

/-- Runs a command of the tools. -/
def run (t : Tools) (check : Bool) (argv : List Text) : Run Command.Result :=
  Command.run argv { check, dryRun := t.dryRun }

/-- Mounts an image on a directory. Says whether the command succeeded. -/
def mount (t : Tools) (image target : Path) : Run Bool := do
  let r ← t.run false (t.privileged ["mount", image.text, target.text])
  if !r.ok then
    Run.log .info .tools
      ("mount " ++ image.text ++ " on " ++ target.text ++ s!" failed ({r.status})")
  return r.ok

/-- Is something mounted on the directory? -/
def isMountpoint (t : Tools) (path : Path) : Run Bool := do
  return (← t.run false ["mountpoint", "-q", path.text]).ok

/-- Unmounts a directory. Says whether the command succeeded. -/
def unmount (t : Tools) (path : Path) : Run Bool := do
  return (← t.run false (t.privileged ["umount", path.text])).ok

/-- Waits until all that was written is on its device. -/
def sync (t : Tools) : Run Unit := do
  let r ← t.run false ["sync"]
  if !r.ok then Run.log .warning .tools s!"sync failed ({r.status})"

/-- Makes a directory and those above it. -/
def makeDirectory (t : Tools) (path : Path) : Run Unit := do
  let _ ← t.run true (t.privileged ["mkdir", "-p", path.text])

/-- Copies a file into a directory. The slash after the directory keeps a file of its name from
being made. -/
def copyFile (t : Tools) (source dir : Path) : Run Unit := do
  let _ ← t.run true (t.privileged ["cp", source.text, dir.text ++ "/"])

/-- Makes one directory inside an image. Says whether the command succeeded. -/
def makeImageDirectory (t : Tools) (image : Path) (dir : Text) : Run Bool := do
  return (← t.run false ["mmd", "-i", image.text, drivePath dir]).ok

/-- Copies a file into a directory inside an image. -/
def copyIntoImage (t : Tools) (image source : Path) (dir : Text) : Run Unit := do
  let _ ← t.run true ["mcopy", "-i", image.text, "-o", source.text, driveDirectory dir]

end Tools

end FatInstall
