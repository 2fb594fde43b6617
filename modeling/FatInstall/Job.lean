import FatInstall.Tools

/-!
# The job

What an update works on: the file to copy, the image, the directory where the image may be
mounted for a while, and the directory inside the image. Beside the names of the destination, the
module makes and removes the scratch directory.
-/

namespace FatInstall

/-- An update to be done. -/
structure Job where
  source : Path
  image : Path
  mountDir : Path
  destDir : Text
  tools : Tools
  dryRun : Bool
  deriving DecidableEq, Repr

/-- The two ways into an image. -/
inductive Route
  /-- Through a mount of the image. -/
  | mounted
  /-- By editing the image. -/
  | offline
  deriving DecidableEq, Repr

/-- The name of a way. -/
def Route.name : Route → String
  | .mounted => "mount"
  | .offline => "mtools"

/-- A finished update. -/
structure Placement where
  route : Route
  source : Path
  image : Path
  dest : Text
  deriving DecidableEq, Repr

namespace Job

/-- The path of the copied file inside the image. -/
def destPath (j : Job) : Text := Text.stripSlashesEnd j.destDir ++ "/" ++ j.source.name

/-- The directory inside the image, as it is seen while the image is mounted. -/
def mountedDestDir (j : Job) : Path :=
  j.mountDir.join (Path.ofText (Text.stripSlashesStart j.destDir))

/-- The result of the job done in the given way. -/
def placement (j : Job) (route : Route) : Placement := ⟨route, j.source, j.image, j.destPath⟩

/-- Makes the scratch directory and those above it. -/
def createScratchDir (j : Job) : Run Unit :=
  if j.dryRun then Run.log .info .scratch ("Would create scratch dir " ++ j.mountDir.text)
  else Run.make j.mountDir

/-- Removes the scratch directory, or a file in its place, in the given way. It is left alone, and
the answer is `false`, while something is mounted there: removing it would delete files inside the
image. -/
def removeScratchDirBy (r : Host.TreeRemoval Failure) (j : Job) : Run Bool := do
  if j.dryRun then
    Run.log .info .scratch ("Would remove scratch dir " ++ j.mountDir.text)
    return true
  if !(← Run.seek j.mountDir) then return true
  if ← j.tools.isMountpoint j.mountDir then
    Run.log .warning .scratch
      ("Scratch dir " ++ j.mountDir.text ++ " is still a mountpoint, not removing")
    return false
  Run.discardBy r j.mountDir
  return true

/-- Removes the scratch directory on a host where every entry may be removed. -/
def removeScratchDir (j : Job) : Run Bool := j.removeScratchDirBy (.plain .refused)

end Job

end FatInstall
