import FatInstall.Job

/-!
# Editing an image that is not mounted

The FAT tools write into the image file itself. A mount that was begun is undone first, and the
image is not touched while something is still mounted.
-/

namespace FatInstall.Offline

/-- The pieces of a directory that lead somewhere. -/
def pieces (dir : Text) : List Text := (slashPieces dir).filter (!·.isEmpty)

/-- The directories on the way to a directory inside the image, itself included, from the root
down. -/
def levels (dir : Text) : List Text :=
  let ps := pieces dir
  (List.range ps.length).map fun i => "/" ++ Text.intercalate "/" (ps.take (i + 1))

/-- Makes the directories, each on its own; one that is there already makes its command fail,
which does no harm. -/
def makeLevels (j : Job) : List Text → Run Unit
  | [] => pure ()
  | dir :: dirs => do
    if !(← j.tools.makeImageDirectory j.image dir) then
      Run.log .debug .offline ("mmd " ++ dir ++ " failed, assuming it already exists")
    makeLevels j dirs

/-- Does the job by editing the image. -/
def run (j : Job) : Run Placement := do
  Run.print "Mount failed, using mtools instead..."
  if !(← j.tools.unmount j.mountDir) then
    Run.log .debug .offline ("Nothing to unmount at " ++ j.mountDir.text)
  if !(← j.removeScratchDir) then
    Run.fail (.update (.mountedBeforeEdit j.mountDir j.image))
  makeLevels j (levels j.destDir)
  match ← Run.attempt (j.tools.copyIntoImage j.image j.source j.destDir) with
  | .error (.command why) => Run.fail (.update (.offlineCopyFailed j.source j.image why))
  | .error f => Run.fail f
  | .ok () =>
    Run.log .info .offline
      ("Copied " ++ j.source.text ++ " to " ++ j.image.text ++ ":" ++ j.destPath ++ " via mtools")
    Run.print "Successfully copied using mtools"
    return j.placement .offline

end FatInstall.Offline
