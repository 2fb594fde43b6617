import FatInstall.Job

/-!
# Copying through a mount

With the image mounted, the file is copied into it like into any directory. The image is given
back in every case: after a copy that failed as well, and then the failure of the copy is the one
that is reported.
-/

namespace FatInstall.Mounted

/-- Unmounts the image, waits for its device and removes the scratch directory. A `strict` release
fails if one of these cannot be done. -/
def release (j : Job) (strict : Bool) : Run Unit := do
  if ← j.tools.unmount j.mountDir then
    j.tools.sync
    if !(← j.removeScratchDir) && strict then
      Run.fail (.update (.mountedAfterUnmount j.mountDir))
  else if strict then Run.fail (.update (.unmountFailed j.mountDir j.image))
  else Run.log .error .mounted ("Failed to unmount " ++ j.mountDir.text)

/-- Copies the file into the mounted image. -/
def copy (j : Job) : Run Unit := do
  j.tools.makeDirectory j.mountedDestDir
  j.tools.copyFile j.source j.mountedDestDir
  j.tools.sync

/-- Does the job through the mounted image and gives the image back. -/
def run (j : Job) : Run Placement := do
  match ← Run.attempt (copy j) with
  | .error (.command why) =>
    release j false
    Run.fail (.update (.mountedCopyFailed j.source j.image why))
  | .error f => Run.fail f
  | .ok () =>
    release j true
    Run.log .info .mounted
      ("Copied " ++ j.source.text ++ " to " ++ j.image.text ++ ":" ++ j.destPath ++ " via mount")
    Run.print "Successfully copied using mount"
    return j.placement .mounted

end FatInstall.Mounted
