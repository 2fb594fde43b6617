import FatInstall.Route.Mounted
import FatInstall.Route.Offline
import FatInstall.Settings.Basic

/-!
# The update

An update checks its inputs, finds out whether the image can be mounted, and copies the file
through the mount or, failing that, by editing the image. The exit status of a mount is not
trusted alone: without loop devices it can report success while nothing is mounted, so the scratch
directory must also be an active mountpoint afterwards.
-/

namespace FatInstall

/-- Checks that the source and the image are regular files. -/
def validateInputs (source image : Path) : Run Unit := do
  if !(← Run.look (·.isFile source)) then Run.fail (.update (.sourceMissing source))
  if !(← Run.look (·.isFile image)) then Run.fail (.update (.imageMissing image))

namespace Job

/-- Mounts the image on the scratch directory, or fails as one of the kind `mountUnavailable`. -/
def probeMount (j : Job) : Run Unit := do
  match ← Run.attempt j.createScratchDir with
  | .error (.refused why) =>
    if why.isBySystem then Run.fail (.update (.scratchRefused j.mountDir why))
    else Run.fail (.refused why)
  | .error f => Run.fail f
  | .ok () =>
    if !(← j.tools.mount j.image j.mountDir) then
      Run.fail (.update (.mountFailed j.image j.mountDir))
    if !(← j.tools.isMountpoint j.mountDir) then
      Run.fail (.update (.mountInactive j.mountDir))

/-- The way to take. A failure of the kind `mountUnavailable` chooses the offline way. -/
def selectRoute (j : Job) : Run Route := do
  match ← Run.attempt j.probeMount with
  | .ok () => return .mounted
  | .error (.update fault) =>
    if fault.kind = .mountUnavailable then
      Run.log .info .update ("Falling back to offline FAT editing: " ++ fault.message)
      return .offline
    else Run.fail (.update fault)
  | .error f => Run.fail f

/-- Does the job in the given way. -/
def runBy (j : Job) : Route → Run Placement
  | .mounted => Mounted.run j
  | .offline => Offline.run j

end Job

/-- The tools that the settings ask for. -/
def Settings.tools (s : Settings) : Except Failure Tools := do
  return ⟨← s.useSudo, s.dryRun⟩

/-- The job that the settings ask for. Given tools are used as they are. -/
def Settings.job (s : Settings) (source image : Path) (tools : Option Tools) :
    Except Failure Job := do
  let mountDir ← s.mountDir.mapError Failure.value
  let destDir ← s.destDir.mapError Failure.value
  let tools ← match tools with
    | some t => pure t
    | none => s.tools
  return ⟨source, image, mountDir, destDir, tools, s.dryRun⟩

/-- Copies the source into the image, replacing any file of its name. -/
def update (source : Path) (settings : Settings) (tools : Option Tools) : Run Placement := do
  let image ← Run.ofExcept (settings.imagePath.mapError Failure.value)
  validateInputs source image
  let job ← Run.ofExcept (settings.job source image tools)
  Run.print ("Write file '" ++ source.text ++ "' into " ++ image.text)
  let route ← job.selectRoute
  Run.log .info .update s!"Using strategy {route.name}"
  job.runBy route

end FatInstall
